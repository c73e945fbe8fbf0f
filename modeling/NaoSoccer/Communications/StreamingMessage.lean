import NaoSoccer.Common.FixedWidth
import NaoSoccer.Memory.StreamBuffer

/-!
# Streaming messages

A `StreamingMessage` is what goes over a TCP connection: its own length, the length of the
uncompressed payload, and the payload compressed by zlib.  The sender fills it in `preSend` and
writes its first `send_len_` bytes; the receiver reads the three parts one by one and takes the
payload out in `postReceive`.

Lengths are `int32_t` and pass through `size_t` and `unsigned long` on the way, so every conversion
of the source is written out.  zlib is a parameter.
-/

namespace NaoSoccer

/-! ## zlib -/

/-- The two functions of zlib.  A result is missing where zlib returns an error code. -/
structure Zlib where
  /-- `compress2`: at most `destLen` bytes that stand for the source. -/
  compress2 : (destLen : ℕ) → (source : List UInt8) → (level : ℤ) → Option (List UInt8)
  /-- `uncompress`: at most `destLen` bytes from a compressed source. -/
  uncompress : (destLen : ℕ) → (source : List UInt8) → Option (List UInt8)

/-- What zlib documents: compression keeps to the space it is given, and decompression undoes it.
A compressed stream marks its own end, so bytes behind it are not looked at. -/
structure Zlib.Inverse (z : Zlib) : Prop where
  length_le : ∀ {destLen source level c}, z.compress2 destLen source level = some c →
    c.length ≤ destLen
  uncompress_compress2 : ∀ {destLen source level c}, z.compress2 destLen source level = some c →
    ∀ behind, z.uncompress source.length (c ++ behind) = some source

/-! ## Messages -/

/-- `MAX_STREAMING_MESSAGE_LEN`. -/
def maxStreamingMessageLen : ℕ := 6000000

/-- A message under construction, on either side. -/
structure StreamingMessage where
  /-- `send_len_`. -/
  sendLen : ℤ
  /-- `orig_len_`. -/
  origLen : ℤ
  /-- `data_`, a fixed array. -/
  data : List UInt8
  /-- The array never changes its size. -/
  length_data : data.length = maxStreamingMessageLen

namespace StreamingMessage

/-- The front of the array is overwritten, if the bytes fit. -/
def setData (sm : StreamingMessage) (bs : List UInt8) : Option StreamingMessage :=
  if h : bs.length ≤ maxStreamingMessageLen then
    some { sm with
      data := bs ++ sm.data.drop bs.length
      length_data := by
        have hlen : sm.data.length = maxStreamingMessageLen := sm.length_data
        simp only [List.length_append, List.length_drop]
        omega }
  else none

/-- Bytes that fit go to the front of the array. -/
lemma setData_eq (sm : StreamingMessage) {bs : List UInt8}
    (h : bs.length ≤ maxStreamingMessageLen) :
    ∃ sm', sm.setData bs = some sm' ∧ sm'.data = bs ++ sm.data.drop bs.length := by
  unfold setData
  rw [dif_pos h]
  exact ⟨_, rfl, rfl⟩

/-- The object in memory: its three members one after the other. -/
def image (sm : StreamingMessage) : List UInt8 :=
  ByteMemory.encodeInt 4 sm.sendLen ++ (ByteMemory.encodeInt 4 sm.origLen ++ sm.data)

/-- `preSend`: the first `n` bytes at `data` are compressed into the message.  The result is
missing if zlib reports an error. -/
def preSend (z : Zlib) (sm : StreamingMessage) (data : List UInt8) (n : ℤ) :
    Except Fault (Option StreamingMessage) := do
  let source ← inBounds (ByteMemory.load data 0 (toSizeT n))
  match z.compress2 maxStreamingMessageLen source 3 with
  | none => .ok none
  | some compressed =>
    let sm ← inBounds (sm.setData compressed)
    .ok (some { sm with
      sendLen := toInt32 (toInt32 compressed.length + 8)
      origLen := n })

/-- A message whose bytes zlib can compress is filled. -/
lemma preSend_some {z : Zlib} (sm : StreamingMessage) {data source payload : List UInt8} {n : ℤ}
    (hload : ByteMemory.load data 0 (toSizeT n) = some source)
    (hcompress : z.compress2 maxStreamingMessageLen source 3 = some payload)
    (hlen : payload.length ≤ maxStreamingMessageLen) :
    ∃ sm', sm.preSend z data n = .ok (some sm') ∧
      sm'.sendLen = toInt32 (toInt32 payload.length + 8) ∧ sm'.origLen = n ∧
      sm'.data = payload ++ sm.data.drop payload.length := by
  obtain ⟨sm', hset, hdata⟩ := sm.setData_eq hlen
  rw [preSend, hload]
  simp only [inBounds, Outcome.ok_bind, hcompress, hset]
  exact ⟨_, rfl, rfl, rfl, hdata⟩

/-- A message that zlib cannot compress is given up. -/
lemma preSend_none {z : Zlib} (sm : StreamingMessage) {data source : List UInt8} {n : ℤ}
    (hload : ByteMemory.load data 0 (toSizeT n) = some source)
    (hcompress : z.compress2 maxStreamingMessageLen source 3 = none) :
    sm.preSend z data n = .ok none := by
  rw [preSend, hload]
  simp only [inBounds, Outcome.ok_bind, hcompress]

/-- zlib must not read behind the memory of the message. -/
lemma preSend_outOfBounds {z : Zlib} (sm : StreamingMessage) {data : List UInt8} {n : ℤ}
    (hload : ByteMemory.load data 0 (toSizeT n) = none) :
    sm.preSend z data n = .error .outOfBounds := by
  rw [preSend, hload]
  rfl

/-- The results of a write to the socket, and of `sendMessage`. -/
inductive ErrorCode
  | success
  | brokenPipe
  | other
  deriving DecidableEq, Repr

/-- `sendMessage`: the first `send_len_` bytes of the message are written to the socket.  The
second component is what was written; a message that zlib cannot compress is not written, and no
error is reported. -/
def sendMessage (z : Zlib) (write : List UInt8 → ErrorCode) (sm : StreamingMessage)
    (data : List UInt8) (n : ℤ) : Except Fault (ErrorCode × Option (List UInt8)) := do
  match ← sm.preSend z data n with
  | none => .ok (.success, none)
  | some sm =>
    let bytes ← inBounds (ByteMemory.load sm.image 0 (toSizeT sm.sendLen))
    .ok (write bytes, some bytes)

/-- The ways in which receiving a message ends the receiver. -/
inductive Stop
  /-- The stream has ended in front of a message or inside it. -/
  | endOfStream
  /-- The message is refused. -/
  | rejected
  /-- `std::vector` is asked for a negative number of bytes. -/
  | lengthError
  /-- An access leaves the memory. -/
  | outOfBounds
  deriving DecidableEq, Repr

/-- `postReceive`: the payload of a received message, empty if it is not what it should be. -/
def postReceive (z : Zlib) (sm : StreamingMessage) (readSize : ℤ) : Except Stop (List UInt8) :=
  if sm.origLen < 0 then .error .lengthError
  else if readSize ≠ toInt32 (toSizeT (sm.sendLen - 8)) then .ok []
  else
    match ByteMemory.load sm.data 0 (toSizeT sm.sendLen) with
    | none => .error .outOfBounds
    | some source =>
      match z.uncompress sm.origLen.toNat source with
      | none => .ok []
      | some out => .ok (if out.length = sm.origLen.toNat then out else [])

end StreamingMessage

end NaoSoccer
