import NaoSoccer.Communications.TCPConnection
import NaoSoccer.Foundation.StoredZlib

/-!
# Delivery of TCP messages

The receiver gets back what the sender wrote, message by message, as long as both agree on the
lengths.  They do not quite: the sender lets zlib use all of `MAX_STREAMING_MESSAGE_LEN` for the
compressed payload and adds the eight bytes of the header to `send_len_` afterwards, and the
receiver refuses a `send_len_` above `MAX_STREAMING_MESSAGE_LEN`.  A payload that compresses to
one of the eight largest sizes is written and then refused.

`messages_delivered_iff` shows that, apart from sizes that `int32_t` cannot hold, this is the only
way in which a message that was written is not delivered.
-/

namespace NaoSoccer

open StreamingMessage

variable {z : Zlib} (smessage : StreamingMessage)

/-- A length in the range of `int32_t` passes through its four bytes unchanged. -/
lemma decodeInt_encodeInt_four {n : ℤ} (hlo : -2 ^ 31 ≤ n) (hhi : n < 2 ^ 31) :
    ByteMemory.decodeInt (ByteMemory.encodeInt 4 n) = n := by
  rw [ByteMemory.decodeInt_encodeInt]
  exact Int.bmod_eq_of_le (by norm_num; omega) (by norm_num; omega)

/-! ## What the sender writes -/

/-- The bytes at a buffer that `preSend` compresses. -/
def source (m : StreamBuffer) : Option (List UInt8) :=
  ByteMemory.load m.buffer 0 (toSizeT (toInt32 m.size))

/-- The compressed payload of a message, if zlib can compress it into `data_`. -/
def compressed (z : Zlib) (m : StreamBuffer) : Option (List UInt8) :=
  (source m).bind fun bytes => z.compress2 maxStreamingMessageLen bytes 3

/-- A message on the wire: the length of the whole, the length of the payload, the compressed
payload. -/
def wire (n : ℤ) (payload : List UInt8) : List UInt8 :=
  ByteMemory.encodeInt 4 (payload.length + 8) ++ (ByteMemory.encodeInt 4 n ++ payload)

/-- What a message adds to the stream. -/
def wireOf (z : Zlib) (m : StreamBuffer) : List UInt8 :=
  (compressed z m).elim [] (wire (toInt32 m.size))

/-- The messages whose bytes are written to the socket. -/
def written (z : Zlib) (messages : List StreamBuffer) : List StreamBuffer :=
  messages.filter fun m => (compressed z m).isSome

/-- The message object that `preSend` fills has the message on the wire at its front. -/
lemma load_image {sm : StreamingMessage} {n : ℤ} {payload behind : List UInt8}
    (hsend : sm.sendLen = payload.length + 8) (horig : sm.origLen = n)
    (hdata : sm.data = payload ++ behind) (hlen : payload.length ≤ maxStreamingMessageLen) :
    ByteMemory.load sm.image 0 (toSizeT sm.sendLen) = some (wire n payload) := by
  have himage : sm.image = [] ++ (wire n payload ++ behind) := by
    simp [image, wire, hsend, horig, hdata]
  have hsize : toSizeT sm.sendLen = (wire n payload).length := by
    have hcast : sm.sendLen = ((payload.length + 8 : ℕ) : ℤ) := by rw [hsend]; norm_cast
    unfold maxStreamingMessageLen at hlen
    rw [hcast, toSizeT_eq (by omega)]
    simp [wire]
    omega
  rw [himage]
  exact ByteMemory.load_append rfl hsize

/-- Sending a message whose bytes zlib can compress writes it to the socket. -/
lemma sendMessage_written {m : StreamBuffer} {payload : List UInt8} (hz : z.Inverse)
    (hpayload : compressed z m = some payload) (write : List UInt8 → ErrorCode) :
    smessage.sendMessage z write m.buffer (toInt32 m.size) =
      .ok (write (wire (toInt32 m.size) payload), some (wire (toInt32 m.size) payload)) := by
  obtain ⟨bytes, hbytes, hcompress⟩ := Option.bind_eq_some_iff.mp hpayload
  have hlen : payload.length ≤ 6000000 := hz.length_le hcompress
  have hsend : toInt32 (toInt32 payload.length + 8) = payload.length + 8 := by
    rw [toInt32_eq (n := payload.length) (by omega) (by omega)]
    exact toInt32_eq (by omega) (by omega)
  obtain ⟨sm, hpre, hsendLen, horig, hdata⟩ := smessage.preSend_some hbytes hcompress hlen
  rw [StreamingMessage.sendMessage, hpre, Outcome.ok_bind]
  simp only [load_image (hsendLen.trans hsend) horig hdata hlen, inBounds, Outcome.ok_bind]

/-- Sending a message that zlib cannot compress writes nothing and reports success. -/
lemma sendMessage_not_written {m : StreamBuffer} {bytes : List UInt8}
    (hbytes : source m = some bytes) (hnone : compressed z m = none)
    (write : List UInt8 → ErrorCode) :
    smessage.sendMessage z write m.buffer (toInt32 m.size) = .ok (.success, none) := by
  rw [compressed, hbytes, Option.bind_some] at hnone
  rw [StreamingMessage.sendMessage, smessage.preSend_none hbytes hnone, Outcome.ok_bind]

/-- A size that does not fit `int32_t` can make the sender read behind the message. -/
lemma sendMessage_outOfBounds {m : StreamBuffer} (hsource : source m = none)
    (write : List UInt8 → ErrorCode) :
    smessage.sendMessage z write m.buffer (toInt32 m.size) = .error .outOfBounds := by
  rw [StreamingMessage.sendMessage, smessage.preSend_outOfBounds hsource, Outcome.error_bind]

namespace TCPConnection

/-- Over an established, reliable connection a message goes out as its bytes on the wire. -/
lemma sendMessage_eq {m : StreamBuffer} (hz : z.Inverse) (hsource : (source m).isSome)
    {conn : TCPConnection} (hconn : conn.connectionEstablished = true) :
    conn.sendMessage z reliable smessage m =
      .ok (⟨true, 0, conn.sent ++ wireOf z m⟩, true) := by
  obtain ⟨bytes, hbytes⟩ := Option.isSome_iff_exists.mp hsource
  unfold TCPConnection.sendMessage wireOf
  cases hpayload : compressed z m with
  | none =>
    rw [sendMessage_not_written smessage hbytes hpayload]
    simp [hconn, maximumFailedMessages]
  | some payload =>
    rw [sendMessage_written smessage hz hpayload]
    simp [hconn, reliable, maximumFailedMessages]

/-- Over an established, reliable connection messages go out one after the other. -/
lemma sendMessages_eq {messages : List StreamBuffer} (conn : TCPConnection) (hz : z.Inverse)
    (hsource : ∀ m ∈ messages, (source m).isSome)
    (hconn : conn.connectionEstablished = true) :
    ∃ conn', sendMessages z reliable smessage conn messages = .ok conn' ∧
      conn'.sent = conn.sent ++ messages.flatMap (wireOf z) := by
  induction messages generalizing conn with
  | nil => exact ⟨conn, rfl, by simp⟩
  | cons m ms ih =>
    obtain ⟨hm, hms⟩ := List.forall_mem_cons.mp hsource
    obtain ⟨conn', hsend, hsent⟩ := ih ⟨true, 0, conn.sent ++ wireOf z m⟩ hms rfl
    refine ⟨conn', ?_, by simp [hsent]⟩
    rw [sendMessages, sendMessage_eq smessage hz hm hconn, Outcome.ok_bind]
    exact hsend

/-- If sending all messages succeeds, no message made the sender read behind its memory. -/
lemma source_isSome_of_sendMessages {messages : List StreamBuffer} (hz : z.Inverse)
    {conn conn' : TCPConnection} (hconn : conn.connectionEstablished = true)
    (hsend : sendMessages z reliable smessage conn messages = .ok conn') :
    ∀ m ∈ messages, (source m).isSome := by
  induction messages generalizing conn with
  | nil => simp
  | cons m ms ih =>
    rw [sendMessages] at hsend
    cases hsource : source m with
    | none =>
      simp only [TCPConnection.sendMessage, hconn, if_true, sendMessage_outOfBounds smessage hsource,
        Outcome.error_bind] at hsend
      exact nomatch hsend
    | some bytes =>
      have hm : (source m).isSome := by simp [hsource]
      rw [sendMessage_eq smessage hz hm hconn, Outcome.ok_bind] at hsend
      have hms : ∀ m' ∈ ms, (source m').isSome := ih rfl hsend
      exact List.forall_mem_cons.mpr ⟨hm, hms⟩

/-! ## What the receiver makes of it -/

variable (z) in
/-- Nothing is received from an empty stream. -/
lemma receiveMessage_nil : receiveMessage z smessage [] = .error .endOfStream := rfl

/-- A message whose compressed length and header exceed the maximum is refused. -/
lemma receiveMessage_wire_rejected {n : ℤ} {payload : List UInt8} (rest : List UInt8)
    (hlo : 5999992 < payload.length) (hhi : payload.length ≤ 6000000) :
    receiveMessage z smessage (wire n payload ++ rest) = .error .rejected := by
  rw [wire, List.append_assoc]
  refine receiveMessage_rejected z smessage (ByteMemory.length_encodeInt 4 _) ?_
  rw [decodeInt_encodeInt_four (by omega) (by omega)]
  unfold maxStreamingMessageLen
  omega

variable (z) in
/-- A message with a compressed length below the maximum reaches `postReceive`. -/
lemma receiveMessage_postReceive {n : ℤ} {payload : List UInt8} (rest : List UInt8)
    (hnlo : -2 ^ 31 ≤ n) (hnhi : n < 2 ^ 31) (hpayload : payload.length ≤ 5999992) :
    ∃ (sm : StreamingMessage) (behind : List UInt8), sm.sendLen = payload.length + 8 ∧
      sm.origLen = n ∧ sm.data = payload ++ behind ∧
      receiveMessage z smessage (wire n payload ++ rest) =
        (sm.postReceive z payload.length >>= fun cache =>
          if cache.length ≠ toSizeT sm.origLen then .error .rejected
          else .ok (cache, sm, rest)) := by
  have hlen : ByteMemory.decodeInt (ByteMemory.encodeInt 4 (payload.length + 8)) =
      payload.length + 8 := decodeInt_encodeInt_four (by omega) (by omega)
  have hn : ByteMemory.decodeInt (ByteMemory.encodeInt 4 n) = n :=
    decodeInt_encodeInt_four hnlo hnhi
  have hsize : toSizeT (toSizeT (payload.length + 8) - 8) = payload.length := by
    have hcast : (payload.length : ℤ) + 8 = ((payload.length + 8 : ℕ) : ℤ) := by norm_cast
    rw [hcast, toSizeT_eq (by omega)]
    have hsub : ((payload.length + 8 : ℕ) : ℤ) - 8 = (payload.length : ℤ) := by omega
    rw [hsub, toSizeT_eq (by omega)]
  have hread : toInt32 (payload.length : ℤ) = payload.length := toInt32_eq (by omega) (by omega)
  obtain ⟨sm, hsend, horig, hdata, hreceive⟩ := receiveMessage_eq z smessage rest
    (ByteMemory.length_encodeInt 4 (payload.length + 8)) (ByteMemory.length_encodeInt 4 n)
    (by rw [hlen]; unfold maxStreamingMessageLen; omega) (by rw [hlen, hsize])
    (by unfold maxStreamingMessageLen; omega)
  refine ⟨sm, _, hsend.trans hlen, horig.trans hn, hdata, ?_⟩
  rw [wire, List.append_assoc, List.append_assoc, hreceive, hread]

/-- A negative payload length ends the receiver. -/
lemma receiveMessage_lengthError {n : ℤ} {payload : List UInt8} (rest : List UInt8)
    (hnlo : -2 ^ 31 ≤ n) (hneg : n < 0) (hpayload : payload.length ≤ 5999992) :
    receiveMessage z smessage (wire n payload ++ rest) = .error .lengthError := by
  obtain ⟨sm, behind, -, horig, -, hreceive⟩ :=
    receiveMessage_postReceive z smessage rest hnlo (by omega) hpayload
  rw [hreceive, postReceive, horig, if_pos hneg, Outcome.error_bind]

/-- A message with a payload that zlib has compressed to at most `5999992` bytes is received. -/
lemma receiveMessage_wire {bytes payload : List UInt8} (rest : List UInt8) (hz : z.Inverse)
    (hcompress : z.compress2 maxStreamingMessageLen bytes 3 = some payload)
    (hbytes : bytes.length < 2 ^ 31) (hpayload : payload.length ≤ 5999992) :
    ∃ sm, receiveMessage z smessage (wire bytes.length payload ++ rest) =
      .ok (bytes, sm, rest) := by
  obtain ⟨sm, behind, hsend, horig, hdata, hreceive⟩ :=
    receiveMessage_postReceive z smessage (n := bytes.length) rest (by omega) (by omega) hpayload
  refine ⟨sm, ?_⟩
  have hneg : ¬ ((bytes.length : ℤ) < 0) := by omega
  have hread : ¬ ((payload.length : ℤ) ≠ toInt32 (toSizeT (sm.sendLen - 8))) := by
    have hsub : sm.sendLen - 8 = payload.length := by omega
    rw [hsub, toSizeT_eq (by omega), not_not]
    exact (toInt32_eq (by omega) (by omega)).symm
  have hbehind : payload.length + behind.length = 6000000 := by
    have hlength : sm.data.length = 6000000 := sm.length_data
    rwa [hdata, List.length_append] at hlength
  have hload : ByteMemory.load sm.data 0 (toSizeT sm.sendLen) =
      some (payload ++ behind.take 8) := by
    have hsize : toSizeT sm.sendLen = (payload ++ behind.take 8).length := by
      have hcast : sm.sendLen = ((payload.length + 8 : ℕ) : ℤ) := by rw [hsend]; norm_cast
      rw [hcast, toSizeT_eq (by omega), List.length_append, List.length_take]
      omega
    have hsplit : sm.data = [] ++ ((payload ++ behind.take 8) ++ behind.drop 8) := by
      rw [hdata, List.nil_append, List.append_assoc, List.take_append_drop]
    rw [hsplit]
    exact ByteMemory.load_append rfl hsize
  have huncompress := hz.uncompress_compress2 hcompress (behind.take 8)
  have hsize : ¬ (bytes.length ≠ toSizeT bytes.length) := by
    rw [toSizeT_eq (by omega)]
    simp
  simp only [hreceive, postReceive, horig, if_neg hneg, if_neg hread, hload, Int.toNat_natCast,
    huncompress, if_true, Outcome.ok_bind, if_neg hsize]

/-! ## Delivery -/

/-- The sender does not read behind the message, and if it writes the message, then its size fits
`int32_t` and the receiver accepts its compressed size. -/
structure Deliverable (z : Zlib) (m : StreamBuffer) : Prop where
  readable : (source m).isSome
  accepted : ∀ payload, compressed z m = some payload →
    m.size < 2 ^ 31 ∧ payload.length ≤ 5999992

/-- Of a message whose size fits `int32_t` all bytes are compressed. -/
lemma source_eq {m : StreamBuffer} (h : m.size < 2 ^ 31) : source m = some m.bytes := by
  have hbuffer : m.buffer = [] ++ (m.bytes ++ m.buffer.drop m.size) := by
    rw [StreamBuffer.bytes, List.nil_append, List.take_append_drop]
  rw [source, toInt32_eq (by omega) (by omega), toSizeT_eq (by omega), hbuffer]
  exact ByteMemory.load_append rfl (StreamBuffer.length_bytes m).symm

/-- The bytes that are compressed have the length that is sent along, unless it is negative. -/
lemma length_source {m : StreamBuffer} {bytes : List UInt8} (h : source m = some bytes)
    (hnonneg : 0 ≤ toInt32 m.size) : toInt32 m.size = bytes.length := by
  have hlen := ByteMemory.length_of_load h
  have hrange := toInt32_mem m.size
  have hsize : toSizeT (toInt32 m.size) = (toInt32 m.size).toNat := by
    conv_lhs => rw [← Int.toNat_of_nonneg hnonneg]
    exact toSizeT_eq (by omega)
  omega

/-- Deliverable messages are received as the messages that were written, whatever the receiver's
message object held before. -/
lemma receiverHandler_deliverable (messages : List StreamBuffer) (rest : List UInt8)
    (hz : z.Inverse) (h : ∀ m ∈ messages, Deliverable z m) :
    ∃ smessage', (receiverHandler z smessage (messages.flatMap (wireOf z) ++ rest)).1.map
        StreamBuffer.bytes =
      (written z messages).map StreamBuffer.bytes ++
        (receiverHandler z smessage' rest).1.map StreamBuffer.bytes := by
  induction messages generalizing smessage with
  | nil => exact ⟨smessage, rfl⟩
  | cons m ms ih =>
    obtain ⟨hm, hms⟩ := List.forall_mem_cons.mp h
    cases hpayload : compressed z m with
    | none =>
      obtain ⟨smessage', hih⟩ := ih smessage hms
      exact ⟨smessage', by simpa [wireOf, written, hpayload] using hih⟩
    | some payload =>
      obtain ⟨hsize, hlen⟩ := hm.accepted payload hpayload
      have hcompress : z.compress2 maxStreamingMessageLen m.bytes 3 = some payload := by
        rwa [compressed, source_eq hsize, Option.bind_some] at hpayload
      have hn : toInt32 m.size = m.bytes.length := by
        rw [StreamBuffer.length_bytes, toInt32_eq (by omega) (by omega)]
      obtain ⟨sm, hreceive⟩ := receiveMessage_wire smessage
        (ms.flatMap (wireOf z) ++ rest) hz hcompress (by simpa using hsize) hlen
      obtain ⟨smessage', hih⟩ := ih sm hms
      refine ⟨smessage', ?_⟩
      rw [List.flatMap_cons, List.append_assoc, wireOf, hpayload, Option.elim_some, hn,
        receiverHandler_ok hreceive]
      simp [written, hpayload, hih]

/-- Of a message that is not deliverable although it is written, the receiver hands over nothing,
or bytes of another size. -/
lemma receiverHandler_not_deliverable {m : StreamBuffer} {payload : List UInt8}
    (rest : List UInt8) (hz : z.Inverse) (hpayload : compressed z m = some payload)
    (hbad : 2 ^ 31 ≤ m.size ∨ 5999992 < payload.length) :
    (receiverHandler z smessage (wireOf z m ++ rest)).1 = [] ∨
      ∃ bytes tail, bytes.length ≠ m.size ∧
        (receiverHandler z smessage (wireOf z m ++ rest)).1 =
          StreamBuffer.ofBytes bytes :: tail := by
  obtain ⟨bytes, hbytes, hcompress⟩ := Option.bind_eq_some_iff.mp hpayload
  have hmax : payload.length ≤ 6000000 := hz.length_le hcompress
  obtain ⟨hlo, hhi⟩ := toInt32_mem m.size
  rw [wireOf, hpayload, Option.elim_some]
  rcases Nat.lt_or_ge 5999992 payload.length with hlong | hshort
  · exact .inl (receiverHandler_error (receiveMessage_wire_rejected smessage rest hlong hmax))
  rcases lt_or_ge (toInt32 m.size) 0 with hneg | hnonneg
  · exact .inl (receiverHandler_error (receiveMessage_lengthError smessage rest hlo hneg hshort))
  · have hn := length_source hbytes hnonneg
    obtain ⟨sm, hreceive⟩ := receiveMessage_wire smessage rest hz hcompress
      (by omega) hshort
    rw [hn]
    exact .inr ⟨bytes, _, by omega, receiverHandler_ok hreceive⟩

/-- **The messages delivered are the messages written exactly if all of them are deliverable.**
Let messages be sent one after the other over an established, reliable connection.  The sender
gets through all of them, and the buffers handed to the receiver's callbacks have the contents of
the messages whose bytes were written, in order, if and only if for every message the sender reads
only the message's memory, and every message that is written is smaller than `2 ^ 31` bytes and
compresses to at most `5999992`. -/
theorem messages_delivered_iff (z : Zlib) (hz : z.Inverse) (sender receiver : StreamingMessage)
    (messages : List StreamBuffer) :
    (∃ conn, sendMessages z reliable sender established messages = .ok conn ∧
      (receiverHandler z receiver conn.sent).1.map StreamBuffer.bytes =
        (written z messages).map StreamBuffer.bytes) ↔
      ∀ m ∈ messages, Deliverable z m := by
  constructor
  · rintro ⟨conn, hsend, hreceived⟩
    have hsource := source_isSome_of_sendMessages sender hz rfl hsend
    obtain ⟨conn', hsend', hsent⟩ := sendMessages_eq sender established hz hsource rfl
    obtain rfl : conn' = conn := Except.ok.inj (hsend'.symm.trans hsend)
    rw [hsent, established, List.nil_append] at hreceived
    clear hsend hsend' hsent
    induction messages generalizing receiver with
    | nil => simp
    | cons m ms ih =>
      obtain ⟨hm, hms⟩ := List.forall_mem_cons.mp hsource
      have hdeliverable : Deliverable z m := by
        refine ⟨hm, fun payload hpayload => ?_⟩
        by_contra hbad
        have hbad' : 2 ^ 31 ≤ m.size ∨ 5999992 < payload.length := by omega
        rw [List.flatMap_cons] at hreceived
        rcases receiverHandler_not_deliverable receiver
          (ms.flatMap (wireOf z)) hz hpayload hbad' with hnil | ⟨bytes, tail, hne, hcons⟩
        · rw [hnil] at hreceived
          simp [written, hpayload] at hreceived
        · rw [hcons] at hreceived
          simp only [written, hpayload, List.filter_cons, Option.isSome_some, if_true,
            List.map_cons, List.cons.injEq, StreamBuffer.bytes_ofBytes] at hreceived
          exact hne (by rw [hreceived.1, StreamBuffer.length_bytes])
      obtain ⟨receiver', hone⟩ := receiverHandler_deliverable receiver [m]
        (ms.flatMap (wireOf z)) hz (by simpa using hdeliverable)
      have hsplit : written z (m :: ms) = written z [m] ++ written z ms := by
        simp only [written, ← List.filter_append, List.singleton_append]
      rw [List.flatMap_singleton] at hone
      rw [List.flatMap_cons, hone, hsplit, List.map_append] at hreceived
      exact List.forall_mem_cons.mpr
        ⟨hdeliverable, ih receiver' hms (List.append_cancel_left hreceived)⟩
  · intro h
    obtain ⟨conn, hsend, hsent⟩ := sendMessages_eq sender established hz
      (fun m hm => (h m hm).readable) rfl
    refine ⟨conn, hsend, ?_⟩
    obtain ⟨receiver', hreceived⟩ := receiverHandler_deliverable receiver messages [] hz h
    rw [hsent, established, List.nil_append, ← List.append_nil (messages.flatMap _), hreceived,
      receiverHandler_error (receiveMessage_nil z receiver'), List.map_nil, List.append_nil]

/-! ## A zlib that stores -/

/-- zlib on bytes that it cannot make shorter. -/
def storedZlib : Zlib where
  compress2 destLen bytes _ :=
    if (StoredZlib.compress bytes).length ≤ destLen then some (StoredZlib.compress bytes) else none
  uncompress := StoredZlib.uncompress

/-- Storing can be undone. -/
lemma storedZlib_inverse : storedZlib.Inverse := by
  constructor
  · intro destLen bytes level c hc
    obtain ⟨hlen, rfl⟩ := by simpa [storedZlib] using hc
    exact hlen
  · intro destLen bytes level c hc behind
    obtain ⟨-, rfl⟩ := by simpa [storedZlib] using hc
    exact StoredZlib.uncompress_compress bytes behind

/-- What stored bytes are compressed to. -/
lemma compressed_storedZlib {bytes : List UInt8} (hbytes : bytes.length < 2 ^ 31)
    (hfit : (StoredZlib.compress bytes).length ≤ maxStreamingMessageLen) :
    compressed storedZlib (StreamBuffer.ofBytes bytes) = some (StoredZlib.compress bytes) := by
  rw [compressed, source_eq (by simpa using hbytes), StreamBuffer.bytes_ofBytes, Option.bind_some]
  exact if_pos hfit

/-- A message object whose array holds zeros. -/
def zeroed : StreamingMessage := ⟨0, 0, List.replicate maxStreamingMessageLen 0, by simp⟩

/-- Bytes `144` to `199`: too few to save anything on, so zlib stores them. -/
def shortMessage : StreamBuffer :=
  StreamBuffer.ofBytes ((List.range 56).map fun i => UInt8.ofNat (144 + i))

/-- A short message arrives. -/
theorem messages_delivered_short :
    ∃ conn, sendMessages storedZlib reliable zeroed established [shortMessage] = .ok conn ∧
      (receiverHandler storedZlib zeroed conn.sent).1.map StreamBuffer.bytes =
        (written storedZlib [shortMessage]).map StreamBuffer.bytes := by
  refine (messages_delivered_iff storedZlib storedZlib_inverse zeroed zeroed [shortMessage]).2 ?_
  have hlen : shortMessage.size < 2 ^ 31 := by decide
  intro m hm
  obtain rfl := List.mem_singleton.mp hm
  refine ⟨by simp [source_eq hlen], fun payload hpayload => ⟨hlen, ?_⟩⟩
  rw [compressed, source_eq hlen, Option.bind_some] at hpayload
  obtain ⟨-, rfl⟩ := by simpa [storedZlib] using hpayload
  rw [StoredZlib.length_compress, StreamBuffer.length_bytes]
  decide

/-- `n` bytes in which no three bytes repeat within the reach of zlib, so zlib stores them. -/
@[irreducible] def incompressible (n : ℕ) : List UInt8 :=
  (List.range n).map fun i => UInt8.ofNat ((2 * (i / 256) + 1) * i)

/-- The number of these bytes. -/
lemma length_incompressible (n : ℕ) : (incompressible n).length = n := by
  rw [incompressible, List.length_map, List.length_range]

/-- A message of `5998155` bytes, which zlib compresses to `5999996`. -/
def longMessage : StreamBuffer := StreamBuffer.ofBytes (incompressible 5998155)

/-- The long message is written, and the receiver refuses it. -/
theorem message_refused :
    written storedZlib [longMessage] = [longMessage] ∧
      ∃ conn, sendMessages storedZlib reliable zeroed established [longMessage] = .ok conn ∧
        (receiverHandler storedZlib zeroed conn.sent).1.map StreamBuffer.bytes ≠
          (written storedZlib [longMessage]).map StreamBuffer.bytes := by
  have hsize : longMessage.size < 2 ^ 31 := by
    rw [longMessage, StreamBuffer.size_ofBytes, length_incompressible]
    omega
  have hcompress : (StoredZlib.compress (incompressible 5998155)).length = 5999996 := by
    rw [StoredZlib.length_compress, length_incompressible]
  have hpayload : compressed storedZlib longMessage = some (StoredZlib.compress (incompressible 5998155)) :=
    compressed_storedZlib (by rw [length_incompressible]; omega) (by rw [hcompress]; decide)
  have hwritten : written storedZlib [longMessage] = [longMessage] := by
    simp [written, hpayload]
  have hsource : ∀ m ∈ [longMessage], (source m).isSome := by simp [source_eq hsize]
  obtain ⟨conn, hsend, hsent⟩ := sendMessages_eq zeroed established
    storedZlib_inverse hsource rfl
  refine ⟨hwritten, conn, hsend, ?_⟩
  rw [hwritten, hsent, established, List.nil_append, List.flatMap_singleton, wireOf, hpayload,
    Option.elim_some, ← List.append_nil (wire _ _),
    receiverHandler_error (receiveMessage_wire_rejected zeroed [] (by omega) (by omega))]
  simp

end TCPConnection

end NaoSoccer
