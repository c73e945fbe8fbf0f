import NaoSoccer.Communications.StreamingMessage

/-!
# TCP connections

`send_message` sends a buffer as a streaming message over an established connection, and
`receiver_handler` reads messages from the stream and hands them to the callbacks until the stream
ends or a message is refused.

The socket is a function that says how a write ends and how many bytes it took; the stream between
two connections is the list of bytes that the sender's socket took.
-/

namespace NaoSoccer

open StreamingMessage

/-! ## Sending -/

/-- The sending side of a connection. -/
structure TCPConnection where
  /-- `connection_established_`. -/
  connectionEstablished : Bool
  /-- `failed_messages_`. -/
  failedMessages : ℤ
  /-- The bytes that the socket has taken so far. -/
  sent : List UInt8

namespace TCPConnection

/-- A connection over which nothing has been sent. -/
def established : TCPConnection := ⟨true, 0, []⟩

/-- `MaximumFailedMessages`. -/
def maximumFailedMessages : ℤ := 10

/-- A socket that takes every byte, as on a reliable stream. -/
def reliable (bytes : List UInt8) : ErrorCode × ℕ := (.success, bytes.length)

/-- `send_message`: a buffer is sent and failed attempts are counted.  A broken pipe or too many
failures end the connection.  `smessage` is the message object before it is filled. -/
def sendMessage (z : Zlib) (write : List UInt8 → ErrorCode × ℕ) (smessage : StreamingMessage)
    (conn : TCPConnection) (buffer : StreamBuffer) : Except Fault (TCPConnection × Bool) :=
  if conn.connectionEstablished then do
    let (result, written) ← smessage.sendMessage z (fun bytes => (write bytes).1) buffer.buffer
      (toInt32 buffer.size)
    let taken := written.elim [] fun bytes => bytes.take (write bytes).2
    let success := decide (result = .success)
    let failedMessages := if success then 0 else conn.failedMessages + 1
    if result = .brokenPipe ∨ failedMessages > maximumFailedMessages then
      .ok (⟨false, 0, conn.sent ++ taken⟩, false)
    else .ok (⟨true, failedMessages, conn.sent ++ taken⟩, success)
  else .ok (conn, false)

/-- Buffers are sent one after the other. -/
def sendMessages (z : Zlib) (write : List UInt8 → ErrorCode × ℕ) (smessage : StreamingMessage) :
    TCPConnection → List StreamBuffer → Except Fault TCPConnection
  | conn, [] => .ok conn
  | conn, buffer :: buffers => do
    let (conn, _) ← conn.sendMessage z write smessage buffer
    sendMessages z write smessage conn buffers

/-! ## Receiving -/

/-- The next `n` bytes of the stream and the rest of it. -/
def readStream (stream : List UInt8) (n : ℕ) : Except Stop (List UInt8 × List UInt8) :=
  if n ≤ stream.length then .ok (stream.take n, stream.drop n) else .error .endOfStream

/-- One round of the receiver: a message is read from the stream.  The results are the payload, the
message object and the rest of the stream. -/
def receiveMessage (z : Zlib) (smessage : StreamingMessage) (stream : List UInt8) :
    Except Stop (List UInt8 × StreamingMessage × List UInt8) := do
  let (lengthBytes, stream) ← readStream stream 4
  let compressedLen := ByteMemory.decodeInt lengthBytes
  if compressedLen > maxStreamingMessageLen then .error .rejected
  else
    let (lengthBytes, stream) ← readStream stream 4
    let messageLen := ByteMemory.decodeInt lengthBytes
    -- The signed length is converted before the header is subtracted.
    let payloadLen := toSizeT (toSizeT compressedLen - 8)
    -- What arrives is stored in `data_`, also if the stream ends before the payload.
    if min payloadLen stream.length > maxStreamingMessageLen then .error .outOfBounds
    else
      let (payload, stream) ← readStream stream payloadLen
      match smessage.setData payload with
      | none => .error .outOfBounds
      | some smessage =>
        let smessage := { smessage with sendLen := compressedLen, origLen := messageLen }
        let cache ← smessage.postReceive z (toInt32 payloadLen)
        if cache.length ≠ toSizeT messageLen then .error .rejected
        else .ok (cache, smessage, stream)

/-- What is left of the stream after some bytes have been read. -/
lemma length_of_readStream {stream bs rest : List UInt8} {n : ℕ}
    (h : readStream stream n = .ok (bs, rest)) : rest.length + n = stream.length := by
  unfold readStream at h
  split at h
  · obtain ⟨-, rfl⟩ := Prod.mk.inj (Except.ok.inj h)
    rw [List.length_drop]
    omega
  · exact nomatch h

/-- A round of the receiver that succeeds has used up a part of the stream. -/
lemma length_of_receiveMessage {z : Zlib} {smessage smessage' : StreamingMessage}
    {stream cache rest : List UInt8}
    (h : receiveMessage z smessage stream = .ok (cache, smessage', rest)) :
    rest.length < stream.length := by
  simp only [receiveMessage, Outcome.bind_eq_ok_iff, Outcome.ite_error_eq_ok_iff] at h
  obtain ⟨⟨bs₁, stream₁⟩, h₁, -, ⟨bs₂, stream₂⟩, h₂, -, ⟨payload, stream₃⟩, h₃, h⟩ := h
  dsimp only at h₂ h₃
  have hlen₁ := length_of_readStream h₁
  have hlen₂ := length_of_readStream h₂
  have hlen₃ := length_of_readStream h₃
  split at h
  · exact absurd h (by simp)
  · simp only [Outcome.bind_eq_ok_iff, Outcome.ite_error_eq_ok_iff, Except.ok.injEq,
      Prod.mk.injEq] at h
    obtain ⟨cache', -, -, -, -, rfl⟩ := h
    omega

/-- The next bytes of the stream are read off its front. -/
lemma readStream_append {bs rest : List UInt8} {n : ℕ} (h : n = bs.length) :
    readStream (bs ++ rest) n = .ok (bs, rest) := by
  subst h
  simp [readStream]

variable (z : Zlib) (smessage : StreamingMessage)

/-- A message whose length exceeds the maximum is refused. -/
lemma receiveMessage_rejected {lengthBytes rest : List UInt8} (h₁ : lengthBytes.length = 4)
    (hgt : ByteMemory.decodeInt lengthBytes > maxStreamingMessageLen) :
    receiveMessage z smessage (lengthBytes ++ rest) = .error .rejected := by
  rw [receiveMessage, readStream_append h₁.symm, Outcome.ok_bind]
  exact if_pos hgt

/-- A message whose length does not exceed the maximum, and whose payload is there and fits
`data_`, is handed to `postReceive`. -/
lemma receiveMessage_eq {bs₁ bs₂ payload : List UInt8} (rest : List UInt8) (h₁ : bs₁.length = 4)
    (h₂ : bs₂.length = 4) (hle : ¬ ByteMemory.decodeInt bs₁ > maxStreamingMessageLen)
    (hpayload : toSizeT (toSizeT (ByteMemory.decodeInt bs₁) - 8) = payload.length)
    (hfit : payload.length ≤ maxStreamingMessageLen) :
    ∃ sm : StreamingMessage, sm.sendLen = ByteMemory.decodeInt bs₁ ∧
      sm.origLen = ByteMemory.decodeInt bs₂ ∧
      sm.data = payload ++ smessage.data.drop payload.length ∧
      receiveMessage z smessage (bs₁ ++ (bs₂ ++ (payload ++ rest))) =
        (sm.postReceive z (toInt32 payload.length) >>= fun cache =>
          if cache.length ≠ toSizeT sm.origLen then .error .rejected
          else .ok (cache, sm, rest)) := by
  obtain ⟨sm, hset, hdata⟩ := smessage.setData_eq hfit
  refine ⟨⟨ByteMemory.decodeInt bs₁, ByteMemory.decodeInt bs₂, sm.data, sm.length_data⟩, rfl, rfl,
    hdata, ?_⟩
  rw [receiveMessage, readStream_append h₁.symm, Outcome.ok_bind]
  simp only [if_neg hle]
  rw [readStream_append h₂.symm, Outcome.ok_bind]
  have hstored : ¬ min payload.length (payload ++ rest).length > maxStreamingMessageLen := by omega
  simp only [hpayload, if_neg hstored]
  rw [readStream_append rfl, Outcome.ok_bind]
  simp only [hset]

variable {z smessage}

/-- `receiver_handler`: messages are read and handed to the callbacks until one of them ends the
receiver. -/
def receiverHandler (z : Zlib) (smessage : StreamingMessage) (stream : List UInt8) :
    List StreamBuffer × Stop :=
  match _h : receiveMessage z smessage stream with
  | .error stop => ([], stop)
  | .ok (cache, smessage, rest) =>
    let received := receiverHandler z smessage rest
    (StreamBuffer.ofBytes cache :: received.1, received.2)
termination_by stream.length
decreasing_by exact length_of_receiveMessage _h

/-- The receiver hands over a message that it receives and goes on. -/
lemma receiverHandler_ok {smessage' : StreamingMessage} {stream cache rest : List UInt8}
    (h : receiveMessage z smessage stream = .ok (cache, smessage', rest)) :
    (receiverHandler z smessage stream).1 =
      StreamBuffer.ofBytes cache :: (receiverHandler z smessage' rest).1 := by
  rw [receiverHandler]
  split
  · rename_i stop herror
    rw [h] at herror
    exact nomatch herror
  · rename_i cache' sm' rest' hok
    rw [h] at hok
    obtain ⟨rfl, rfl, rfl⟩ := by simpa using hok
    rfl

/-- The receiver hands over nothing once a message has ended it. -/
lemma receiverHandler_error {stream : List UInt8} {stop : Stop}
    (h : receiveMessage z smessage stream = .error stop) :
    (receiverHandler z smessage stream).1 = [] := by
  rw [receiverHandler]
  split
  · rfl
  · rename_i cache' sm' rest' hok
    rw [h] at hok
    exact nomatch hok

end TCPConnection

end NaoSoccer
