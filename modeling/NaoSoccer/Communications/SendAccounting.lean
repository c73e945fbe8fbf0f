import NaoSoccer.Communications.MessageDelivery
import NaoSoccer.Foundation.LabelledRun

/-!
# Counting failed messages

The outcome of sending a message goes through three layers.  `StreamingMessage::sendMessage` turns a
failed compression into success and a `system_error` into its code; any other exception goes on to
`send_message`, which catches it.  `send_message` counts the failures in `failed_messages_` and
closes the connection when there are too many.

The history of a connection lists its attempts and the times when it ended.  The counter is to be
the number of attempts that failed since the last success or end.
-/

namespace NaoSoccer

open StreamingMessage

/-- How a write to the socket ends. -/
inductive WriteOutcome
  /-- It returns with an error code. -/
  | code (ec : ErrorCode)
  /-- It throws a `system_error` with an error code. -/
  | systemError (ec : ErrorCode)
  /-- It throws anything else. -/
  | exception
  deriving DecidableEq

/-- The error code that `sendMessage` returns; for other exceptions it does not return. -/
def WriteOutcome.errorCode : WriteOutcome → ErrorCode
  | code ec => ec
  | systemError ec => ec
  | exception => .other

/-- A socket: how it answers a write, and how many bytes it takes. -/
structure SocketWrite where
  outcome : List UInt8 → WriteOutcome
  taken : List UInt8 → ℕ
  /-- A write that succeeds has taken all bytes. -/
  taken_of_success : ∀ bytes, outcome bytes = .code .success → bytes.length ≤ taken bytes
  /-- Success is not thrown. -/
  ne_success : ∀ bytes, outcome bytes ≠ .systemError .success

namespace TCPConnection

variable (z : Zlib) (smessage : StreamingMessage)

/-- `send_message` with everything that a write can throw. -/
def sendMessageThrowing (write : SocketWrite) (conn : TCPConnection) (buffer : StreamBuffer) :
    Except Fault (TCPConnection × Bool) :=
  if conn.connectionEstablished then do
    let (result, written) ← smessage.sendMessage z (fun bytes => (write.outcome bytes).errorCode)
      buffer.buffer (toInt32 buffer.size)
    let taken := written.elim [] fun bytes => bytes.take (write.taken bytes)
    -- `catch (...)`: the connection ends, and the counter stays.
    if written.any fun bytes => write.outcome bytes = .exception then
      .ok (⟨false, conn.failedMessages, conn.sent ++ taken⟩, false)
    else
      let success := decide (result = .success)
      let failedMessages := if success then 0 else conn.failedMessages + 1
      if result = .brokenPipe ∨ failedMessages > maximumFailedMessages then
        .ok (⟨false, 0, conn.sent ++ taken⟩, false)
      else .ok (⟨true, failedMessages, conn.sent ++ taken⟩, success)
  else .ok (conn, false)

/-- Over a socket that throws only `system_error`s this is `sendMessage`. -/
theorem sendMessageThrowing_eq (write : SocketWrite)
    (h : ∀ bytes, write.outcome bytes ≠ .exception) (conn : TCPConnection)
    (buffer : StreamBuffer) :
    sendMessageThrowing z smessage write conn buffer =
      conn.sendMessage z (fun bytes => ((write.outcome bytes).errorCode, write.taken bytes))
        smessage buffer := by
  unfold sendMessageThrowing TCPConnection.sendMessage
  have hnone : ∀ written : Option (List UInt8),
      written.any (fun bytes => write.outcome bytes = .exception) = false := by
    intro written
    cases written with
    | none => rfl
    | some bytes => exact decide_eq_false (h bytes)
  simp only [hnone, Bool.false_eq_true, if_false]

/-! ## The outcomes of a call -/

section Outcomes

variable {z} {write : SocketWrite} {conn : TCPConnection} {buffer : StreamBuffer}

/-- Without a connection nothing is sent. -/
lemma sendMessageThrowing_closed (hconn : conn.connectionEstablished = false) :
    sendMessageThrowing z smessage write conn buffer = .ok (conn, false) := by
  simp [sendMessageThrowing, hconn]

/-- A buffer that does not fit its size makes the call leave the memory. -/
lemma sendMessageThrowing_outOfBounds (hconn : conn.connectionEstablished = true)
    (hsource : source buffer = none) :
    sendMessageThrowing z smessage write conn buffer = .error .outOfBounds := by
  simp only [sendMessageThrowing, hconn, if_true, sendMessage_outOfBounds smessage hsource,
    Outcome.error_bind]

/-- A buffer that zlib cannot compress is not sent, and the call says that it was. -/
lemma sendMessageThrowing_none (hconn : conn.connectionEstablished = true) {bytes : List UInt8}
    (hsource : source buffer = some bytes) (hnone : compressed z buffer = none) :
    sendMessageThrowing z smessage write conn buffer = .ok (⟨true, 0, conn.sent⟩, true) := by
  simp [sendMessageThrowing, hconn, sendMessage_not_written smessage hsource hnone,
    maximumFailedMessages]

variable {payload : List UInt8} (hz : z.Inverse) (hconn : conn.connectionEstablished = true)
  (hpayload : compressed z buffer = some payload)
include hz hconn hpayload

/-- An exception other than a `system_error` ends the connection, and the counter stays. -/
lemma sendMessageThrowing_exception
    (houtcome : write.outcome (wire (toInt32 buffer.size) payload) = .exception) :
    ∃ sent, sendMessageThrowing z smessage write conn buffer =
      .ok (⟨false, conn.failedMessages, sent⟩, false) := by
  simp [sendMessageThrowing, hconn, sendMessage_written smessage hz hpayload, houtcome]

/-- A write that succeeds has written the message, and the counter starts again. -/
lemma sendMessageThrowing_success
    (houtcome : write.outcome (wire (toInt32 buffer.size) payload) = .code .success) :
    sendMessageThrowing z smessage write conn buffer =
      .ok (⟨true, 0, conn.sent ++ wire (toInt32 buffer.size) payload⟩, true) := by
  have htake := List.take_of_length_le (write.taken_of_success _ houtcome)
  simp [sendMessageThrowing, hconn, sendMessage_written smessage hz hpayload, houtcome, htake,
    WriteOutcome.errorCode, maximumFailedMessages]

/-- A write that fails is counted, unless it ends the connection. -/
lemma sendMessageThrowing_failure
    (hexception : write.outcome (wire (toInt32 buffer.size) payload) ≠ .exception)
    (hsuccess : write.outcome (wire (toInt32 buffer.size) payload) ≠ .code .success) :
    ∃ sent, sendMessageThrowing z smessage write conn buffer =
        .ok (⟨false, 0, sent⟩, false) ∨
      sendMessageThrowing z smessage write conn buffer =
        .ok (⟨true, conn.failedMessages + 1, sent⟩, false) := by
  have hcode : (write.outcome (wire (toInt32 buffer.size) payload)).errorCode ≠ .success := by
    have hthrown := write.ne_success (wire (toInt32 buffer.size) payload)
    cases houtcome : write.outcome (wire (toInt32 buffer.size) payload) with
    | code ec => rw [houtcome] at hsuccess; exact fun heq => hsuccess (congrArg _ heq)
    | systemError ec => rw [houtcome] at hthrown; exact fun heq => hthrown (congrArg _ heq)
    | exception => exact absurd houtcome hexception
  simp only [sendMessageThrowing, hconn, if_true, sendMessage_written smessage hz hpayload,
    Outcome.ok_bind, Option.any_some, hexception, decide_false, Bool.false_eq_true, if_false, hcode]
  split
  · exact ⟨_, Or.inl rfl⟩
  · exact ⟨_, Or.inr rfl⟩

end Outcomes

end TCPConnection

/-! ## Histories -/

/-- What has happened to a connection. -/
inductive ConnectionMark
  /-- A message was to be sent over the connection: it was written and the call said so, or not. -/
  | attempt (succeeded : Bool)
  /-- The connection has ended. -/
  | ended
  deriving DecidableEq

/-- The attempts that have failed since the last success or end; the last mark comes first. -/
def failuresSince : List ConnectionMark → ℕ
  | .attempt false :: marks => failuresSince marks + 1
  | _ => 0

/-- A connection with its history. -/
structure ConnectionHistory where
  conn : TCPConnection
  marks : List ConnectionMark
  /-- No call has returned true unless it had written its message, and none has left its memory. -/
  truthful : Bool

/-- What can happen to a connection. -/
inductive ConnectionEvent
  /-- `send_message` is called. -/
  | send (buffer : StreamBuffer) (write : SocketWrite)
  /-- The receiver or the client ends the connection. -/
  | ended
  /-- The connection is established. -/
  | established

namespace ConnectionHistory

/-- A connection that has not been established. -/
def initial : ConnectionHistory := ⟨⟨false, 0, []⟩, [], true⟩

/-- The complete message has been written to the socket. -/
def hasWritten (z : Zlib) (buffer : StreamBuffer) (conn conn' : TCPConnection) : Bool :=
  (compressed z buffer).any fun payload =>
    conn'.sent = conn.sent ++ wire (toInt32 buffer.size) payload

/-- A message that zlib cannot compress is not written. -/
lemma hasWritten_none {z : Zlib} {buffer : StreamBuffer} (h : compressed z buffer = none)
    (conn conn' : TCPConnection) : hasWritten z buffer conn conn' = false := by
  rw [hasWritten, h, Option.any_none]

/-- What is written of a message. -/
lemma hasWritten_some {z : Zlib} {buffer : StreamBuffer} {payload : List UInt8}
    (h : compressed z buffer = some payload) (conn : TCPConnection) (established : Bool)
    (failedMessages : ℤ) : hasWritten z buffer conn ⟨established, failedMessages,
      conn.sent ++ wire (toInt32 buffer.size) payload⟩ = true := by
  rw [hasWritten, h, Option.any_some]
  exact decide_eq_true rfl

/-- The step of a connection with its history. -/
def step (z : Zlib) (smessage : StreamingMessage) :
    ConnectionEvent → ConnectionHistory → ConnectionHistory
  | .send buffer write, s =>
    match s.conn.sendMessageThrowing z smessage write buffer with
    | .error _ => { s with truthful := false }
    | .ok (conn, answer) =>
      { conn := conn
        marks :=
          (if s.conn.connectionEstablished ∧ ¬ conn.connectionEstablished then [.ended] else []) ++
            (if s.conn.connectionEstablished then
              [.attempt (answer && hasWritten z buffer s.conn conn)] else []) ++ s.marks
        truthful := s.truthful && (!answer || hasWritten z buffer s.conn conn) }
  | .ended, s =>
    { s with
      conn := { s.conn with connectionEstablished := false }
      marks := (if s.conn.connectionEstablished then [.ended] else []) ++ s.marks }
  | .established, s => { s with conn := { s.conn with connectionEstablished := true } }

/-- The answers were true, and the counter counts the failures. -/
def Accounted (s : ConnectionHistory) : Prop :=
  s.truthful = true ∧ s.conn.failedMessages = failuresSince s.marks

/-- What an event must not do: compression must not fail, and the connection must not end, by an
exception or from elsewhere, while failures are counted. -/
def Admissible (z : Zlib) : ConnectionEvent → ConnectionHistory → Prop
  | .send buffer write, s => s.conn.connectionEstablished = true →
    ∃ payload, compressed z buffer = some payload ∧
      (write.outcome (wire (toInt32 buffer.size) payload) = .exception →
        s.conn.failedMessages = 0)
  | .ended, s => s.conn.connectionEstablished = true → s.conn.failedMessages = 0
  | .established, _ => True

/-! ## Steps -/

/-- An end starts the count again. -/
@[simp] lemma failuresSince_ended (marks : List ConnectionMark) :
    failuresSince (.ended :: marks) = 0 := rfl

/-- A success starts the count again. -/
@[simp] lemma failuresSince_success (marks : List ConnectionMark) :
    failuresSince (.attempt true :: marks) = 0 := rfl

/-- A failure is counted. -/
@[simp] lemma failuresSince_failure (marks : List ConnectionMark) :
    failuresSince (.attempt false :: marks) = failuresSince marks + 1 := rfl

/-- A call keeps the account exactly if it is admissible. -/
lemma accounted_send_iff {z : Zlib} (hz : z.Inverse) (smessage : StreamingMessage)
    (buffer : StreamBuffer) (write : SocketWrite) {s : ConnectionHistory} (h : s.Accounted) :
    (step z smessage (.send buffer write) s).Accounted ↔ Admissible z (.send buffer write) s := by
  obtain ⟨htruthful, hcount⟩ := h
  cases hconn : s.conn.connectionEstablished with
  | false =>
    refine iff_of_true ?_ fun hopen => absurd (hconn.symm.trans hopen) Bool.false_ne_true
    simp [step, TCPConnection.sendMessageThrowing_closed smessage hconn, Accounted, hconn,
      htruthful, hcount]
  | true =>
    cases hpayload : compressed z buffer with
    | none =>
      refine iff_of_false ?_ fun hadmissible => ?_
      · cases hsource : source buffer with
        | none =>
          have hfault : TCPConnection.sendMessageThrowing z smessage write s.conn buffer = _ :=
            TCPConnection.sendMessageThrowing_outOfBounds smessage hconn hsource
          simp [step, hfault, Accounted]
        | some bytes =>
          have hanswer : TCPConnection.sendMessageThrowing z smessage write s.conn buffer = _ :=
            TCPConnection.sendMessageThrowing_none smessage hconn hsource hpayload
          simp [step, hanswer, Accounted, hasWritten_none hpayload]
      · obtain ⟨payload, hsome, -⟩ := hadmissible hconn
        exact nomatch hpayload.symm.trans hsome
    | some payload =>
      have hadmissible : Admissible z (.send buffer write) s ↔
          (write.outcome (wire (toInt32 buffer.size) payload) = .exception →
            s.conn.failedMessages = 0) := by
        simp [Admissible, hconn, hpayload]
      rw [hadmissible]
      by_cases hexception : write.outcome (wire (toInt32 buffer.size) payload) = .exception
      · obtain ⟨sent, hsend⟩ :=
          TCPConnection.sendMessageThrowing_exception smessage hz hconn hpayload hexception
        simp [step, hsend, Accounted, hconn, htruthful, hexception]
      · refine iff_of_true ?_ fun heq => absurd heq hexception
        by_cases hsuccess : write.outcome (wire (toInt32 buffer.size) payload) = .code .success
        · have hsend := TCPConnection.sendMessageThrowing_success smessage hz hconn hpayload hsuccess
          simp [step, hsend, Accounted, hconn, htruthful, hasWritten_some hpayload]
        · obtain ⟨sent, hsend | hsend⟩ := TCPConnection.sendMessageThrowing_failure smessage hz
            hconn hpayload hexception hsuccess
          · simp [step, hsend, Accounted, hconn, htruthful]
          · simp [step, hsend, Accounted, hconn, htruthful, hcount]

/-- An event keeps the account exactly if it is admissible. -/
lemma accounted_step_iff {z : Zlib} (hz : z.Inverse) (smessage : StreamingMessage)
    (event : ConnectionEvent) (s : ConnectionHistory) (h : s.Accounted) :
    (step z smessage event s).Accounted ↔ Admissible z event s := by
  cases event with
  | send buffer write => exact accounted_send_iff hz smessage buffer write h
  | ended =>
    obtain ⟨htruthful, hcount⟩ := h
    cases hconn : s.conn.connectionEstablished <;>
      simp [step, Accounted, Admissible, hconn, htruthful, hcount]
  | established => exact iff_of_true h trivial

end ConnectionHistory

open ConnectionHistory TCPConnection LabelledRun

/-- **The answers are true and the failures are counted all along a run exactly if every event of
the run is admissible.** -/
theorem sendMessage_accounted_iff (z : Zlib) (hz : z.Inverse) (smessage : StreamingMessage)
    (events : List ConnectionEvent) :
    (∀ pre, pre <+: events → (run (step z smessage) initial pre).Accounted) ↔
      Guarded (step z smessage) (Admissible z) initial events :=
  forall_prefix_iff_guarded (accounted_step_iff hz smessage) ⟨rfl, rfl⟩

/-- A socket that takes every byte. -/
def reliableSocket : SocketWrite where
  outcome _ := .code .success
  taken := List.length
  taken_of_success _ _ := le_rfl
  ne_success _ := nofun

/-- A short message over a new connection. -/
def shortRun : List ConnectionEvent :=
  [.established, .send (StreamBuffer.ofBytes [1, 2, 3]) reliableSocket]

/-- The account of the short message is right. -/
theorem sendMessage_accounted_short :
    Guarded (step storedZlib zeroed) (Admissible storedZlib) initial shortRun ∧
      ∀ pre, pre <+: shortRun → (run (step storedZlib zeroed) initial pre).Accounted := by
  have hpayload : compressed storedZlib (StreamBuffer.ofBytes [1, 2, 3]) =
      some (StoredZlib.compress [1, 2, 3]) :=
    compressed_storedZlib (by decide) (by rw [StoredZlib.length_compress]; decide)
  have hguarded : Guarded (step storedZlib zeroed) (Admissible storedZlib) initial shortRun :=
    ⟨trivial, fun _ => ⟨_, hpayload, nofun⟩, trivial⟩
  exact ⟨hguarded,
    (sendMessage_accounted_iff storedZlib storedZlib_inverse zeroed shortRun).mpr hguarded⟩

/-- A buffer that zlib has no room for makes the account wrong as soon as it is sent. -/
lemma not_accounted_of_none {buffer : StreamBuffer} (hnone : compressed storedZlib buffer = none) :
    ¬ ∀ pre, pre <+: [.established, .send buffer reliableSocket] →
      (run (step storedZlib zeroed) initial pre).Accounted := by
  intro h
  have hopen : (step storedZlib zeroed .established initial).Accounted := ⟨rfl, rfl⟩
  have hsent := h _ List.prefix_rfl
  rw [run_cons, run_cons, run_nil] at hsent
  obtain ⟨payload, hpayload, -⟩ := (accounted_step_iff storedZlib_inverse zeroed
    (.send buffer reliableSocket) _ hopen).mp hsent rfl
  exact nomatch hnone.symm.trans hpayload

/-- Bytes whose stream is too long are not compressed. -/
lemma compressed_storedZlib_none {bytes : List UInt8} (hbytes : bytes.length < 2 ^ 31)
    (hlong : maxStreamingMessageLen < (StoredZlib.compress bytes).length) :
    compressed storedZlib (StreamBuffer.ofBytes bytes) = none := by
  rw [compressed, source_eq (by simpa using hbytes), StreamBuffer.bytes_ofBytes, Option.bind_some]
  exact if_neg (Nat.not_le.mpr hlong)

/-- Seven million bytes that zlib cannot make shorter. -/
def hugeMessage : StreamBuffer := StreamBuffer.ofBytes (incompressible 7000000)

/-- **A buffer that is too large to be compressed**: nothing is written, and `send_message` returns
true. -/
theorem not_accounted_huge :
    established.sendMessageThrowing storedZlib zeroed reliableSocket hugeMessage =
        .ok (established, true) ∧
      ¬ ∀ pre, pre <+: [.established, .send hugeMessage reliableSocket] →
        (run (step storedZlib zeroed) initial pre).Accounted := by
  have hlength := length_incompressible 7000000
  have hsource : source hugeMessage = some hugeMessage.bytes := source_eq (by
    rw [hugeMessage, StreamBuffer.size_ofBytes, hlength]
    omega)
  have hlong : maxStreamingMessageLen < (StoredZlib.compress (incompressible 7000000)).length := by
    rw [StoredZlib.length_compress, hlength]
    decide
  have hnone : compressed storedZlib hugeMessage = none :=
    compressed_storedZlib_none (by rw [hlength]; omega) hlong
  exact ⟨sendMessageThrowing_none zeroed rfl hsource hnone, not_accounted_of_none hnone⟩

end NaoSoccer
