import NaoSoccer.Foundation.ByteMemory
import NaoSoccer.Foundation.PartialReads

/-!
# The socket of the simulated robot

The agent and the simulation server exchange messages over one connection.  `PutMessage` writes a
message behind its length, and `GetMessage` reads one back: four bytes of length, then the message,
each in as many parts as the socket delivers.

The connection is the list of bytes that one side has written, and a list of events says how they
arrive, as in the library of partial reads.
-/

namespace NaoSoccer

namespace AgentSocket

open PartialReads

/-- `sizeof(buffer)` of `GetMessage`. -/
def bufferSize : ℕ := 16 * 82024

/-- `PutMessage`: the bytes that are written for a message. -/
def putMessage (msg : List UInt8) : List UInt8 :=
  if msg.isEmpty then []
  else
    -- `htonl`: the most significant byte comes first
    let prefixBytes := (ByteMemory.encode 4 msg.length).reverse
    prefixBytes ++ msg

/-- `string(const char*)`: the characters before the first zero. -/
def cString (chars : List UInt8) : List UInt8 := chars.takeWhile (· ≠ 0)

/-- What a call of `GetMessage` comes to. -/
inductive Received where
  /-- It returns this message; the rest of the stream and of the events are left. -/
  | message (msg : List UInt8) (events : List ReadEvent) (stream : List UInt8)
  /-- The connection is lost. -/
  | lost
  /-- The message is too long. -/
  | tooLong
  /-- The zero that ends the message would be written behind the buffer. -/
  | outOfBounds
  /-- `SelectInput` gives up. -/
  | silent
  /-- It is not finished when the events end. -/
  | waiting

/-- `GetMessage` -/
def getMessage (events : List ReadEvent) (stream : List UInt8) : Received :=
  match readUntil true 4 events [] stream with
  | .closed => .lost
  | .silent => .silent
  | .waiting => .waiting
  | .filled buffer stream events =>
    let msgLen := ByteMemory.decode buffer.reverse
    if 4 + msgLen > bufferSize then .tooLong
    -- `SelectInput` returns true or aborts, and an empty read is tried again
    else match readUntil false (4 + msgLen) events buffer stream with
      | .closed => .lost
      | .silent => .silent
      | .waiting => .waiting
      | .filled buffer stream events =>
        if buffer.length < bufferSize then .message (cString (buffer.drop 4)) events stream
        else .outOfBounds

/-- How the loop of `Run` comes to its end. -/
inductive Ending where
  | lost
  | tooLong
  | outOfBounds
  | silent
  | waiting
  deriving DecidableEq, Repr

/-- What a call that returns a message has read. -/
lemma getMessage_message {events events' : List ReadEvent} {stream stream' msg : List UInt8}
    (h : getMessage events stream = .message msg events' stream') :
    ∃ buffer rest events₁ buffer₁,
      readUntil true 4 events [] stream = .filled buffer rest events₁ ∧
      readUntil false (4 + ByteMemory.decode buffer.reverse) events₁ buffer rest =
        .filled buffer₁ stream' events' ∧
      msg = cString (buffer₁.drop 4) := by
  unfold getMessage at h
  split at h
  · exact nomatch h
  · exact nomatch h
  · exact nomatch h
  next buffer rest events₁ hheader =>
    dsimp only at h
    split at h
    · exact nomatch h
    · split at h
      · exact nomatch h
      · exact nomatch h
      · exact nomatch h
      next buffer₁ rest₁ events₂ hbody =>
        split at h
        · obtain ⟨rfl, rfl, rfl⟩ := Received.message.inj h
          exact ⟨buffer, rest, events₁, buffer₁, hheader, hbody, rfl⟩
        · exact nomatch h

/-- A call that returns a message has used up a part of the stream. -/
lemma length_of_getMessage {events events' : List ReadEvent} {stream stream' msg : List UInt8}
    (h : getMessage events stream = .message msg events' stream') :
    stream'.length < stream.length := by
  obtain ⟨buffer, rest, events₁, buffer₁, hheader, hbody, -⟩ := getMessage_message h
  obtain ⟨happend, hlength, -⟩ := readUntil_filled (by simp) hheader
  obtain ⟨happend₁, hlength₁, -⟩ := readUntil_filled (by omega) hbody
  have htotal := congrArg List.length happend
  have htotal₁ := congrArg List.length happend₁
  simp only [List.length_append, List.length_nil] at htotal htotal₁
  omega

/-- The loop of `Run`: the messages that it gets until it comes to its end. -/
def receiveAll (events : List ReadEvent) (stream : List UInt8) : List (List UInt8) × Ending :=
  match _h : getMessage events stream with
  | .lost => ([], .lost)
  | .tooLong => ([], .tooLong)
  | .outOfBounds => ([], .outOfBounds)
  | .silent => ([], .silent)
  | .waiting => ([], .waiting)
  | .message msg events stream =>
    let rest := receiveAll events stream
    (msg :: rest.1, rest.2)
termination_by stream.length
decreasing_by exact length_of_getMessage _h

/-- The loop without its termination proof. -/
lemma receiveAll_eq (events : List ReadEvent) (stream : List UInt8) :
    receiveAll events stream = match getMessage events stream with
      | .lost => ([], .lost)
      | .tooLong => ([], .tooLong)
      | .outOfBounds => ([], .outOfBounds)
      | .silent => ([], .silent)
      | .waiting => ([], .waiting)
      | .message msg events stream =>
        (msg :: (receiveAll events stream).1, (receiveAll events stream).2) := by
  rw [receiveAll]
  split <;> simp_all

/-! ## What arrives -/

/-- The length in front of a message is read back. -/
lemma decode_reverse {n : ℕ} (hn : n < 2 ^ 32) :
    ByteMemory.decode (ByteMemory.encode 4 n).reverse.reverse = n := by
  rw [List.reverse_reverse, ByteMemory.decode_encode (by omega)]

/-- A call that begins in front of a message: it returns this message, or it says rightly why
not. -/
lemma getMessage_putMessage {msg : List UInt8} (hmsg : msg ≠ []) (hlen : msg.length < 2 ^ 32)
    (rest : List UInt8) (events : List ReadEvent) :
    match getMessage events (putMessage msg ++ rest) with
    | .message received events' stream => received = cString msg ∧ stream = rest ∧
        4 + msg.length < bufferSize ∧ events' <:+ events ∧
        events.countP ReadEvent.isReady + rest.length ≤
          events'.countP ReadEvent.isReady + (putMessage msg ++ rest).length
    | .lost => False
    | .tooLong => bufferSize < 4 + msg.length
    | .outOfBounds => 4 + msg.length = bufferSize
    | .silent => .silent ∈ events
    | .waiting => events.countP ReadEvent.isReady ≤ (putMessage msg ++ rest).length := by
  have hput : putMessage msg = (ByteMemory.encode 4 msg.length).reverse ++ msg :=
    if_neg (by simpa using hmsg)
  have hfour : (ByteMemory.encode 4 msg.length).reverse.length = 4 := by simp
  rw [hput, List.append_assoc, getMessage]
  cases hheader : readUntil true 4 events []
      ((ByteMemory.encode 4 msg.length).reverse ++ (msg ++ rest)) with
  | closed =>
    have := readUntil_closed hheader
    rw [List.length_append, hfour] at this
    omega
  | silent => exact readUntil_eq_silent hheader
  | waiting => exact readUntil_waiting (.inl rfl) hheader
  | filled buffer stream events₁ =>
    obtain ⟨happend, hlength, hsuffix⟩ := readUntil_filled (by simp) hheader
    have hcount := readUntil_count (.inl rfl) hheader
    obtain ⟨rfl, rfl⟩ : buffer = (ByteMemory.encode 4 msg.length).reverse ∧
        stream = msg ++ rest :=
      List.append_inj happend (by rw [hlength, hfour])
    dsimp only
    rw [decode_reverse hlen]
    by_cases hlong : 4 + msg.length > bufferSize
    · rw [if_pos hlong]
      exact hlong
    · rw [if_neg hlong]
      have hend : false = true ∨ 4 + msg.length ≤
          (ByteMemory.encode 4 msg.length).reverse.length + (msg ++ rest).length := by
        rw [hfour, List.length_append]
        omega
      cases hbody : readUntil false (4 + msg.length) events₁
          (ByteMemory.encode 4 msg.length).reverse (msg ++ rest) with
      | closed =>
        have := readUntil_closed hbody
        rw [hfour, List.length_append] at this
        omega
      | silent => exact hsuffix.subset (readUntil_eq_silent hbody)
      | waiting =>
        have := readUntil_waiting hend hbody
        simp only [List.length_append, hfour] at this hcount ⊢
        omega
      | filled buffer₁ stream₁ events₂ =>
        obtain ⟨happend₁, hlength₁, hsuffix₁⟩ := readUntil_filled (by omega) hbody
        have hcount₁ := readUntil_count hend hbody
        rw [← List.append_assoc] at happend₁
        obtain ⟨rfl, rfl⟩ := List.append_inj happend₁ (by
          rw [hlength₁, List.length_append, hfour])
        dsimp only
        by_cases hroom : ((ByteMemory.encode 4 msg.length).reverse ++ msg).length < bufferSize
        · rw [if_pos hroom]
          refine ⟨?_, rfl, by omega, hsuffix₁.trans hsuffix, by omega⟩
          rw [List.drop_left' hfour]
        · rw [if_neg hroom]
          dsimp only
          omega

/-- A call at the end of the stream finds the connection lost. -/
lemma getMessage_nil (events : List ReadEvent) :
    match getMessage events [] with
    | .lost => True
    | .silent => .silent ∈ events
    | .waiting => events.countP ReadEvent.isReady = 0
    | _ => False := by
  rw [getMessage]
  cases hheader : readUntil true 4 events [] [] with
  | closed => trivial
  | silent => exact readUntil_eq_silent hheader
  | waiting => exact Nat.le_zero.mp (readUntil_waiting (.inl rfl) hheader)
  | filled buffer stream events₁ =>
    obtain ⟨happend, hlength, -⟩ := readUntil_filled (by simp) hheader
    have := congrArg List.length happend
    simp only [List.length_append, List.length_nil] at this
    omega

end AgentSocket

end NaoSoccer
