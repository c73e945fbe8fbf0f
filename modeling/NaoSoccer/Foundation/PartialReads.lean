import Mathlib.Data.List.Basic

/-!
# Reading a stream in parts

A program that reads from a socket gets as many bytes as there are at the moment.  To fill a buffer
it reads again until it has what it needs.  `readUntil` is this loop: it runs against a list of
events that say what becomes of each attempt, so a statement over all lists of events is a
statement over all ways in which the bytes can arrive.

Whatever the events, a loop that comes to its end has moved the front of the stream to the buffer
(`readUntil_filled`).  A loop that has enough bytes ends unless the peer falls silent or there are
fewer attempts than bytes (`readUntil_closed`, `readUntil_eq_silent`, `readUntil_waiting`).
-/

namespace PartialReads

/-- What becomes of an attempt to read. -/
inductive ReadEvent where
  /-- There are at least `n + 1` bytes, or the stream ends before. -/
  | ready (n : ℕ)
  /-- The attempt is interrupted and made again. -/
  | interrupted
  /-- Nothing arrives until the time is over. -/
  | silent
  deriving DecidableEq, Repr

/-- An attempt that delivers something unless the stream is at its end. -/
def ReadEvent.isReady : ReadEvent → Bool
  | .ready _ => true
  | _ => false

/-- What comes of the loop. -/
inductive Reading where
  /-- The buffer, the rest of the stream and the events that are left. -/
  | filled (buffer stream : List UInt8) (events : List ReadEvent)
  /-- The stream is at its end. -/
  | closed
  /-- Nothing has arrived. -/
  | silent
  /-- There are no more events. -/
  | waiting

/-- The loop that reads until the buffer holds `n` bytes.  At the end of the stream it gives up if
`stopAtEnd` says so, and tries again otherwise. -/
def readUntil (stopAtEnd : Bool) (n : ℕ) : List ReadEvent → List UInt8 → List UInt8 → Reading
  | [], buffer, stream => if n ≤ buffer.length then .filled buffer stream [] else .waiting
  | .silent :: events, buffer, stream =>
    if n ≤ buffer.length then .filled buffer stream (.silent :: events) else .silent
  | .interrupted :: events, buffer, stream =>
    if n ≤ buffer.length then .filled buffer stream (.interrupted :: events)
    else readUntil stopAtEnd n events buffer stream
  | .ready k :: events, buffer, stream =>
    if n ≤ buffer.length then .filled buffer stream (.ready k :: events)
    else
      let data := stream.take (min (k + 1) (n - buffer.length))
      if data = [] ∧ stopAtEnd then .closed
      else readUntil stopAtEnd n events (buffer ++ data) (stream.drop data.length)

variable {stopAtEnd : Bool} {n : ℕ}

/-- The induction rule of the loop.  An attempt that does not end it has moved some bytes `data`
from the stream to the buffer, none only if the stream is at its end and the loop goes on. -/
theorem readUntil_rule {P : List ReadEvent → List UInt8 → List UInt8 → Reading → Prop}
    (full : ∀ events buffer stream, n ≤ buffer.length →
      P events buffer stream (.filled buffer stream events))
    (waiting : ∀ buffer stream, buffer.length < n → P [] buffer stream .waiting)
    (silent : ∀ events buffer stream, buffer.length < n →
      P (.silent :: events) buffer stream .silent)
    (interrupted : ∀ events buffer stream reading, P events buffer stream reading →
      P (.interrupted :: events) buffer stream reading)
    (closed : ∀ k events buffer, buffer.length < n → stopAtEnd = true →
      P (.ready k :: events) buffer [] .closed)
    (ready : ∀ k events buffer data stream reading, (buffer ++ data).length ≤ n →
      buffer.length < n → (data = [] → stream = [] ∧ stopAtEnd = false) →
      P events (buffer ++ data) stream reading →
      P (.ready k :: events) buffer (data ++ stream) reading)
    (events : List ReadEvent) (buffer stream : List UInt8) :
    P events buffer stream (readUntil stopAtEnd n events buffer stream) := by
  induction events generalizing buffer stream with
  | nil =>
    rw [readUntil]
    split
    next hfull => exact full _ _ _ hfull
    next hfull => exact waiting _ _ (Nat.lt_of_not_le hfull)
  | cons event events ih =>
    cases event with
    | silent =>
      rw [readUntil]
      split
      next hfull => exact full _ _ _ hfull
      next hfull => exact silent _ _ _ (Nat.lt_of_not_le hfull)
    | interrupted =>
      rw [readUntil]
      split
      next hfull => exact full _ _ _ hfull
      next => exact interrupted _ _ _ _ (ih buffer stream)
    | ready k =>
      rw [readUntil]
      split
      next hfull => exact full _ _ _ hfull
      next hfull =>
        dsimp only
        have hlt := Nat.lt_of_not_le hfull
        generalize hk : min (k + 1) (n - buffer.length) = m
        have hm : 0 < m ∧ m ≤ n - buffer.length := by omega
        have hempty : stream.take m = [] → stream = [] := fun h => by
          rw [List.take_eq_nil_iff] at h
          exact h.resolve_left (by omega)
        have hdrop : stream.drop (stream.take m).length = stream.drop m := by
          rw [List.length_take]
          rcases Nat.le_total m stream.length with h | h
          · rw [Nat.min_eq_left h]
          · rw [Nat.min_eq_right h, List.drop_length, List.drop_of_length_le h]
        split
        next hdata =>
          rw [hempty hdata.1]
          exact closed _ _ _ hlt hdata.2
        next hdata =>
          have hnext := ready k events buffer (stream.take m) (stream.drop m) _ (by
            rw [List.length_append, List.length_take]
            omega) hlt (fun h => ⟨by rw [hempty h, List.drop_nil], by
              simpa [h] using hdata⟩) (ih _ _)
          rw [List.take_append_drop] at hnext
          rwa [hdrop]

/-- A loop that comes to its end has filled the buffer from the front of the stream, and the events
that are left are the last ones. -/
theorem readUntil_filled {events events' : List ReadEvent}
    {buffer stream buffer' stream' : List UInt8} (hle : buffer.length ≤ n)
    (h : readUntil stopAtEnd n events buffer stream = .filled buffer' stream' events') :
    buffer' ++ stream' = buffer ++ stream ∧ buffer'.length = n ∧ events' <:+ events := by
  revert hle h
  refine readUntil_rule (P := fun events buffer stream reading => buffer.length ≤ n →
    reading = .filled buffer' stream' events' →
    buffer' ++ stream' = buffer ++ stream ∧ buffer'.length = n ∧ events' <:+ events)
    ?_ ?_ ?_ ?_ ?_ ?_ events buffer stream
  · intro events buffer stream hfull hle h
    obtain ⟨rfl, rfl, rfl⟩ := Reading.filled.inj h
    exact ⟨rfl, by omega, List.suffix_rfl⟩
  · exact fun _ _ _ _ h => nomatch h
  · exact fun _ _ _ _ _ h => nomatch h
  · intro events buffer stream reading ih hle h
    obtain ⟨happend, hlength, hsuffix⟩ := ih hle h
    exact ⟨happend, hlength, hsuffix.trans (List.suffix_cons _ _)⟩
  · exact fun _ _ _ _ _ _ h => nomatch h
  · intro k events buffer data stream reading hle' hlt hempty ih _ h
    obtain ⟨happend, hlength, hsuffix⟩ := ih hle' h
    exact ⟨by rw [happend, List.append_assoc], hlength, hsuffix.trans (List.suffix_cons _ _)⟩

/-- An attempt delivers a byte if the loop gives up at the end of the stream or does not get
there. -/
private lemma length_data_pos {buffer data stream : List UInt8} (hlt : buffer.length < n)
    (hempty : data = [] → stream = [] ∧ stopAtEnd = false)
    (hend : stopAtEnd = true ∨ n ≤ buffer.length + (data.length + stream.length)) :
    0 < data.length := by
  refine List.length_pos_of_ne_nil fun hnil => ?_
  obtain ⟨rfl, hstop⟩ := hempty hnil
  subst hnil
  simp only [hstop, Bool.false_eq_true, List.length_nil, false_or] at hend
  omega

/-- A loop that comes to its end has had no more attempts than bytes were delivered. -/
theorem readUntil_count {events events' : List ReadEvent}
    {buffer stream buffer' stream' : List UInt8}
    (hend : stopAtEnd = true ∨ n ≤ buffer.length + stream.length)
    (h : readUntil stopAtEnd n events buffer stream = .filled buffer' stream' events') :
    events.countP ReadEvent.isReady + stream'.length ≤
      events'.countP ReadEvent.isReady + stream.length := by
  revert hend h
  refine readUntil_rule (P := fun events buffer stream reading =>
    (stopAtEnd = true ∨ n ≤ buffer.length + stream.length) →
    reading = .filled buffer' stream' events' →
    events.countP ReadEvent.isReady + stream'.length ≤
      events'.countP ReadEvent.isReady + stream.length) ?_ ?_ ?_ ?_ ?_ ?_ events buffer stream
  · intro events buffer stream hfull _ h
    obtain ⟨rfl, rfl, rfl⟩ := Reading.filled.inj h
    exact Nat.le_refl _
  · exact fun _ _ _ _ h => nomatch h
  · exact fun _ _ _ _ _ h => nomatch h
  · exact fun _ _ _ _ ih hend h => ih hend h
  · exact fun _ _ _ _ _ _ h => nomatch h
  · intro k events buffer data stream reading _ hlt hempty ih hend h
    rw [List.length_append] at hend ⊢
    have hcount := ih (hend.imp id fun hshort => by rw [List.length_append]; omega) h
    have hpos := length_data_pos hlt hempty hend
    rw [List.countP_cons_of_pos rfl]
    omega

/-- A loop that finds the end of the stream has not had enough bytes. -/
lemma readUntil_closed {events : List ReadEvent} {buffer stream : List UInt8}
    (h : readUntil stopAtEnd n events buffer stream = .closed) :
    buffer.length + stream.length < n := by
  revert h
  refine readUntil_rule (P := fun _ buffer stream reading => reading = .closed →
    buffer.length + stream.length < n) ?_ ?_ ?_ ?_ ?_ ?_ events buffer stream
  · exact fun _ _ _ _ h => nomatch h
  · exact fun _ _ _ h => nomatch h
  · exact fun _ _ _ _ h => nomatch h
  · exact fun _ _ _ _ ih => ih
  · exact fun _ _ _ hlt _ _ => hlt
  · intro k events buffer data stream reading _ _ _ ih h
    have hshort := ih h
    rw [List.length_append] at hshort ⊢
    omega

/-- A loop that ends with a silent peer has come to an event that says so. -/
lemma readUntil_eq_silent {events : List ReadEvent} {buffer stream : List UInt8}
    (h : readUntil stopAtEnd n events buffer stream = .silent) : .silent ∈ events := by
  revert h
  refine readUntil_rule (P := fun events _ _ reading => reading = .silent →
    .silent ∈ events) ?_ ?_ ?_ ?_ ?_ ?_ events buffer stream
  · exact fun _ _ _ _ h => nomatch h
  · exact fun _ _ _ h => nomatch h
  · exact fun _ _ _ _ _ => List.mem_cons_self
  · exact fun _ _ _ _ ih h => List.mem_cons_of_mem _ (ih h)
  · exact fun _ _ _ _ _ h => nomatch h
  · exact fun _ _ _ _ _ _ _ _ _ ih h => List.mem_cons_of_mem _ (ih h)

/-- A loop that waits for more events has had no more attempts than there are bytes. -/
theorem readUntil_waiting {events : List ReadEvent} {buffer stream : List UInt8}
    (hend : stopAtEnd = true ∨ n ≤ buffer.length + stream.length)
    (h : readUntil stopAtEnd n events buffer stream = .waiting) :
    events.countP ReadEvent.isReady ≤ stream.length := by
  revert hend h
  refine readUntil_rule (P := fun events buffer stream reading =>
    (stopAtEnd = true ∨ n ≤ buffer.length + stream.length) → reading = .waiting →
    events.countP ReadEvent.isReady ≤ stream.length) ?_ ?_ ?_ ?_ ?_ ?_ events buffer stream
  · exact fun _ _ _ _ _ h => nomatch h
  · exact fun _ _ _ _ _ => Nat.zero_le _
  · exact fun _ _ _ _ _ h => nomatch h
  · exact fun _ _ _ _ ih hend h => ih hend h
  · exact fun _ _ _ _ _ _ h => nomatch h
  · intro k events buffer data stream reading _ hlt hempty ih hend h
    rw [List.length_append] at hend ⊢
    have hcount := ih (hend.imp id fun hshort => by rw [List.length_append]; omega) h
    have hpos := length_data_pos hlt hempty hend
    rw [List.countP_cons_of_pos rfl]
    omega

end PartialReads
