import NaoSoccer.Foundation.LabelledRun

/-!
# Streaming the memory to the tool

The vision thread writes a frame of memory into the buffer of `streaming_logger_` in
`CommunicationModule::optionallyStream`; the stream thread, in `CommunicationModule::stream`, waits
for a buffer that is not empty, sends it and clears it.  Both hold `streaming_mutex_` while they use
the buffer, except that the vision thread looks at the size before it takes the lock.
`cleanupStreamThread` stops the stream thread: it sets `stopping_stream_` without the lock, notifies
and joins.

Each section under the lock is one step, and so is each access outside of it.  A waiting thread may
look at its condition at any time, so notifications need no step of their own: a run with them is a
run in which the waiting thread looks at its condition then.

The loop around the wait ends without a wait when the stream thread comes to it with an empty
buffer and `stopping_stream_` already set, and then the empty buffer is sent.
`memoryStreaming_safe_iff` says that this is the only thing that goes wrong.
-/

namespace NaoSoccer

open LabelledRun

/-! ## The three threads -/

/-- `LogWriter::main_buffer_`: its size and the number of the frame written last. -/
structure FrameBuffer where
  size : ℕ
  frame : ℕ
  deriving DecidableEq, Repr

/-- Where the stream thread is. -/
inductive StreamAt
  /-- There is no stream thread. -/
  | none
  /-- It is about to test `streaming()`. -/
  | test
  /-- It is about to take the lock. -/
  | lock
  /-- It waits for `streaming_cv_`. -/
  | wait
  /-- It has returned from `stream`. -/
  | returned
  deriving DecidableEq, Repr

/-- Where the vision thread is. -/
inductive VisionStreamAt
  /-- It is outside `optionallyStream`. -/
  | outside
  /-- It has seen an empty buffer and is about to take the lock. -/
  | lock
  deriving DecidableEq, Repr

/-- Where the thread is that cleans up. -/
inductive CleanupAt
  /-- It is outside `cleanupStreamThread`. -/
  | outside
  /-- It has set `stopping_stream_` and waits for the stream thread to return. -/
  | join
  deriving DecidableEq, Repr

/-- A call of `send_message`: what is sent, and whether the stream thread has seen
`stopping_stream_` set before the call. -/
structure SentBuffer where
  size : ℕ
  frame : ℕ
  stopObserved : Bool
  deriving DecidableEq, Repr

/-- The variables the threads share, where the threads are, and what has been sent. -/
structure StreamingState where
  /-- The buffer of `streaming_logger_`. -/
  buffer : FrameBuffer
  /-- The number of frames written, `mdata_.frames`. -/
  frames : ℕ
  /-- `stopping_stream_` -/
  stopping : Bool
  stream : StreamAt
  vision : VisionStreamAt
  cleanup : CleanupAt
  /-- The stream thread has read `stopping_stream_` as set. -/
  stopObserved : Bool
  /-- The calls of `send_message`. -/
  sent : List SentBuffer
  deriving DecidableEq, Repr

/-- A step of one of the threads; `streaming` is the answer of `streaming()` where the step asks,
and `size` the size of the frame that the step writes. -/
inductive StreamingAct
  | stream (streaming : Bool)
  | vision (streaming : Bool) (size : ℕ)
  | cleanup
  | start
  deriving DecidableEq, Repr

namespace StreamingState

/-- `send_message` on the buffer and `LogWriter::clearBuffer`. -/
def send (s : StreamingState) : StreamingState :=
  { s with
    sent := s.sent ++ [⟨s.buffer.size, s.buffer.frame, s.stopObserved⟩]
    buffer := { s.buffer with size := 0 }
    stream := .test }

/-- `LogWriter::writeMemory` on the next frame. -/
def writeMemory (s : StreamingState) (size : ℕ) : StreamingState :=
  { s with buffer := ⟨size, s.frames⟩, frames := s.frames + 1 }

/-- The next step of `CommunicationModule::stream`. -/
def streamStep (streaming : Bool) (s : StreamingState) : StreamingState :=
  match s.stream with
  | .none | .returned => s
  | .test => if streaming then { s with stream := .lock } else { s with stream := .returned }
  | .lock =>
    -- the test of the inner loop reads `stopping_stream_` only if the buffer is empty
    if s.buffer.size = 0 then
      if s.stopping then send { s with stopObserved := true } else { s with stream := .wait }
    else s.send
  | .wait =>
    if s.stopping then { s with stopObserved := true, stream := .returned }
    else if s.buffer.size = 0 then s
    else s.send

/-- The next step of `CommunicationModule::optionallyStream`. -/
def visionStep (streaming : Bool) (size : ℕ) (s : StreamingState) : StreamingState :=
  match s.vision with
  | .outside => if streaming && s.buffer.size = 0 then { s with vision := .lock } else s
  | .lock => { s.writeMemory size with vision := .outside }

/-- The next step of `CommunicationModule::cleanupStreamThread`.  Once the stream thread has
returned, nothing else uses the thread or the flag, so they are reset in one step. -/
def cleanupStep (s : StreamingState) : StreamingState :=
  match s.cleanup with
  | .outside =>
    if s.stream = .none then s else { s with stopping := true, cleanup := .join }
  | .join =>
    if s.stream = .returned then { s with stream := .none, stopping := false, cleanup := .outside }
    else s

/-- The callback of `CommunicationModule::startTCPServer` starts a stream thread after it has
cleaned up. -/
def startStep (s : StreamingState) : StreamingState :=
  if s.stream = .none ∧ s.cleanup = .outside then { s with stream := .test, stopObserved := false }
  else s

/-- One atomic step of the threads. -/
def step : StreamingAct → StreamingState → StreamingState
  | .stream streaming, s => s.streamStep streaming
  | .vision streaming size, s => s.visionStep streaming size
  | .cleanup, s => s.cleanupStep
  | .start, s => s.startStep

/-- The state of a new `CommunicationModule`. -/
def create : StreamingState := ⟨⟨0, 0⟩, 0, false, .none, .outside, .outside, false, []⟩

/-! ## Safety -/

/-- No frame has been sent twice, no empty buffer has been sent, and nothing has been sent after
the stream thread has seen `stopping_stream_` set. -/
structure Safe (s : StreamingState) : Prop where
  once : (s.sent.map SentBuffer.frame).Nodup
  nonempty : ∀ m ∈ s.sent, m.size ≠ 0
  notStopped : ∀ m ∈ s.sent, m.stopObserved = false

/-- The move is not the one that goes wrong: the stream thread does not come to its inner loop with
an empty buffer while `stopping_stream_` is set. -/
def NotStoppingEmpty (a : StreamingAct) (s : StreamingState) : Prop :=
  match a with
  | .stream _ => s.stream = .lock → s.buffer.size = 0 → s.stopping = false
  | _ => True

/-- The invariant: the state is safe, what has been sent was written before, what waits in the
buffer has not been sent, and a stream thread that has seen the flag has returned. -/
structure Invariant (s : StreamingState) : Prop where
  safe : s.Safe
  sent_lt : ∀ m ∈ s.sent, m.frame < s.frames
  buffer_lt : s.buffer.size ≠ 0 → s.buffer.frame < s.frames
  buffer_notMem : s.buffer.size ≠ 0 → s.buffer.frame ∉ s.sent.map SentBuffer.frame
  returned : s.stopObserved = true → s.stream = .none ∨ s.stream = .returned

namespace Invariant

variable {s : StreamingState}

/-- Nothing has been sent by a new module. -/
lemma create : Invariant create where
  safe := ⟨List.nodup_nil, by simp [StreamingState.create], by simp [StreamingState.create]⟩
  sent_lt := by simp [StreamingState.create]
  buffer_lt := by simp [StreamingState.create]
  buffer_notMem := by simp [StreamingState.create]
  returned := by simp [StreamingState.create]

/-- Sending a buffer that is not empty keeps the invariant if the stream thread has not seen the
flag. -/
lemma send (h : s.Invariant) (hsize : s.buffer.size ≠ 0) (hstop : s.stopObserved = false) :
    s.send.Invariant where
  safe := by
    constructor
    · simp only [StreamingState.send, List.map_append, List.map_cons, List.map_nil]
      rw [List.nodup_append]
      refine ⟨h.safe.once, List.nodup_cons.mpr ⟨List.not_mem_nil, List.nodup_nil⟩, ?_⟩
      intro n hn m hm
      rw [List.mem_singleton.mp hm]
      rintro rfl
      exact h.buffer_notMem hsize hn
    · intro m hm
      rcases List.mem_append.mp hm with hm | hm
      · exact h.safe.nonempty m hm
      · rw [List.mem_singleton.mp hm]
        exact hsize
    · intro m hm
      rcases List.mem_append.mp hm with hm | hm
      · exact h.safe.notStopped m hm
      · rw [List.mem_singleton.mp hm]
        exact hstop
  sent_lt := by
    intro m hm
    rcases List.mem_append.mp hm with hm | hm
    · exact h.sent_lt m hm
    · rw [List.mem_singleton.mp hm]
      exact h.buffer_lt hsize
  buffer_lt := fun hne => absurd rfl hne
  buffer_notMem := fun hne => absurd rfl hne
  returned := by
    intro hset
    have hset : s.stopObserved = true := hset
    rw [hstop] at hset
    exact absurd hset Bool.false_ne_true

/-- Writing a frame keeps the invariant: its number is new. -/
lemma writeMemory (h : s.Invariant) (size : ℕ) : (s.writeMemory size).Invariant where
  safe := ⟨h.safe.once, h.safe.nonempty, h.safe.notStopped⟩
  sent_lt := fun m hm => Nat.lt_succ_of_lt (h.sent_lt m hm)
  buffer_lt := fun _ => Nat.lt_succ_self _
  buffer_notMem := by
    intro _ hmem
    obtain ⟨m, hm, hframe⟩ := List.mem_map.mp hmem
    exact absurd hframe (Nat.ne_of_lt (h.sent_lt m hm))
  returned := h.returned

/-- A step that only moves threads and the flags keeps the invariant. -/
lemma of_eq {t : StreamingState} (h : s.Invariant) (hbuffer : t.buffer = s.buffer)
    (hframes : t.frames = s.frames) (hsent : t.sent = s.sent)
    (hreturned : t.stopObserved = true → t.stream = .none ∨ t.stream = .returned) :
    t.Invariant where
  safe := ⟨hsent ▸ h.safe.once, hsent ▸ h.safe.nonempty, hsent ▸ h.safe.notStopped⟩
  sent_lt := hsent ▸ hframes ▸ h.sent_lt
  buffer_lt := hbuffer ▸ hframes ▸ h.buffer_lt
  buffer_notMem := hbuffer ▸ hsent ▸ h.buffer_notMem
  returned := hreturned

/-- A stream thread that is running has not seen the flag. -/
lemma stopObserved_eq (h : s.Invariant) (hnone : s.stream ≠ .none)
    (hreturned : s.stream ≠ .returned) : s.stopObserved = false := by
  by_contra hset
  rcases h.returned (Bool.not_eq_false _ ▸ hset) with hstream | hstream
  · exact hnone hstream
  · exact hreturned hstream

/-- Every step of the stream thread but the one that goes wrong keeps the invariant. -/
lemma streamStep (h : s.Invariant) {streaming : Bool}
    (hguard : NotStoppingEmpty (.stream streaming) s) : (s.streamStep streaming).Invariant := by
  cases hat : s.stream with
  | none =>
    simp only [StreamingState.streamStep, hat]
    exact h
  | returned =>
    simp only [StreamingState.streamStep, hat]
    exact h
  | test =>
    have hstop : s.stopObserved = false := h.stopObserved_eq (by simp [hat]) (by simp [hat])
    simp only [StreamingState.streamStep, hat]
    split
    · exact h.of_eq rfl rfl rfl (by simp [hstop])
    · exact h.of_eq rfl rfl rfl (by simp)
  | lock =>
    have hstop : s.stopObserved = false := h.stopObserved_eq (by simp [hat]) (by simp [hat])
    simp only [StreamingState.streamStep, hat]
    by_cases hsize : s.buffer.size = 0
    · rw [if_pos hsize, hguard hat hsize]
      exact h.of_eq rfl rfl rfl (by simp [hstop])
    · rw [if_neg hsize]
      exact h.send hsize hstop
  | wait =>
    have hstop : s.stopObserved = false := h.stopObserved_eq (by simp [hat]) (by simp [hat])
    simp only [StreamingState.streamStep, hat]
    split
    · exact h.of_eq rfl rfl rfl (by simp)
    split
    · exact h
    next hsize => exact h.send hsize hstop

/-- Every step of the vision thread keeps the invariant. -/
lemma visionStep (h : s.Invariant) (streaming : Bool) (size : ℕ) :
    (s.visionStep streaming size).Invariant := by
  cases hat : s.vision with
  | outside =>
    simp only [StreamingState.visionStep, hat]
    split
    · exact h.of_eq rfl rfl rfl h.returned
    · exact h
  | lock =>
    simp only [StreamingState.visionStep, hat]
    exact (h.writeMemory size).of_eq rfl rfl rfl h.returned

/-- Every step of the cleanup keeps the invariant. -/
lemma cleanupStep (h : s.Invariant) : s.cleanupStep.Invariant := by
  cases hat : s.cleanup with
  | outside =>
    simp only [StreamingState.cleanupStep, hat]
    split
    · exact h
    · exact h.of_eq rfl rfl rfl h.returned
  | join =>
    simp only [StreamingState.cleanupStep, hat]
    split
    · exact h.of_eq rfl rfl rfl fun _ => Or.inl rfl
    · exact h

/-- Starting a stream thread keeps the invariant. -/
lemma startStep (h : s.Invariant) : s.startStep.Invariant := by
  rw [StreamingState.startStep]
  split
  · exact h.of_eq rfl rfl rfl fun hset => absurd hset Bool.false_ne_true
  · exact h

/-- **The step lemma**: every move but the one that goes wrong keeps the invariant. -/
lemma step (a : StreamingAct) (s : StreamingState) (hguard : NotStoppingEmpty a s)
    (h : s.Invariant) : (StreamingState.step a s).Invariant := by
  cases a with
  | stream streaming => exact h.streamStep hguard
  | vision streaming size => exact h.visionStep streaming size
  | cleanup => exact h.cleanupStep
  | start => exact h.startStep

end Invariant

/-- The move that goes wrong sends an empty buffer. -/
lemma not_safe_of_stoppingEmpty {a : StreamingAct} {s : StreamingState}
    (h : ¬ NotStoppingEmpty a s) : ¬ (step a s).Safe := by
  cases a with
  | stream streaming =>
    simp only [NotStoppingEmpty, Classical.not_imp, Bool.not_eq_false] at h
    obtain ⟨hat, hsize, hstop⟩ := h
    intro hsafe
    refine hsafe.nonempty ⟨s.buffer.size, s.buffer.frame, true⟩ ?_ hsize
    simp only [step, streamStep, hat, hsize, hstop, if_true, send]
    exact List.mem_append_right _ (List.mem_singleton_self _)
  | vision => exact absurd trivial h
  | cleanup => exact absurd trivial h
  | start => exact absurd trivial h

end StreamingState

/-- **The memory stream is safe exactly if the stream thread never comes to its inner loop with an
empty buffer while it is being stopped.**  For every interleaving of the vision thread, the stream
threads and the thread that cleans up: no frame is sent twice, no empty buffer is sent and nothing
is sent after the stream thread has seen `stopping_stream_`, in all states of the run, if and only
if in no state of the run the stream thread has taken the lock with an empty buffer and
`stopping_stream_` set. -/
theorem memoryStreaming_safe_iff (acts : List StreamingAct) :
    (∀ pre, pre <+: acts → (run StreamingState.step StreamingState.create pre).Safe) ↔
      Guarded StreamingState.step StreamingState.NotStoppingEmpty StreamingState.create acts := by
  constructor
  · intro hsafe
    by_contra hnot
    obtain ⟨pre, a, post, rfl, -, ha⟩ := exists_first_unguarded hnot
    refine StreamingState.not_safe_of_stoppingEmpty ha ?_
    have hstep := hsafe (pre ++ [a]) ⟨post, by simp⟩
    rwa [run_append] at hstep
  · intro hguard pre hpre
    have hinv := run_invariant (I := StreamingState.Invariant) StreamingState.Invariant.step
      StreamingState.Invariant.create (hguard.of_prefix hpre)
    exact hinv.safe

/-- The stream thread is stopped before it takes the lock for the first time, and sends an empty
buffer. -/
theorem memoryStreaming_empty :
    (run StreamingState.step StreamingState.create
      [.start, .stream true, .cleanup, .stream true]).sent = [⟨0, 0, true⟩] := by
  decide

end NaoSoccer
