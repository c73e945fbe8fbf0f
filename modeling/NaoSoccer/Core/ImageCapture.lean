import NaoSoccer.Common.Camera
import NaoSoccer.Foundation.LabelledRun
import Mathlib.Data.Finset.BooleanAlgebra
import Mathlib.Data.Fintype.Basic

/-!
# Ownership of the camera buffers

The driver of a camera has three buffers.  `VIDIOC_DQBUF` takes one out of its queue with a frame in
it, `VIDIOC_QBUF` gives one back.  `NaoCamera` remembers two of them, the one dequeued last
(`nextBuf`) and the one before (`prevBuf`), and `ImageCapture` shows the memory of a buffer to the
vision by setting a pointer.

A thread dequeues and `requeue()` shows, gives the previous buffer back and swaps.  Both hold
`buffer_mutex_` and wait for a flag that the other one sets.  The model goes statement by statement:
`running` is what the holder of the mutex has still to do.  A call that waits without its flag
does not hold the mutex, so it has no part in the state.

`Phase` is the abstract view of a camera, one value for each thing that may happen to it next.
-/

namespace NaoSoccer

open LabelledRun

/-! ## A camera -/

/-- `NaoCamera::frameBufferCount` -/
abbrev frameBufferCount : ℕ := 3

/-- The buffer of a `v4l2_buffer`, or nothing for the index `-1`. -/
abbrev BufferIndex := Option (Fin frameBufferCount)

/-- The fields of `NaoCamera` that belong to buffers, and the queue of its driver. -/
structure NaoCamera where
  /-- The buffers that are queued in the driver. -/
  queue : Finset (Fin frameBufferCount)
  /-- The frame in the memory of each buffer that is not queued. -/
  mem : Fin frameBufferCount → ℕ
  buf : BufferIndex
  nextBuf : BufferIndex
  prevBuf : BufferIndex

namespace NaoCamera

/-- `NaoCamera::initRequestAndMapBuffers` and `initQueueAllBuffers`: all buffers are queued, and the
structs are those of `calloc`, of which `buf` was used last. -/
def init : NaoCamera where
  queue := Finset.univ
  mem := fun _ => 0
  buf := some 2
  nextBuf := some 0
  prevBuf := some 0

/-- `NaoCamera::dequeueBuffer` when the driver returns the queued buffer `i` with a frame. -/
def dequeueBuffer (i : Fin frameBufferCount) (frame : ℕ) (c : NaoCamera) : NaoCamera where
  queue := c.queue.erase i
  mem := Function.update c.mem i frame
  buf := some i
  nextBuf := some i
  prevBuf := c.prevBuf

/-- The buffer that `NaoCamera::enqueueBuffer` queues is not queued. -/
def CanEnqueue (c : NaoCamera) : Prop := ∃ i, c.prevBuf = some i ∧ i ∉ c.queue

/-- `NaoCamera::enqueueBuffer` -/
def enqueueBuffer (c : NaoCamera) : NaoCamera :=
  match c.prevBuf with
  | some i => { c with queue := insert i c.queue }
  | none => c

/-- The previous buffer, when there is one, is inserted. -/
lemma enqueueBuffer_of_prevBuf {c : NaoCamera} {i : Fin frameBufferCount}
    (h : c.prevBuf = some i) : c.enqueueBuffer = { c with queue := insert i c.queue } := by
  obtain ⟨queue, mem, buf, nextBuf, prevBuf⟩ := c
  subst h
  rfl

/-- `NaoCamera::swapBuffers` -/
def swapBuffers (c : NaoCamera) : NaoCamera :=
  { c with prevBuf := c.nextBuf, nextBuf := none }

/-- The buffers that the driver returns in `NaoCamera::updateBuffers`, while all are queued. -/
structure WarmUp where
  first : Fin frameBufferCount
  second : Fin frameBufferCount
  firstFrame : ℕ
  secondFrame : ℕ
  ne : first ≠ second

/-- `NaoCamera::updateBuffers` -/
def updateBuffers (w : WarmUp) (c : NaoCamera) : NaoCamera :=
  (((c.dequeueBuffer w.first w.firstFrame).swapBuffers.dequeueBuffer w.second
    w.secondFrame).enqueueBuffer).swapBuffers

end NaoCamera

/-! ## The two parties -/

/-- A statement about one camera. -/
inductive CameraOp
  | dequeueBuffer
  | setImg
  | enqueueBuffer
  | swapBuffers
  deriving DecidableEq, Repr

/-- A statement of a party that holds the mutex. -/
inductive Statement
  | camera (op : CameraOp) (type : CameraType)
  | setRequeued (value : Bool)
  | setDequeued (value : Bool)
  deriving DecidableEq, Repr

/-- What `ImageCapture::dequeueThread` does in one iteration after its wait. -/
def dequeueIteration : List Statement :=
  [.camera .dequeueBuffer .top, .camera .dequeueBuffer .bottom,
    .setRequeued false, .setDequeued true]

/-- What `ImageCapture::requeue` does after its wait. -/
def requeueCall : List Statement :=
  [.camera .setImg .top, .camera .setImg .bottom,
    .camera .enqueueBuffer .top, .camera .enqueueBuffer .bottom,
    .camera .swapBuffers .top, .camera .swapBuffers .bottom,
    .setDequeued false, .setRequeued true]

/-- A camera, the buffer that `image_` points to, and the frames that have gone through, the first
one first. -/
structure Channel where
  camera : NaoCamera
  image : BufferIndex
  /-- The frames that the thread has dequeued. -/
  dequeued : List ℕ
  /-- The frames that `image_` has been set to. -/
  shown : List ℕ

/-- What the parties have begun. -/
inductive CaptureEvent
  | dequeue
  | requeue
  deriving DecidableEq, Repr

/-- The state of `ImageCapture`. -/
structure ImageCapture where
  channel : CameraType → Channel
  bufferRequeued : Bool
  bufferDequeued : Bool
  /-- What the holder of the mutex has still to do. -/
  running : List Statement
  /-- The iterations and calls that have got past their waits, the first one first. -/
  history : List CaptureEvent

/-- A move: a party gets past its wait, or the holder of the mutex makes its next statement, for
which the driver may have to return a buffer with a frame. -/
inductive CaptureAct
  | enterDequeue
  | enterRequeue
  | proceed (buffer : Fin frameBufferCount) (frame : ℕ)
  deriving DecidableEq, Repr

namespace Channel

/-- A statement about the camera; `NaoCamera::getImage` points to the memory of `nextBuf`. -/
def exec (op : CameraOp) (buffer : Fin frameBufferCount) (frame : ℕ) (c : Channel) : Channel :=
  match op with
  | .dequeueBuffer =>
    { c with camera := c.camera.dequeueBuffer buffer frame, dequeued := c.dequeued ++ [frame] }
  | .setImg =>
    { c with
      image := c.camera.nextBuf
      shown := c.shown ++ (c.camera.nextBuf.map c.camera.mem).toList }
  | .enqueueBuffer => { c with camera := c.camera.enqueueBuffer }
  | .swapBuffers => { c with camera := c.camera.swapBuffers }

/-- `VIDIOC_DQBUF` blocks until it can return a buffer that is queued. -/
def Blocks (op : CameraOp) (buffer : Fin frameBufferCount) (c : Channel) : Prop :=
  op = .dequeueBuffer ∧ buffer ∉ c.camera.queue

instance (op : CameraOp) (buffer : Fin frameBufferCount) (c : Channel) :
    Decidable (c.Blocks op buffer) := inferInstanceAs (Decidable (_ ∧ _))

end Channel

namespace ImageCapture

/-- The next statement of the holder of the mutex. -/
def proceed (buffer : Fin frameBufferCount) (frame : ℕ) (s : ImageCapture) : ImageCapture :=
  match s.running with
  | [] => s
  | .camera op type :: rest =>
    if (s.channel type).Blocks op buffer then s
    else { s with
      channel := Function.update s.channel type ((s.channel type).exec op buffer frame)
      running := rest }
  | .setRequeued value :: rest => { s with bufferRequeued := value, running := rest }
  | .setDequeued value :: rest => { s with bufferDequeued := value, running := rest }

/-- One move.  A party gets past its wait when the mutex is free and its flag is set. -/
def step : CaptureAct → ImageCapture → ImageCapture
  | .enterDequeue, s =>
    if s.running = [] ∧ s.bufferRequeued then
      { s with running := dequeueIteration, history := s.history ++ [.dequeue] }
    else s
  | .enterRequeue, s =>
    if s.running = [] ∧ s.bufferDequeued then
      { s with running := requeueCall, history := s.history ++ [.requeue] }
    else s
  | .proceed buffer frame, s => s.proceed buffer frame

/-- `ImageCapture::initVision`, from cameras whose buffers are all queued. -/
def initVision (warmUp : CameraType → NaoCamera.WarmUp) : ImageCapture where
  channel type := ⟨NaoCamera.init.updateBuffers (warmUp type), none, [], []⟩
  bufferRequeued := true
  bufferDequeued := false
  running := []
  history := []

end ImageCapture

/-! ## The phases of a camera -/

/-- What happens next to a camera: it is dequeued, shown, its previous buffer is given back, or its
buffers are swapped. -/
inductive Phase
  | ready
  | dequeued
  | shown
  | enqueued
  deriving DecidableEq, Repr

/-- The phase after a statement, if it is the one that is due. -/
def Phase.next : CameraOp → Phase → Option Phase
  | .dequeueBuffer, .ready => some .dequeued
  | .setImg, .dequeued => some .shown
  | .enqueueBuffer, .shown => some .enqueued
  | .swapBuffers, .enqueued => some .ready
  | _, _ => none

namespace Channel

/-- The buffers in each phase.  Those that the camera remembers are not queued, all others are; the
image is the previous buffer until the next one is shown; and the frame in the next buffer is the
only one that has been dequeued and not shown. -/
def In (c : Channel) : Phase → Prop
  | .ready => ∃ p, c.camera.prevBuf = some p ∧ c.camera.queue = {p}ᶜ ∧
      (∀ i, c.image = some i → i = p) ∧ c.dequeued = c.shown
  | .dequeued => ∃ p x, p ≠ x ∧ c.camera.prevBuf = some p ∧ c.camera.nextBuf = some x ∧
      c.camera.queue = {p, x}ᶜ ∧ (∀ i, c.image = some i → i = p) ∧
      c.dequeued = c.shown ++ [c.camera.mem x]
  | .shown => ∃ p x, p ≠ x ∧ c.camera.prevBuf = some p ∧ c.camera.nextBuf = some x ∧
      c.camera.queue = {p, x}ᶜ ∧ c.image = some x ∧ c.dequeued = c.shown
  | .enqueued => ∃ x, c.camera.nextBuf = some x ∧ c.camera.queue = {x}ᶜ ∧
      c.image = some x ∧ c.dequeued = c.shown

variable {c : Channel}

/-- A buffer that the driver returns is not the previous one. -/
lemma In.dequeueBuffer {buffer : Fin frameBufferCount} (h : c.In .ready)
    (hblocks : ¬ c.Blocks .dequeueBuffer buffer) (frame : ℕ) :
    (c.exec .dequeueBuffer buffer frame).In .dequeued := by
  obtain ⟨p, hprev, hqueue, himage, hframes⟩ := h
  have hqueued : buffer ∈ c.camera.queue := by
    by_contra hqueued
    exact hblocks ⟨rfl, hqueued⟩
  have hne : p ≠ buffer := by
    rw [hqueue, Finset.mem_compl, Finset.mem_singleton] at hqueued
    exact Ne.symm hqueued
  refine ⟨p, buffer, hne, hprev, rfl, ?_, himage, ?_⟩
  · show c.camera.queue.erase buffer = {p, buffer}ᶜ
    rw [hqueue]
    ext i
    simp only [Finset.mem_erase, Finset.mem_compl, Finset.mem_singleton, Finset.mem_insert, not_or]
    exact And.comm
  · show c.dequeued ++ [frame] = c.shown ++ [Function.update c.camera.mem buffer frame buffer]
    rw [hframes, Function.update_self]

/-- The next buffer is shown, and its frame is the one that was waiting. -/
lemma In.setImg (h : c.In .dequeued) (buffer : Fin frameBufferCount) (frame : ℕ) :
    (c.exec .setImg buffer frame).In .shown := by
  obtain ⟨p, x, hne, hprev, hnext, hqueue, -, hframes⟩ := h
  refine ⟨p, x, hne, hprev, hnext, hqueue, hnext, ?_⟩
  show c.dequeued = c.shown ++ (c.camera.nextBuf.map c.camera.mem).toList
  rw [hnext, hframes]
  rfl

/-- The previous buffer goes back to the queue. -/
lemma In.enqueueBuffer (h : c.In .shown) (buffer : Fin frameBufferCount) (frame : ℕ) :
    (c.exec .enqueueBuffer buffer frame).In .enqueued := by
  obtain ⟨p, x, hne, hprev, hnext, hqueue, himage, hframes⟩ := h
  have hcamera := NaoCamera.enqueueBuffer_of_prevBuf hprev
  refine ⟨x, ?_, ?_, himage, hframes⟩
  · show c.camera.enqueueBuffer.nextBuf = some x
    rw [hcamera]
    exact hnext
  · show c.camera.enqueueBuffer.queue = {x}ᶜ
    rw [hcamera]
    show insert p c.camera.queue = {x}ᶜ
    rw [hqueue]
    ext i
    simp only [Finset.mem_insert, Finset.mem_compl, Finset.mem_singleton, not_or]
    constructor
    · rintro (rfl | ⟨-, hix⟩)
      · exact hne
      · exact hix
    · intro hix
      by_cases hip : i = p
      · exact Or.inl hip
      · exact Or.inr ⟨hip, hix⟩

/-- The next buffer becomes the previous one. -/
lemma In.swapBuffers (h : c.In .enqueued) (buffer : Fin frameBufferCount) (frame : ℕ) :
    (c.exec .swapBuffers buffer frame).In .ready := by
  obtain ⟨x, hnext, hqueue, himage, hframes⟩ := h
  refine ⟨x, hnext, hqueue, fun i hi => ?_, hframes⟩
  have himage' : some i = some x := hi.symm.trans himage
  exact Option.some.inj himage'

/-- **The simulation**: a statement that is due takes the camera to the next phase. -/
lemma In.exec {p q : Phase} {op : CameraOp} {buffer : Fin frameBufferCount} (h : c.In p)
    (hnext : Phase.next op p = some q) (hblocks : ¬ c.Blocks op buffer) (frame : ℕ) :
    (c.exec op buffer frame).In q := by
  cases op <;> cases p <;> cases hnext
  · exact h.dequeueBuffer hblocks frame
  · exact h.setImg buffer frame
  · exact h.enqueueBuffer buffer frame
  · exact h.swapBuffers buffer frame

/-- The image is not queued, whatever the phase. -/
lemma In.image_notMem {p : Phase} (h : c.In p) {i : Fin frameBufferCount}
    (hi : c.image = some i) : i ∉ c.camera.queue := by
  cases p with
  | ready =>
    obtain ⟨p, -, hqueue, himage, -⟩ := h
    rw [hqueue, himage i hi]
    simp
  | dequeued =>
    obtain ⟨p, x, -, -, -, hqueue, himage, -⟩ := h
    rw [hqueue, himage i hi]
    simp
  | shown =>
    obtain ⟨p, x, -, -, -, hqueue, himage, -⟩ := h
    have hix : i = x := Option.some.inj (hi.symm.trans himage)
    rw [hqueue, hix]
    simp
  | enqueued =>
    obtain ⟨x, -, hqueue, himage, -⟩ := h
    have hix : i = x := Option.some.inj (hi.symm.trans himage)
    rw [hqueue, hix]
    simp

/-- At most one frame has been dequeued and not shown. -/
lemma In.frames {p : Phase} (h : c.In p) :
    c.dequeued = c.shown ∨ ∃ frame, c.dequeued = c.shown ++ [frame] := by
  cases p with
  | ready =>
    obtain ⟨p, -, -, -, hframes⟩ := h
    exact Or.inl hframes
  | dequeued =>
    obtain ⟨p, x, -, -, -, -, -, hframes⟩ := h
    exact Or.inr ⟨_, hframes⟩
  | shown =>
    obtain ⟨p, x, -, -, -, -, -, hframes⟩ := h
    exact Or.inl hframes
  | enqueued =>
    obtain ⟨x, -, -, -, hframes⟩ := h
    exact Or.inl hframes

/-- After `updateBuffers` a camera is ready. -/
lemma in_ready_updateBuffers (w : NaoCamera.WarmUp) :
    In ⟨NaoCamera.init.updateBuffers w, none, [], []⟩ .ready := by
  refine ⟨w.second, rfl, ?_, nofun, rfl⟩
  show insert w.first ((Finset.univ.erase w.first).erase w.second) = {w.second}ᶜ
  have hne := w.ne
  ext i
  simp only [Finset.mem_insert, Finset.mem_erase, Finset.mem_univ, and_true, Finset.mem_compl,
    Finset.mem_singleton]
  constructor
  · rintro (rfl | ⟨hi, -⟩)
    · exact hne
    · exact hi
  · intro hi
    by_cases hfirst : i = w.first
    · exact Or.inl hfirst
    · exact Or.inr ⟨hi, hfirst⟩

end Channel

/-! ## Every interleaving -/

/-- The event that comes as the `n`-th one, counted from zero. -/
def turn (n : ℕ) : CaptureEvent := if n % 2 = 0 then .dequeue else .requeue

/-- The first `n` events when dequeues and requeues alternate. -/
def alternation (n : ℕ) : List CaptureEvent := (List.range n).map turn

/-- The statements that are left take the cameras from these phases, with these flags, to where the
mutex is free and the event `e` is next: every statement about a camera is due. -/
def Accepts (e : CaptureEvent) :
    List Statement → (CameraType → Phase) → Bool → Bool → Prop
  | [], phases, requeued, dequeued =>
    match e with
    | .dequeue => requeued = true ∧ dequeued = false ∧ ∀ type, phases type = .ready
    | .requeue => requeued = false ∧ dequeued = true ∧ ∀ type, phases type = .dequeued
  | .camera op type :: rest, phases, requeued, dequeued =>
    ∃ q, Phase.next op (phases type) = some q ∧
      Accepts e rest (Function.update phases type q) requeued dequeued
  | .setRequeued value :: rest, phases, _, dequeued => Accepts e rest phases value dequeued
  | .setDequeued value :: rest, phases, requeued, _ => Accepts e rest phases requeued value

/-- An iteration of the thread takes two ready cameras to dequeued ones. -/
lemma accepts_dequeueIteration {phases : CameraType → Phase} (h : ∀ type, phases type = .ready)
    (requeued dequeued : Bool) :
    Accepts .requeue dequeueIteration phases requeued dequeued := by
  obtain rfl : phases = fun _ => .ready := funext h
  refine ⟨.dequeued, rfl, .dequeued, rfl, rfl, rfl, fun type => ?_⟩
  cases type <;> rfl

/-- A call of `requeue()` takes two dequeued cameras to ready ones. -/
lemma accepts_requeueCall {phases : CameraType → Phase} (h : ∀ type, phases type = .dequeued)
    (requeued dequeued : Bool) :
    Accepts .dequeue requeueCall phases requeued dequeued := by
  obtain rfl : phases = fun _ => .dequeued := funext h
  refine ⟨.shown, rfl, .shown, rfl, .enqueued, rfl, .enqueued, rfl, .ready, rfl, .ready, rfl, rfl,
    rfl, fun type => ?_⟩
  cases type <;> rfl

namespace ImageCapture

/-- What holds at every statement: each camera is in some phase, what is left to do is due, and the
events so far alternate. -/
def CaptureInvariant (s : ImageCapture) : Prop :=
  ∃ (phases : CameraType → Phase) (n : ℕ),
    (∀ type, (s.channel type).In (phases type)) ∧ s.history = alternation n ∧
      Accepts (turn n) s.running phases s.bufferRequeued s.bufferDequeued

/-- One event more. -/
lemma alternation_succ (n : ℕ) : alternation (n + 1) = alternation n ++ [turn n] := by
  rw [alternation, List.range_succ, List.map_append]
  rfl

/-- Events take turns. -/
lemma turn_succ (n : ℕ) : turn (n + 1) = if turn n = .dequeue then .requeue else .dequeue := by
  rw [turn, turn]
  by_cases hn : n % 2 = 0
  · have hsucc : ¬ (n + 1) % 2 = 0 := by omega
    simp only [hn, hsucc, if_true, if_false]
  · have hsucc : (n + 1) % 2 = 0 := by omega
    simp only [hn, hsucc, if_true, if_false, reduceCtorEq]

/-- **The step lemma**, a statement of the holder of the mutex. -/
lemma CaptureInvariant.proceed {s : ImageCapture} (h : s.CaptureInvariant)
    (buffer : Fin frameBufferCount) (frame : ℕ) :
    (s.proceed buffer frame).CaptureInvariant := by
  obtain ⟨phases, n, hphases, hhistory, haccepts⟩ := h
  rw [ImageCapture.proceed]
  cases hrunning : s.running with
  | nil => exact ⟨phases, n, hphases, hhistory, haccepts⟩
  | cons statement rest =>
    rw [hrunning] at haccepts
    cases statement with
    | camera op type =>
      simp only []
      split
      · exact ⟨phases, n, hphases, hhistory, hrunning ▸ haccepts⟩
      next hblocks =>
        obtain ⟨q, hnext, hrest⟩ := haccepts
        refine ⟨Function.update phases type q, n, fun other => ?_, hhistory, hrest⟩
        by_cases hother : other = type
        · subst hother
          simp only [Function.update_self]
          exact (hphases other).exec hnext hblocks frame
        · simp only [Function.update_of_ne hother]
          exact hphases other
    | setRequeued value => exact ⟨phases, n, hphases, hhistory, haccepts⟩
    | setDequeued value => exact ⟨phases, n, hphases, hhistory, haccepts⟩

/-- **The step lemma** for every move. -/
lemma CaptureInvariant.step {s : ImageCapture} (h : s.CaptureInvariant) (a : CaptureAct) :
    (step a s).CaptureInvariant := by
  cases a with
  | enterDequeue =>
    rw [ImageCapture.step]
    split
    next henter =>
      obtain ⟨phases, n, hphases, hhistory, haccepts⟩ := h
      rw [henter.1, henter.2] at haccepts
      cases hturn : turn n with
      | dequeue =>
        rw [hturn] at haccepts
        refine ⟨phases, n + 1, hphases, ?_, ?_⟩
        · show s.history ++ [.dequeue] = alternation (n + 1)
          rw [alternation_succ, hturn, hhistory]
        · rw [turn_succ, hturn, if_pos rfl]
          exact accepts_dequeueIteration haccepts.2.2 _ _
      | requeue =>
        rw [hturn] at haccepts
        exact absurd haccepts.1 nofun
    next => exact h
  | enterRequeue =>
    rw [ImageCapture.step]
    split
    next henter =>
      obtain ⟨phases, n, hphases, hhistory, haccepts⟩ := h
      rw [henter.1, henter.2] at haccepts
      cases hturn : turn n with
      | dequeue =>
        rw [hturn] at haccepts
        exact absurd haccepts.2.1 nofun
      | requeue =>
        rw [hturn] at haccepts
        refine ⟨phases, n + 1, hphases, ?_, ?_⟩
        · show s.history ++ [.requeue] = alternation (n + 1)
          rw [alternation_succ, hturn, hhistory]
        · rw [turn_succ, hturn, if_neg nofun]
          exact accepts_requeueCall haccepts.2.2 _ _
    next => exact h
  | proceed buffer frame => exact h.proceed buffer frame

/-- The invariant holds after `initVision`. -/
lemma captureInvariant_initVision (warmUp : CameraType → NaoCamera.WarmUp) :
    (initVision warmUp).CaptureInvariant :=
  ⟨fun _ => .ready, 0, fun type => Channel.in_ready_updateBuffers (warmUp type), rfl, rfl, rfl,
    fun _ => rfl⟩

/-! ## What the invariant says of the buffers -/

/-- At a statement about a camera, the camera is in the phase for which the statement is due. -/
lemma CaptureInvariant.due {s : ImageCapture} (h : s.CaptureInvariant) {op : CameraOp}
    {type : CameraType} {rest : List Statement} (hrunning : s.running = .camera op type :: rest) :
    ∃ p q, Phase.next op p = some q ∧ (s.channel type).In p := by
  obtain ⟨phases, n, hphases, -, haccepts⟩ := h
  rw [hrunning] at haccepts
  obtain ⟨q, hnext, -⟩ := haccepts
  exact ⟨phases type, q, hnext, hphases type⟩

/-- When the mutex is free, the flags say in which phase both cameras are. -/
lemma CaptureInvariant.free {s : ImageCapture} (h : s.CaptureInvariant) (hfree : s.running = []) :
    (s.bufferRequeued = true ∧ s.bufferDequeued = false ∧ ∀ type, (s.channel type).In .ready) ∨
      s.bufferRequeued = false ∧ s.bufferDequeued = true ∧
        ∀ type, (s.channel type).In .dequeued := by
  obtain ⟨phases, n, hphases, -, haccepts⟩ := h
  rw [hfree] at haccepts
  cases hturn : turn n with
  | dequeue =>
    rw [hturn] at haccepts
    obtain ⟨hrequeued, hdequeued, hready⟩ := haccepts
    exact Or.inl ⟨hrequeued, hdequeued, fun type => hready type ▸ hphases type⟩
  | requeue =>
    rw [hturn] at haccepts
    obtain ⟨hrequeued, hdequeued, hwaiting⟩ := haccepts
    exact Or.inr ⟨hrequeued, hdequeued, fun type => hwaiting type ▸ hphases type⟩

/-- Ownership of the buffers in a state. -/
structure BuffersOwned (s : ImageCapture) : Prop where
  /-- Dequeues and requeues have alternated, and a dequeue was the first. -/
  alternate : ∃ n, s.history = alternation n
  /-- A buffer that is about to be given back is not queued. -/
  enqueue : ∀ type rest, s.running = .camera .enqueueBuffer type :: rest →
    (s.channel type).camera.CanEnqueue
  /-- A buffer is there when it is about to be shown. -/
  next : ∀ type rest, s.running = .camera .setImg type :: rest →
    ∃ i, (s.channel type).camera.nextBuf = some i
  /-- The buffer that is shown is not queued. -/
  image : ∀ type i, (s.channel type).image = some i → i ∉ (s.channel type).camera.queue
  /-- The frames have been shown in the order of their dequeues, but possibly for the last one. -/
  frames : ∀ type, (s.channel type).dequeued = (s.channel type).shown ∨
    ∃ frame, (s.channel type).dequeued = (s.channel type).shown ++ [frame]
  /-- After a call of `requeue()` all frames have been shown, each one once. -/
  requeued : s.running = [] → s.bufferRequeued = true →
    ∀ type, (s.channel type).dequeued = (s.channel type).shown
  /-- After an iteration of the thread there is one frame more to show. -/
  dequeued : s.running = [] → s.bufferDequeued = true →
    ∀ type, ∃ frame, (s.channel type).dequeued = (s.channel type).shown ++ [frame]

/-- The invariant is enough for ownership. -/
lemma CaptureInvariant.buffersOwned {s : ImageCapture} (h : s.CaptureInvariant) :
    s.BuffersOwned where
  alternate := by
    obtain ⟨-, n, -, hhistory, -⟩ := h
    exact ⟨n, hhistory⟩
  enqueue := by
    intro type rest hrunning
    obtain ⟨p, q, hnext, hin⟩ := h.due hrunning
    cases p <;> cases hnext
    obtain ⟨p, x, -, hprev, -, hqueue, -, -⟩ := hin
    refine ⟨p, hprev, ?_⟩
    rw [hqueue]
    simp
  next := by
    intro type rest hrunning
    obtain ⟨p, q, hnext, hin⟩ := h.due hrunning
    cases p <;> cases hnext
    obtain ⟨p, x, -, -, hnextBuf, -, -, -⟩ := hin
    exact ⟨x, hnextBuf⟩
  image := by
    intro type i hi
    obtain ⟨phases, n, hphases, -, -⟩ := h
    exact (hphases type).image_notMem hi
  frames := by
    intro type
    obtain ⟨phases, n, hphases, -, -⟩ := h
    exact (hphases type).frames
  requeued := by
    intro hfree hflag type
    rcases h.free hfree with ⟨-, -, hready⟩ | ⟨hrequeued, -, -⟩
    · obtain ⟨p, -, -, -, hframes⟩ := hready type
      exact hframes
    · rw [hrequeued] at hflag
      exact absurd hflag nofun
  dequeued := by
    intro hfree hflag type
    rcases h.free hfree with ⟨-, hdequeued, -⟩ | ⟨-, -, hwaiting⟩
    · rw [hdequeued] at hflag
      exact absurd hflag nofun
    · obtain ⟨p, x, -, -, -, -, -, hframes⟩ := hwaiting type
      exact ⟨_, hframes⟩

/-- **The camera buffers are owned by one side at a time.**  Whatever buffers the driver returns and
however the iterations of the thread and the calls of `requeue()` interleave, ownership holds at
every statement after `initVision`, and the buffer that `updateBuffers` gives back is not queued. -/
theorem buffersOwned_initVision (warmUp : CameraType → NaoCamera.WarmUp)
    (acts : List CaptureAct) :
    (∀ type, ((NaoCamera.init.dequeueBuffer (warmUp type).first
        (warmUp type).firstFrame).swapBuffers.dequeueBuffer (warmUp type).second
          (warmUp type).secondFrame).CanEnqueue) ∧
      (run step (initVision warmUp) acts).BuffersOwned := by
  constructor
  · intro type
    refine ⟨(warmUp type).first, rfl, ?_⟩
    show (warmUp type).first ∉
      (Finset.univ.erase (warmUp type).first).erase (warmUp type).second
    simp
  · have hrun : (run step (initVision warmUp) acts).CaptureInvariant :=
      run_preserves (I := CaptureInvariant) (fun a _ h => h.step a)
        (captureInvariant_initVision warmUp) acts
    exact hrun.buffersOwned

end ImageCapture

end NaoSoccer
