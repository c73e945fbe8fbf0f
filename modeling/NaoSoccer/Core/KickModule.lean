import NaoSoccer.Core.Blocks
import NaoSoccer.Foundation.LabelledRun
import Mathlib.Data.Int.Notation

/-!
# The kick

`KickModule` plays a sequence of keyframes.  In the state `Initial` it moves from where the joints
are to the first keyframe, in the state `Running` from one keyframe to the next.  The joints are
commanded once for each move, at its beginning; then the module counts the frames of the move.
`performKick` calls itself when a move is over, so moves of no frames are passed over in one call.

The sequence is loaded when a kick begins.  If this fails the module has no sequence and does
nothing: it stays in the state `Initial`, with `kick_running_` set, and as it is not finished it
does not try again.

What is played is arbitrary: `P` is the type of the angles of all joints.
-/

namespace NaoSoccer

/-- `KickModule::KickState` -/
inductive KickState
  | initial
  | running
  | finished
  deriving DecidableEq, Repr

/-- A `Keyframe` -/
structure Keyframe (P : Type) where
  joints : P
  frames : ℤ

/-- What a call writes to the joint commands: all stiffnesses, or the angles of all joints and the
time in milliseconds to reach them. -/
inductive JointWrite (P : Type)
  | stiffness (value : ℕ) (time : ℕ)
  | pose (time : ℤ) (joints : P)

/-- The state of `KickModule`, with `kick_running_` of the kick request. -/
structure KickModule (P : Type) where
  state : KickState
  sequence : Option (List (Keyframe P))
  initial : Option (Keyframe P)
  frames : ℕ
  keyframe : ℕ
  kickRunning : Bool

/-- What a call reads: the kick request, the outcome of `KeyframeSequence::load` and the angles of
the joints. -/
structure KickFrame (P : Type) where
  kickType : KickType
  load : Option (List (Keyframe P))
  joints : P

namespace KickModule

variable {P : Type}

/-- `KickModule::initStiffness` -/
def initStiffness : JointWrite P := .stiffness 1 10

/-- `KickModule::start`, but for `initStiffness` -/
def start (f : KickFrame P) (m : KickModule P) : KickModule P :=
  { m with
    state := .initial
    kickRunning := true
    keyframe := 0
    frames := 0
    sequence := f.load
    initial := some ⟨f.joints, 0⟩ }

/-- `KickModule::finish` -/
def finish (m : KickModule P) : KickModule P :=
  { m with state := .finished, kickRunning := false, initial := none, sequence := none }

/-- `KickModule::moveBetweenKeyframes`.  Where the move begins is only printed. -/
def moveBetweenKeyframes (_ finish : Keyframe P) (cframe : ℕ) : List (JointWrite P) :=
  if cframe = 0 then [.pose (finish.frames * 10) finish.joints] else []

/-- `KickModule::moveToInitial` -/
def moveToInitial (initial : Option (Keyframe P)) (keyframe : Keyframe P) (cframe : ℕ) :
    List (JointWrite P) :=
  match initial with
  | none => []
  | some initial => moveBetweenKeyframes initial keyframe cframe

/-- `KickModule::performKick` in the state `Running`, from `keyframe` on with the keyframes behind
it.  The call of `performKick` in it sets the stiffness again. -/
def performRunning (keyframe : Keyframe P) :
    List (Keyframe P) → KickModule P → KickModule P × List (JointWrite P)
  | [], m => (m.finish, [])
  | next :: rest, m =>
    if (m.frames : ℤ) ≥ next.frames then
      let (m, writes) := performRunning next rest { m with keyframe := m.keyframe + 1, frames := 0 }
      (m, initStiffness :: writes)
    else ({ m with frames := m.frames + 1 }, moveBetweenKeyframes keyframe next m.frames)

/-- `KickModule::performKick` behind the test whether there is a keyframe -/
def performKeyframe (keyframe : Keyframe P) (rest : List (Keyframe P)) (m : KickModule P) :
    KickModule P × List (JointWrite P) :=
  if m.state = .initial then
    if (m.frames : ℤ) ≥ keyframe.frames then
      performRunning keyframe rest { m with state := .running, frames := 0 }
    else ({ m with frames := m.frames + 1 }, moveToInitial m.initial keyframe m.frames)
  else performRunning keyframe rest m

/-- `KickModule::performKick` -/
def performKick (m : KickModule P) : KickModule P × List (JointWrite P) :=
  if m.state = .finished then (m, [initStiffness])
  else match m.sequence with
    | none => (m, [initStiffness])
    | some keyframes =>
      match keyframes.drop m.keyframe with
      | [] => (m.finish, [initStiffness])
      | keyframe :: rest =>
        let (m, writes) := performKeyframe keyframe rest m
        (m, initStiffness :: writes)

/-- The first half of `KickModule::processFrame` -/
def startIfAsked (f : KickFrame P) (m : KickModule P) : KickModule P × List (JointWrite P) :=
  if f.kickType = .straight && m.state = .finished then (m.start f, [initStiffness]) else (m, [])

/-- `KickModule::processFrame` -/
def processFrame (f : KickFrame P) (m : KickModule P) : KickModule P × List (JointWrite P) :=
  let (m, begun) := startIfAsked f m
  if m.state = .initial || m.state = .running then
    let (m, writes) := performKick { m with kickRunning := true }
    (m, begun ++ writes)
  else (m, begun)

/-- The module after `KickModule::initSpecificModule`. -/
def construct : KickModule P := ⟨.finished, none, none, 0, 0, false⟩

/-- The call of `performKick` in itself is one of the whole function. -/
lemma performRunning_eq_performKick {keyframes : List (Keyframe P)} {keyframe next : Keyframe P}
    {rest : List (Keyframe P)} {m : KickModule P} (hstate : m.state = .running)
    (hsequence : m.sequence = some keyframes)
    (hdrop : keyframes.drop m.keyframe = keyframe :: next :: rest)
    (hframes : (m.frames : ℤ) ≥ next.frames) :
    performRunning keyframe (next :: rest) m =
      performKick { m with keyframe := m.keyframe + 1, frames := 0 } := by
  have hnext : keyframes.drop (m.keyframe + 1) = next :: rest := by
    rw [← List.drop_drop, hdrop]
    rfl
  rw [performRunning, if_pos hframes]
  simp [performKick, performKeyframe, hstate, hsequence, hnext]

/-! ## Calls -/

/-- A module that is not finished does not begin another kick. -/
lemma processFrame_of_ne {m : KickModule P} (h : m.state ≠ .finished) (f : KickFrame P) :
    m.processFrame f = performKick { m with kickRunning := true } := by
  have hstart : startIfAsked f m = (m, []) := by simp [startIfAsked, h]
  have hstate : (m.state = .initial || m.state = .running) = true := by
    cases hm : m.state with
    | initial => rfl
    | running => rfl
    | finished => exact absurd hm h
  unfold processFrame
  rw [hstart]
  simp only [if_pos hstate, List.nil_append]

lemma processFrame_of_straight {m : KickModule P} {f : KickFrame P}
    (hfinished : m.state = .finished) (hkick : f.kickType = .straight) :
    m.processFrame f = ((m.start f).performKick.1, initStiffness :: (m.start f).performKick.2) := by
  have hstart : startIfAsked f m = (m.start f, [initStiffness]) := by
    simp [startIfAsked, hfinished, hkick]
  unfold processFrame
  rw [hstart]
  rfl

/-- A finished module stays as it is until it is asked for a kick. -/
lemma processFrame_of_finished {m : KickModule P} {f : KickFrame P}
    (hfinished : m.state = .finished) (hkick : f.kickType ≠ .straight) :
    m.processFrame f = (m, []) := by
  simp [processFrame, startIfAsked, hfinished, hkick]

/-! ## Kicks that cannot be loaded -/

/-- A kick that is not over can proceed, and `kick_running_` says whether there is one. -/
structure CanProceed (m : KickModule P) : Prop where
  sequence_ne : m.state ≠ .finished → m.sequence ≠ none ∧ m.initial ≠ none
  kickRunning_iff : m.kickRunning = true ↔ m.state ≠ .finished

/-- A kick that begins in this call can be loaded. -/
def Loads (f : KickFrame P) (m : KickModule P) : Prop :=
  f.kickType = .straight → m.state = .finished → f.load ≠ none

lemma canProceed_of_finished {m : KickModule P} (hstate : m.state = .finished)
    (hrunning : m.kickRunning = false) : CanProceed m := by
  refine ⟨fun h => absurd hstate h, ?_⟩
  rw [hrunning]
  exact iff_of_false Bool.false_ne_true fun h => h hstate

lemma canProceed_performRunning (rest : List (Keyframe P)) {keyframe : Keyframe P}
    {m : KickModule P} (hstate : m.state = .running) (h : CanProceed m) :
    CanProceed (performRunning keyframe rest m).1 := by
  induction rest generalizing keyframe m with
  | nil => exact canProceed_of_finished rfl rfl
  | cons next rest ih =>
    rw [performRunning]
    split
    · exact ih (m := { m with keyframe := m.keyframe + 1, frames := 0 }) hstate
        ⟨h.sequence_ne, h.kickRunning_iff⟩
    · exact ⟨h.sequence_ne, h.kickRunning_iff⟩

/-- A call of `performKick` keeps what a kick needs, or the kick is over. -/
lemma CanProceed.performKick {m : KickModule P} (h : CanProceed m) :
    CanProceed m.performKick.1 := by
  unfold KickModule.performKick
  split
  case isTrue => exact h
  case isFalse hne =>
    split
    case h_1 => exact h
    case h_2 keyframes hsequence =>
      split
      case h_1 => exact canProceed_of_finished rfl rfl
      case h_2 keyframe rest hdrop =>
        change CanProceed (performKeyframe keyframe rest m).1
        have hrunning : m.kickRunning = true := h.kickRunning_iff.mpr hne
        unfold performKeyframe
        split
        case isTrue hinitial =>
          split
          · apply canProceed_performRunning rest rfl
            exact ⟨fun _ => h.sequence_ne hne, iff_of_true hrunning KickState.noConfusion⟩
          · exact ⟨h.sequence_ne, h.kickRunning_iff⟩
        case isFalse hinitial =>
          apply canProceed_performRunning rest _ h
          cases hstate : m.state with
          | initial => exact absurd hstate hinitial
          | running => rfl
          | finished => exact absurd hstate hne

/-- One call, as a step. -/
def step (f : KickFrame P) (m : KickModule P) : KickModule P := (m.processFrame f).1

/-- A call keeps `CanProceed` exactly if a kick that begins in it can be loaded. -/
lemma canProceed_step_iff (f : KickFrame P) {m : KickModule P} (h : CanProceed m) :
    CanProceed (step f m) ↔ Loads f m := by
  unfold step
  by_cases hfinished : m.state = .finished
  · by_cases hkick : f.kickType = .straight
    · rw [processFrame_of_straight hfinished hkick]
      by_cases hload : f.load = none
      · -- without a sequence the call leaves the kick as `start` has begun it
        have hperform : (m.start f).performKick = (m.start f, [initStiffness]) := by
          simp [performKick, start, hload]
        rw [hperform]
        refine iff_of_false (fun hproceed => ?_) fun hloads => hloads hkick hfinished hload
        exact (hproceed.sequence_ne KickState.noConfusion).1 hload
      · refine iff_of_true ?_ fun _ _ => hload
        apply CanProceed.performKick
        exact ⟨fun _ => ⟨hload, Option.some_ne_none _⟩, iff_of_true rfl KickState.noConfusion⟩
    · rw [processFrame_of_finished hfinished hkick]
      exact iff_of_true h fun hstraight => absurd hstraight hkick
  · rw [processFrame_of_ne hfinished]
    refine iff_of_true ?_ fun _ hstate => absurd hstate hfinished
    apply CanProceed.performKick
    exact ⟨h.sequence_ne, iff_of_true rfl hfinished⟩

/-- Without a sequence a kick never ends, and nothing is commanded but the stiffness. -/
lemma processFrame_of_no_sequence {m : KickModule P} (hstate : m.state = .initial)
    (hsequence : m.sequence = none) (f : KickFrame P) :
    m.processFrame f = ({ m with kickRunning := true }, [initStiffness]) := by
  rw [processFrame_of_ne (by rw [hstate]; exact KickState.noConfusion)]
  simp [performKick, hstate, hsequence]

/-- A kick that could not be loaded blocks the module for good. -/
theorem blocked_of_no_sequence {m : KickModule P} (hstate : m.state = .initial)
    (hsequence : m.sequence = none) (calls : List (KickFrame P)) :
    (LabelledRun.run step m calls).state = .initial ∧
      (LabelledRun.run step m calls).sequence = none := by
  apply LabelledRun.run_preserves
    (I := fun m : KickModule P => m.state = .initial ∧ m.sequence = none) _ ⟨hstate, hsequence⟩
  intro f m h
  unfold step
  rw [processFrame_of_no_sequence h.1 h.2]
  exact h

/-- **After all calls of a run a kick can proceed exactly if every kick that begins in the run can
be loaded.** -/
theorem canProceed_iff_loads (calls : List (KickFrame P)) :
    (∀ pre, pre <+: calls → CanProceed (LabelledRun.run step construct pre)) ↔
      LabelledRun.Guarded step Loads construct calls := by
  apply LabelledRun.forall_prefix_iff_guarded
  · exact fun f m h => canProceed_step_iff f h
  · exact canProceed_of_finished rfl rfl

/-- The kick is asked for once, and it cannot be loaded. -/
def failedLoad : List (KickFrame ℕ) := [⟨.straight, none, 0⟩]

theorem not_canProceed_failedLoad :
    ¬ ∀ pre, pre <+: failedLoad → CanProceed (LabelledRun.run step construct pre) := by
  intro h
  have hproceed := h failedLoad List.prefix_rfl
  exact (hproceed.sequence_ne KickState.noConfusion).1 rfl

end KickModule

end NaoSoccer
