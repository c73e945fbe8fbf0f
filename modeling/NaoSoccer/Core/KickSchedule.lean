import NaoSoccer.Core.KickModule
import NaoSoccer.Foundation.TimedPlan

/-!
# The schedule of a kick

The moves to the keyframes of a kick are played one after the other, each for the frames of its
keyframe: what a call commands is a tick of the plan of these moves.  A kick that begins in call 1
is over in the call after the last tick.
-/

namespace NaoSoccer

open TimedPlan

namespace KickModule

variable {P : Type}

/-! ## The moves of a kick -/

/-- The move to a keyframe: its duration, and what it commands. -/
def move (keyframe : Keyframe P) : ℕ × ℤ × P :=
  (keyframe.frames.toNat, keyframe.frames * 10, keyframe.joints)

/-- The moves to the keyframes. -/
def moves (keyframes : List (Keyframe P)) : List (ℕ × ℤ × P) := keyframes.map move

/-- The angles that a call commands. -/
def poses (writes : List (JointWrite P)) : List (ℤ × P) :=
  writes.filterMap fun
    | .stiffness _ _ => none
    | .pose time joints => some (time, joints)

/-- The number of the call in which the move to keyframe `i` begins. -/
def callOf (keyframes : List (Keyframe P)) (i : ℕ) : ℕ :=
  1 + ((keyframes.take i).map fun keyframe => keyframe.frames.toNat).sum

/-- The number of calls in which a kick is running. -/
def duration (keyframes : List (Keyframe P)) : ℕ :=
  (keyframes.map fun keyframe => keyframe.frames.toNat).sum

lemma total_moves (keyframes : List (Keyframe P)) :
    total (moves keyframes) = duration keyframes := by
  simp [total, moves, move, duration, Function.comp_def]

lemma begins_moves (keyframes : List (Keyframe P)) (i : ℕ) :
    callOf keyframes i = 1 + begins (moves keyframes) i := by
  simp [callOf, begins, total, moves, move, ← List.map_take, Function.comp_def]

/-- The module is in the middle of a kick, and `out` is what is left of it. -/
inductive Playing (m : KickModule P) (out : List (Option (ℤ × P))) : Prop
  | initial (keyframe : Keyframe P) (rest : List (Keyframe P)) (hstate : m.state = .initial)
      (hsequence : m.sequence = some (keyframe :: rest)) (hkeyframe : m.keyframe = 0)
      (hinitial : m.initial ≠ none) (hframes : m.frames ≤ keyframe.frames.toNat)
      (hout : out = (plan (moves (keyframe :: rest))).drop m.frames)
  | running (keyframes : List (Keyframe P)) (keyframe : Keyframe P) (rest : List (Keyframe P))
      (hstate : m.state = .running) (hsequence : m.sequence = some keyframes)
      (hdrop : keyframes.drop m.keyframe = keyframe :: rest)
      (hframes : ∀ next ∈ rest.head?, m.frames ≤ next.frames.toNat)
      (hout : out = (plan (moves rest)).drop m.frames)

/-- A call has commanded what comes first in `out`, and the rest of it is left; if nothing comes the
kick is over. -/
def Continues (result : KickModule P × List (JointWrite P)) : List (Option (ℤ × P)) → Prop
  | [] => result.1.state = .finished ∧ result.1.kickRunning = false ∧ poses result.2 = []
  | pose :: out =>
    Playing result.1 out ∧ result.1.kickRunning = true ∧ poses result.2 = pose.toList

lemma poses_initStiffness (writes : List (JointWrite P)) :
    poses (initStiffness :: writes) = poses writes := rfl

lemma poses_moveBetweenKeyframes (start next : Keyframe P) (cframe : ℕ) :
    poses (moveBetweenKeyframes start next cframe) =
      (if cframe = 0 then some (next.frames * 10, next.joints) else none).toList := by
  unfold moveBetweenKeyframes
  split <;> rfl

lemma Continues.initStiffness {m : KickModule P} {writes : List (JointWrite P)}
    {out : List (Option (ℤ × P))} (h : Continues (m, writes) out) :
    Continues (m, KickModule.initStiffness :: writes) out := by
  cases out with
  | nil => exact h
  | cons pose out => exact h

/-- A call in the state `Running`. -/
lemma continues_performRunning {keyframes : List (Keyframe P)} (rest : List (Keyframe P))
    {keyframe : Keyframe P} {m : KickModule P} (hstate : m.state = .running)
    (hrunning : m.kickRunning = true) (hsequence : m.sequence = some keyframes)
    (hdrop : keyframes.drop m.keyframe = keyframe :: rest)
    (hframes : ∀ next ∈ rest.head?, m.frames ≤ next.frames.toNat) :
    Continues (performRunning keyframe rest m) ((plan (moves rest)).drop m.frames) := by
  induction rest generalizing keyframe m with
  | nil =>
    have hdone : (plan (moves ([] : List (Keyframe P)))).drop m.frames = [] := List.drop_nil
    rw [hdone]
    exact ⟨rfl, rfl, rfl⟩
  | cons next rest ih =>
    have hle : m.frames ≤ next.frames.toNat := hframes next rfl
    have hnext : keyframes.drop (m.keyframe + 1) = next :: rest := by
      rw [← List.drop_drop, hdrop]
      rfl
    rw [performRunning]
    by_cases hover : (m.frames : ℤ) ≥ next.frames
    · -- the move is over, and the next one begins in the same call
      have hframes : m.frames = (move next).1 := Nat.le_antisymm hle (Int.toNat_le.mpr hover)
      have hplan : (plan (moves (next :: rest))).drop m.frames = plan (moves rest) := by
        rw [hframes]
        exact drop_plan_cons (move next) (moves rest)
      rw [if_pos hover, hplan]
      exact (ih (m := { m with keyframe := m.keyframe + 1, frames := 0 }) hstate hrunning hsequence
        hnext fun _ _ => Nat.zero_le _).initStiffness
    · have hlt : m.frames < (move next).1 := Int.lt_toNat.mpr (Int.not_le.mp hover)
      have hplan := drop_plan_of_lt hlt (moves rest)
      rw [if_neg hover, moves, List.map_cons]
      rw [← moves, hplan]
      refine ⟨.running keyframes keyframe (next :: rest) hstate hsequence hdrop ?_ rfl, hrunning,
        poses_moveBetweenKeyframes keyframe next m.frames⟩
      intro next' hmem
      obtain rfl : next = next' := Option.some.inj hmem
      exact hlt

/-- A call in the state `Initial`. -/
lemma continues_performKeyframe {keyframe : Keyframe P} {rest : List (Keyframe P)}
    {m : KickModule P} (hstate : m.state = .initial) (hrunning : m.kickRunning = true)
    (hsequence : m.sequence = some (keyframe :: rest)) (hkeyframe : m.keyframe = 0)
    (hinitial : m.initial ≠ none) (hframes : m.frames ≤ keyframe.frames.toNat) :
    Continues (performKeyframe keyframe rest m)
      ((plan (moves (keyframe :: rest))).drop m.frames) := by
  rw [performKeyframe, if_pos hstate]
  by_cases hover : (m.frames : ℤ) ≥ keyframe.frames
  · have hframes : m.frames = (move keyframe).1 := Nat.le_antisymm hframes (Int.toNat_le.mpr hover)
    have hplan : (plan (moves (keyframe :: rest))).drop m.frames = plan (moves rest) := by
      rw [hframes]
      exact drop_plan_cons (move keyframe) (moves rest)
    rw [if_pos hover, hplan]
    apply continues_performRunning rest (m := { m with state := .running, frames := 0 }) rfl
      hrunning hsequence
    · rw [hkeyframe]
      rfl
    · exact fun _ _ => Nat.zero_le _
  · have hlt : m.frames < (move keyframe).1 := Int.lt_toNat.mpr (Int.not_le.mp hover)
    have hplan := drop_plan_of_lt hlt (moves rest)
    obtain ⟨initial, hsome⟩ := Option.ne_none_iff_exists'.mp hinitial
    rw [if_neg hover, moves, List.map_cons]
    rw [← moves, hplan, hsome]
    exact ⟨.initial keyframe rest hstate hsequence hkeyframe (Option.some_ne_none initial) hlt rfl,
      hrunning, poses_moveBetweenKeyframes initial keyframe m.frames⟩

/-- A call in the middle of a kick. -/
lemma Playing.performKick {m : KickModule P} {out : List (Option (ℤ × P))} (h : Playing m out)
    (hrunning : m.kickRunning = true) : Continues m.performKick out := by
  cases h with
  | initial keyframe rest hstate hsequence hkeyframe hinitial hframes hout =>
    subst hout
    have hcall := continues_performKeyframe hstate hrunning hsequence hkeyframe hinitial hframes
    have hdrop : (keyframe :: rest).drop m.keyframe = keyframe :: rest := by rw [hkeyframe]; rfl
    rw [KickModule.performKick, if_neg (by rw [hstate]; exact KickState.noConfusion), hsequence]
    simp only [hdrop]
    exact hcall.initStiffness
  | running keyframes keyframe rest hstate hsequence hdrop hframes hout =>
    subst hout
    have hcall := continues_performRunning rest hstate hrunning hsequence hdrop hframes
    have hperform : performKeyframe keyframe rest m = performRunning keyframe rest m := by
      rw [performKeyframe, if_neg (by rw [hstate]; exact KickState.noConfusion)]
    rw [KickModule.performKick, if_neg (by rw [hstate]; exact KickState.noConfusion), hsequence]
    simp only [hdrop, hperform]
    exact hcall.initStiffness

lemma Playing.state_ne {m : KickModule P} {out : List (Option (ℤ × P))} (h : Playing m out) :
    m.state ≠ .finished := by
  cases h with
  | initial _ _ hstate => rw [hstate]; exact KickState.noConfusion
  | running _ _ _ hstate => rw [hstate]; exact KickState.noConfusion

/-- `kick_running_` is no part of what is left of a kick. -/
lemma Playing.setRunning {m : KickModule P} {out : List (Option (ℤ × P))} (h : Playing m out) :
    Playing { m with kickRunning := true } out := by
  cases h with
  | initial keyframe rest hstate hsequence hkeyframe hinitial hframes hout =>
    exact .initial keyframe rest hstate hsequence hkeyframe hinitial hframes hout
  | running keyframes keyframe rest hstate hsequence hdrop hframes hout =>
    exact .running keyframes keyframe rest hstate hsequence hdrop hframes hout

/-- A call in the middle of a kick. -/
lemma Playing.processFrame {m : KickModule P} {out : List (Option (ℤ × P))} (h : Playing m out)
    (f : KickFrame P) : Continues (m.processFrame f) out := by
  rw [processFrame_of_ne h.state_ne]
  exact h.setRunning.performKick rfl

/-- The call that begins a kick. -/
lemma continues_start {m : KickModule P} {f : KickFrame P} {keyframes : List (Keyframe P)}
    (hfinished : m.state = .finished) (hkick : f.kickType = .straight)
    (hload : f.load = some keyframes) :
    Continues (m.processFrame f) (plan (moves keyframes)) := by
  rw [processFrame_of_straight hfinished hkick]
  apply Continues.initStiffness
  cases keyframes with
  | nil =>
    have hperform : (m.start f).performKick = ((m.start f).finish, [initStiffness]) := by
      simp [performKick, start, hload]
    rw [hperform]
    exact ⟨rfl, rfl, rfl⟩
  | cons keyframe rest =>
    have hplaying : Playing (m.start f) (plan (moves (keyframe :: rest))) :=
      .initial keyframe rest rfl hload rfl (Option.some_ne_none _) (Nat.zero_le _) rfl
    exact hplaying.performKick rfl

/-! ## Runs -/

section Run

variable (calls : ℕ → KickFrame P) (m : KickModule P)

/-- The module after `n` calls. -/
def after : ℕ → KickModule P
  | 0 => m
  | n + 1 => ((after n).processFrame (calls n)).1

/-- The angles that call `n` commands; the first call has the number 1. -/
def commands : ℕ → List (ℤ × P)
  | 0 => []
  | n + 1 => poses ((after calls m n).processFrame (calls n)).2

variable {calls m} {keyframes : List (Keyframe P)}

/-- Call by call, the plan of the moves is played. -/
lemma continues_call (hfinished : m.state = .finished) (hkick : (calls 0).kickType = .straight)
    (hload : (calls 0).load = some keyframes) {n : ℕ} (hn : n ≤ duration keyframes) :
    Continues ((after calls m n).processFrame (calls n)) ((plan (moves keyframes)).drop n) := by
  induction n with
  | zero => exact continues_start hfinished hkick hload
  | succ n ih =>
    have hlt : n < (plan (moves keyframes)).length := by
      rw [length_plan, total_moves]
      exact hn
    have hcall := ih (Nat.le_of_succ_le hn)
    rw [List.drop_eq_getElem_cons hlt] at hcall
    exact hcall.1.processFrame (calls (n + 1))

/-- A call that belongs to the plan. -/
lemma commands_of_plan (hfinished : m.state = .finished) (hkick : (calls 0).kickType = .straight)
    (hload : (calls 0).load = some keyframes) {n : ℕ} {pose : Option (ℤ × P)}
    (hpose : (plan (moves keyframes))[n]? = some pose) :
    commands calls m (n + 1) = pose.toList ∧ (after calls m (n + 1)).kickRunning = true := by
  obtain ⟨hlt, hget⟩ := List.getElem?_eq_some_iff.mp hpose
  have hn : n ≤ duration keyframes := by
    rw [← total_moves, ← length_plan]
    exact Nat.le_of_lt hlt
  have hcall := continues_call hfinished hkick hload hn
  rw [List.drop_eq_getElem_cons hlt, hget] at hcall
  exact ⟨hcall.2.2, hcall.2.1⟩

/-- After the plan the module is finished, and it stays so. -/
lemma after_plan (hfinished : m.state = .finished) (hload : (calls 0).load = some keyframes)
    (hkick : ∀ n, (calls n).kickType = .straight ↔ n = 0) {n : ℕ} (hn : duration keyframes ≤ n) :
    (after calls m (n + 1)).state = .finished ∧ (after calls m (n + 1)).kickRunning = false ∧
      commands calls m (n + 1) = [] := by
  induction hn with
  | refl =>
    have hlength : (plan (moves keyframes)).length ≤ duration keyframes :=
      Nat.le_of_eq ((length_plan _).trans (total_moves keyframes))
    have hcall := continues_call hfinished ((hkick 0).mpr rfl) hload (Nat.le_refl _)
    rwa [List.drop_eq_nil_of_le hlength] at hcall
  | @step n _ ih =>
    have hcall := processFrame_of_finished ih.1 (f := calls (n + 1))
      fun hstraight => Nat.succ_ne_zero n ((hkick (n + 1)).mp hstraight)
    rw [commands, after, hcall]
    exact ⟨ih.1, ih.2.1, rfl⟩

lemma getElem?_moves (i : ℕ) : (moves keyframes)[i]? = keyframes[i]?.map move :=
  List.getElem?_map

variable (calls m)

/-- A kick is played on schedule. -/
structure PlayedOnSchedule (keyframes : List (Keyframe P)) : Prop where
  commanded : ∀ i keyframe, keyframes[i]? = some keyframe → 0 < keyframe.frames →
    commands calls m (callOf keyframes i) = [(10 * keyframe.frames, keyframe.joints)]
  silent : ∀ n, (∀ i keyframe, keyframes[i]? = some keyframe → 0 < keyframe.frames →
    n ≠ callOf keyframes i) → commands calls m n = []
  running : ∀ n, 1 ≤ n → n ≤ duration keyframes → (after calls m n).kickRunning = true
  finished : (after calls m (duration keyframes + 1)).state = .finished ∧
    (after calls m (duration keyframes + 1)).kickRunning = false

end Run

/-- Three keyframes, the second of them of no frames. -/
def threeKeyframes : List (Keyframe ℕ) := [⟨1, 2⟩, ⟨2, 0⟩, ⟨3, 4⟩]

/-- The calls of a kick that is asked for once. -/
def oneKick (n : ℕ) : KickFrame ℕ where
  kickType := if n = 0 then .straight else .noKick
  load := some threeKeyframes
  joints := 0

end KickModule

end NaoSoccer
