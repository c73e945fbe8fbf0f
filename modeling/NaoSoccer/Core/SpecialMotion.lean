import NaoSoccer.Foundation.Decimal
import Mathlib.Algebra.Order.BigOperators.Group.List
import Mathlib.Algebra.Order.Field.Basic
import Mathlib.Algebra.Order.Field.Rat
import Mathlib.Data.List.Range
import Mathlib.Order.Interval.Set.UnorderedInterval
import Mathlib.Tactic.IntervalCases
import Mathlib.Tactic.Linarith
import Mathlib.Tactic.NormNum
import Mathlib.Tactic.Positivity
import Mathlib.Tactic.Ring

/-!
# Special motions

A special motion is a list of entries with durations.  When it is loaded an entry of no duration is
put before the others, and the durations become cumulative times.  `executeMotionSequence` finds
the two entries that the time in the state lies between, and interpolates.

`getCurrentFrame` looks for an entry whose time is still to come, and takes entry 1 if there is none.
`isMotionDoneExecuting` asks for a time past that of the last entry.  So exactly at the end of the
motion no entry is found and the motion is not done: then entry 1 is taken, and the interpolation
runs out of it unless all entries end there.

Times are exact numbers; `J` is the type of the joints.
-/

namespace NaoSoccer

open ExactDecimal

/-- `Motions::motionType` -/
inductive MotionType
  | null
  | hardness
  | jointAngle
  deriving DecidableEq, Repr

/-- A `SpecialMotion` -/
structure SpecialMotion (K J : Type) where
  mType : MotionType
  time : K
  jointMotions : J → K

/-- `SpecialMotionModule::State`, but for the states of the getup -/
inductive SpecialMotionState
  | initial
  | execute
  | wait
  | finished
  | noEscape
  deriving DecidableEq, Repr

/-- What a frame writes to the joint commands. -/
inductive MotionWrite (K J : Type)
  | stiffness (time : K) (stiffness : J → K)
  | angles (time : K) (angles : J → K)

/-- The state of `SpecialMotionModule`; `motion` is the list of the current motion. -/
structure SpecialMotionModule (K J : Type) where
  motion : List (SpecialMotion K J)
  state : SpecialMotionState
  stateStartTime : K
  storedAngles : J → K
  storedCommands : J → K

variable {K J : Type} [Field K] [LinearOrder K]

namespace SpecialMotion

/-- `VOID_NUM` -/
def voidNum : K := -(720 : ℕ)

/-- `SpecialMotion(Motions::null)` -/
def nullMotion : SpecialMotion K J := ⟨.jointAngle, 0, fun _ => voidNum⟩

/-- `SpecialMotionModule::isVoidNum` -/
def isVoidNum (val : K) : Bool := val - voidNum < 1 && -(val - voidNum) < 1

/-- `SpecialMotionModule::isValueValid` -/
def isValueValid (val : K) : Bool := val > -(3 : ℕ) && val < (3 : ℕ)

/-- `timeConv` in `SpecialMotionModule::loadMotionFiles`: milliseconds to seconds -/
def timeConv : K := decimal 1 1000

/-- The units of an entry are converted. -/
def convertUnits (degToRad : K) (m : SpecialMotion K J) : SpecialMotion K J :=
  match m.mType with
  | .null => m
  | .hardness => { m with jointMotions := fun j => m.jointMotions j / (100 : ℕ) }
  | .jointAngle =>
    let angle : J → K := fun j =>
      if isVoidNum (m.jointMotions j) then m.jointMotions j else m.jointMotions j * degToRad
    { m with jointMotions := angle }

/-- The times of the entries behind one with the cumulative time `last`. -/
def addTimes (last : K) : List (SpecialMotion K J) → List (SpecialMotion K J)
  | [] => []
  | m :: motion =>
    { m with time := m.time * timeConv + last } :: addTimes (m.time * timeConv + last) motion

/-- `SpecialMotionModule::loadMotionFiles`, for the entries that `ParseMotionFile` has read -/
def loadMotion (degToRad : K) (parsed : List (SpecialMotion K J)) : List (SpecialMotion K J) :=
  let first : SpecialMotion K J := convertUnits degToRad nullMotion
  { first with time := first.time * timeConv } ::
    addTimes (first.time * timeConv) (parsed.map (convertUnits degToRad))

/-- `motion[i].time` -/
def timeAt (motion : List (SpecialMotion K J)) (i : ℕ) : K :=
  (motion[i]?.map SpecialMotion.time).getD 0

/-- `SpecialMotionModule::getCurrentFrame` -/
def getCurrentFrame (motion : List (SpecialMotion K J)) (timeInState : K) : ℕ :=
  ((List.range' 1 (motion.length - 1)).find? fun i => timeInState < timeAt motion i).getD 1

/-- `motion.back().time` -/
def backTime (motion : List (SpecialMotion K J)) : K := timeAt motion (motion.length - 1)

/-- `SpecialMotionModule::isMotionDoneExecuting` -/
def isMotionDoneExecuting (motion : List (SpecialMotion K J)) (timeInState : K) : Bool :=
  timeInState > backTime motion

/-- `frameFrac` in `SpecialMotionModule::executeMotionSequence` -/
def frameFrac (motion : List (SpecialMotion K J)) (timeInState : K) : K :=
  let curr := getCurrentFrame motion timeInState
  (timeInState - timeAt motion (curr - 1)) / (timeAt motion curr - timeAt motion (curr - 1))

end SpecialMotion

namespace SpecialMotionModule

open SpecialMotion

/-- `SpecialMotionModule::transitionToState` -/
def transitionToState (now : K) (nstate : SpecialMotionState) (s : SpecialMotionModule K J) :
    SpecialMotionModule K J :=
  { s with state := nstate, stateStartTime := now }

/-- `SpecialMotionModule::processJointCommands`: no joint is moved by more than `maxMove` at once. -/
def processJointCommands (maxMove time : K) (angles : J → K) (s : SpecialMotionModule K J) :
    SpecialMotionModule K J × List (MotionWrite K J) :=
  let commands : J → K := fun j =>
    let delta := angles j - s.storedCommands j
    if delta > maxMove then s.storedCommands j + maxMove
    else if -delta > maxMove then s.storedCommands j - maxMove
    else angles j
  ({ s with storedCommands := commands },
    [.stiffness time fun _ => 1, .angles time commands])

/-- `SpecialMotionModule::processJointHardness` -/
def processJointHardness (time : K) (stiffness : J → K) : List (MotionWrite K J) :=
  if time = 0 then []
  else [.stiffness time fun j =>
    if stiffness j < 0 || stiffness j > 1 then 1 else stiffness j]

/-- The angle that a joint is to have, and the one that is stored for it. -/
def jointAngle (prev curr : SpecialMotion K J) (frac : K) (value stored : J → K) (j : J) : K × K :=
  if !isValueValid (curr.jointMotions j) then (value j, value j)
  else if prev.mType ≠ .jointAngle || !isValueValid (prev.jointMotions j) then
    (stored j + frac * (curr.jointMotions j - stored j), stored j)
  else
    (prev.jointMotions j + frac * (curr.jointMotions j - prev.jointMotions j), stored j)

/-- `SpecialMotionModule::executeMotionSequence`; `values` are the angles of the joints. -/
def executeMotionSequence (maxMove timeInState : K) (values : J → K)
    (s : SpecialMotionModule K J) : SpecialMotionModule K J × List (MotionWrite K J) :=
  let s := if timeInState < decimal 15 1000 then
    { s with storedAngles := values, storedCommands := values } else s
  let i := getCurrentFrame s.motion timeInState
  match s.motion[i]?, s.motion[i - 1]? with
  | some curr, some prev =>
    match curr.mType with
    | .hardness => (s, processJointHardness 1 curr.jointMotions)
    | .jointAngle =>
      let angles := jointAngle prev curr (frameFrac s.motion timeInState) values s.storedAngles
      processJointCommands maxMove 1 (fun j => (angles j).1)
        { s with storedAngles := fun j => (angles j).2 }
    | .null => (s, [])
  -- the motion has no such entry
  | _, _ => (s, [])

/-- `SpecialMotionModule::processFrame` -/
def processFrame (maxMove now : K) (values : J → K) (s : SpecialMotionModule K J) :
    SpecialMotionModule K J × List (MotionWrite K J) :=
  match s.state with
  | .initial => (transitionToState now .execute s, [.stiffness (10 : ℕ) fun _ => 1])
  | .execute =>
    if isMotionDoneExecuting s.motion (now - s.stateStartTime) then
      (transitionToState now .wait s, [])
    else executeMotionSequence maxMove (now - s.stateStartTime) values s
  | .wait =>
    (if now - s.stateStartTime > decimal 5 10 then transitionToState now .finished s else s, [])
  | .finished => (s, [])
  | .noEscape => (s, [])

end SpecialMotionModule

/-! ## Times -/

namespace SpecialMotion

variable {degToRad timeInState : K} {motion parsed : List (SpecialMotion K J)}

@[simp] lemma convertUnits_time (m : SpecialMotion K J) :
    (convertUnits degToRad m).time = m.time := by
  unfold convertUnits
  split <;> rfl

omit [LinearOrder K] in
lemma length_addTimes (last : K) (motion : List (SpecialMotion K J)) :
    (addTimes last motion).length = motion.length := by
  induction motion generalizing last with
  | nil => rfl
  | cons m motion ih => rw [addTimes, List.length_cons, ih, List.length_cons]

lemma length_loadMotion (degToRad : K) (parsed : List (SpecialMotion K J)) :
    (loadMotion degToRad parsed).length = parsed.length + 1 := by
  rw [loadMotion, List.length_cons, length_addTimes, List.length_map]

/-- The sum of the durations of the first `i` entries, in seconds. -/
def elapsed (parsed : List (SpecialMotion K J)) (i : ℕ) : K :=
  ((parsed.take i).map SpecialMotion.time).sum * timeConv

omit [LinearOrder K] in
lemma timeAt_addTimes (first : SpecialMotion K J) (motion : List (SpecialMotion K J)) {i : ℕ}
    (hi : i ≤ motion.length) :
    timeAt (first :: addTimes first.time motion) i = first.time + elapsed motion i := by
  induction motion generalizing first i with
  | nil =>
    obtain rfl : i = 0 := Nat.le_zero.mp hi
    simp [timeAt, elapsed]
  | cons m motion ih =>
    cases i with
    | zero => simp [timeAt, elapsed]
    | succ i =>
      have htail := ih { m with time := m.time * timeConv + first.time } (Nat.le_of_succ_le_succ hi)
      rw [addTimes]
      calc timeAt _ (i + 1) = _ := htail
        _ = _ := by
          simp only [elapsed, List.take_succ_cons, List.map_cons, List.sum_cons]
          ring

/-- The time of an entry is the sum of the durations up to it. -/
lemma timeAt_loadMotion {i : ℕ} (hi : i ≤ parsed.length) :
    timeAt (loadMotion degToRad parsed) i = elapsed parsed i := by
  have hzero : (convertUnits degToRad (nullMotion : SpecialMotion K J)).time * timeConv = 0 := by
    rw [convertUnits_time]
    exact zero_mul _
  unfold loadMotion
  rw [timeAt_addTimes _ _ (by rwa [List.length_map]), hzero, zero_add]
  simp [elapsed, ← List.map_take, Function.comp_def]

/-! ## The frame of the interpolation -/

/-- While an entry is still to come, the first such entry is found. -/
lemma getCurrentFrame_of_lt {i : ℕ} (hpos : 1 ≤ i) (hi : i < motion.length)
    (hlt : timeInState < timeAt motion i) :
    1 ≤ getCurrentFrame motion timeInState ∧
      getCurrentFrame motion timeInState < motion.length ∧
      timeInState < timeAt motion (getCurrentFrame motion timeInState) ∧
      ∀ j, 1 ≤ j → j < getCurrentFrame motion timeInState → timeAt motion j ≤ timeInState := by
  have hfound : ∃ curr, ((List.range' 1 (motion.length - 1)).find?
      fun i => timeInState < timeAt motion i) = some curr := by
    rw [← Option.isSome_iff_exists, List.find?_isSome]
    exact ⟨i, List.mem_range'_1.mpr ⟨hpos, by omega⟩, decide_eq_true hlt⟩
  obtain ⟨curr, hcurr⟩ := hfound
  have hframe : getCurrentFrame motion timeInState = curr := by rw [getCurrentFrame, hcurr]; rfl
  obtain ⟨hbefore, hmem, hfirst⟩ := List.find?_range'_eq_some.mp hcurr
  have hrange := List.mem_range'_1.mp hmem
  rw [hframe]
  refine ⟨hrange.1, by omega, of_decide_eq_true hbefore, fun j hj hjcurr => ?_⟩
  have hnot := hfirst j hj hjcurr
  rwa [Bool.not_eq_true', decide_eq_false_iff_not, not_lt] at hnot

/-- If no entry is still to come, entry 1 is taken. -/
lemma getCurrentFrame_of_forall (h : ∀ i, 1 ≤ i → i < motion.length →
    timeAt motion i ≤ timeInState) : getCurrentFrame motion timeInState = 1 := by
  have hnone : ((List.range' 1 (motion.length - 1)).find?
      fun i => timeInState < timeAt motion i) = none := by
    rw [List.find?_range'_eq_none]
    intro i hi hlt
    rw [Bool.not_eq_true', decide_eq_false_iff_not, not_lt]
    exact h i hi (by omega)
  rw [getCurrentFrame, hnone]
  rfl

/-- The interpolation is inside the frame that is found. -/
structure InsideFrame (motion : List (SpecialMotion K J)) (timeInState : K) (curr : ℕ) : Prop where
  one_le : 1 ≤ curr
  lt_length : curr < motion.length
  prev_le : timeAt motion (curr - 1) ≤ timeInState
  le_curr : timeInState ≤ timeAt motion curr
  prev_lt : timeAt motion (curr - 1) < timeAt motion curr

variable [IsStrictOrderedRing K]

/-- Inside a frame the fraction is one. -/
lemma InsideFrame.frameFrac_mem
    (h : InsideFrame motion timeInState (getCurrentFrame motion timeInState)) :
    0 ≤ frameFrac motion timeInState ∧ frameFrac motion timeInState ≤ 1 := by
  have hpos := sub_pos.mpr h.prev_lt
  unfold frameFrac
  dsimp only
  refine ⟨div_nonneg (sub_nonneg.mpr h.prev_le) hpos.le, ?_⟩
  rw [div_le_one hpos]
  exact sub_le_sub_right h.le_curr _

lemma timeConv_pos : (0 : K) < timeConv := by
  unfold timeConv
  apply decimal_pos <;> decide

/-- No entry is later than the last one. -/
lemma elapsed_le (hnonneg : ∀ m ∈ parsed, 0 ≤ m.time) (i : ℕ) :
    elapsed parsed i ≤ elapsed parsed parsed.length := by
  apply mul_le_mul_of_nonneg_right _ timeConv_pos.le
  have hsplit : (parsed.map SpecialMotion.time).sum =
      ((parsed.take i).map SpecialMotion.time).sum +
        ((parsed.drop i).map SpecialMotion.time).sum := by
    rw [← List.sum_append, ← List.map_append, List.take_append_drop]
  have hrest : 0 ≤ ((parsed.drop i).map SpecialMotion.time).sum := by
    apply List.sum_nonneg
    intro time htime
    obtain ⟨m, hm, rfl⟩ := List.mem_map.mp htime
    exact hnonneg m (List.mem_of_mem_drop hm)
  rw [List.take_length, hsplit]
  exact le_add_of_nonneg_right hrest

lemma elapsed_pos (hnonneg : ∀ m ∈ parsed, 0 ≤ m.time) (hpos : ∃ m ∈ parsed, 0 < m.time) :
    0 < elapsed parsed parsed.length := by
  obtain ⟨m, hm, htime⟩ := hpos
  apply mul_pos _ timeConv_pos
  have hle := List.single_le_sum (l := parsed.map SpecialMotion.time)
    (fun time hmem => by
      obtain ⟨m', hm', rfl⟩ := List.mem_map.mp hmem
      exact hnonneg m' hm') m.time (List.mem_map_of_mem hm)
  rw [List.take_length]
  exact htime.trans_le hle

omit [IsStrictOrderedRing K] in
lemma backTime_loadMotion (degToRad : K) (parsed : List (SpecialMotion K J)) :
    backTime (loadMotion degToRad parsed) = elapsed parsed parsed.length := by
  unfold backTime
  rw [length_loadMotion, Nat.add_sub_cancel, timeAt_loadMotion le_rfl]

omit [IsStrictOrderedRing K] in
/-- Before the end of the motion. -/
lemma insideFrame_of_lt (hne : parsed ≠ []) (ht : 0 ≤ timeInState)
    (hlt : timeInState < backTime (loadMotion degToRad parsed)) :
    InsideFrame (loadMotion degToRad parsed) timeInState
      (getCurrentFrame (loadMotion degToRad parsed) timeInState) := by
  have hlength := length_loadMotion degToRad parsed
  have hpos : 1 ≤ parsed.length := List.length_pos_iff.mpr hne
  have hlast : timeInState < timeAt (loadMotion degToRad parsed) parsed.length := by
    rwa [timeAt_loadMotion le_rfl, ← backTime_loadMotion degToRad]
  obtain ⟨hone, hcurr, hbefore, hfirst⟩ := getCurrentFrame_of_lt hpos (by omega) hlast
  have hprev : timeAt (loadMotion degToRad parsed)
      (getCurrentFrame (loadMotion degToRad parsed) timeInState - 1) ≤ timeInState := by
    rcases Nat.eq_or_lt_of_le hone with heq | hgt
    · rw [← heq, Nat.sub_self, timeAt_loadMotion (Nat.zero_le _), elapsed, List.take_zero]
      simpa using ht
    · exact hfirst _ (by omega) (by omega)
  exact ⟨hone, hcurr, hprev, hbefore.le, hprev.trans_lt hbefore⟩

/-- **While a motion is executed the interpolation is inside its frame, but at the very end of the
motion only if entry 1 ends there too.** -/
theorem insideFrame_iff (degToRad : K) (parsed : List (SpecialMotion K J))
    (hnonneg : ∀ m ∈ parsed, 0 ≤ m.time) (hpos : ∃ m ∈ parsed, 0 < m.time) (timeInState : K)
    (ht : 0 ≤ timeInState)
    (hdone : isMotionDoneExecuting (loadMotion degToRad parsed) timeInState = false) :
    (InsideFrame (loadMotion degToRad parsed) timeInState
        (getCurrentFrame (loadMotion degToRad parsed) timeInState) ∧
      0 ≤ frameFrac (loadMotion degToRad parsed) timeInState ∧
      frameFrac (loadMotion degToRad parsed) timeInState ≤ 1) ↔
    (timeInState = backTime (loadMotion degToRad parsed) →
      timeAt (loadMotion degToRad parsed) 1 = backTime (loadMotion degToRad parsed)) := by
  have hne : parsed ≠ [] := by
    rintro rfl
    obtain ⟨m, hm, -⟩ := hpos
    exact List.not_mem_nil hm
  have hle : timeInState ≤ backTime (loadMotion degToRad parsed) := by
    rwa [isMotionDoneExecuting, decide_eq_false_iff_not, gt_iff_lt, not_lt] at hdone
  have hback := backTime_loadMotion degToRad parsed
  have htimes {i : ℕ} (hi : i ≤ parsed.length) :
      timeAt (loadMotion degToRad parsed) i ≤ backTime (loadMotion degToRad parsed) := by
    rw [timeAt_loadMotion hi, hback]
    exact elapsed_le hnonneg i
  rcases hle.lt_or_eq with hlt | heq
  · have hinside := insideFrame_of_lt hne ht hlt
    exact iff_of_true ⟨hinside, hinside.frameFrac_mem⟩ fun heq => absurd heq hlt.ne
  · have hlength := length_loadMotion degToRad parsed
    have hcurr : getCurrentFrame (loadMotion degToRad parsed) timeInState = 1 := by
      apply getCurrentFrame_of_forall
      intro i _ hi
      rw [heq]
      exact htimes (by omega)
    have hzero : timeAt (loadMotion degToRad parsed) 0 = 0 := by
      rw [timeAt_loadMotion (Nat.zero_le _), elapsed]
      simp
    have hone : 1 ≤ parsed.length := List.length_pos_iff.mpr hne
    constructor
    · intro h _
      have hlast := h.1.le_curr
      rw [hcurr, heq] at hlast
      exact le_antisymm (htimes hone) hlast
    · intro h
      have hinside : InsideFrame (loadMotion degToRad parsed) timeInState
          (getCurrentFrame (loadMotion degToRad parsed) timeInState) := by
        rw [hcurr]
        refine ⟨le_rfl, by omega, ?_, ?_, ?_⟩
        · rwa [Nat.sub_self, hzero]
        · exact hle.trans (h heq).ge
        · rw [Nat.sub_self, hzero, h heq, hback]
          exact elapsed_pos hnonneg hpos
      exact ⟨hinside, hinside.frameFrac_mem⟩

/-- An interpolation with a fraction between zero and one stays between its ends. -/
lemma interpolation_mem {frac : K} (h₀ : 0 ≤ frac) (h₁ : frac ≤ 1) (a b : K) :
    a + frac * (b - a) ∈ Set.uIcc a b := by
  rcases le_total a b with hab | hab
  · rw [Set.uIcc_of_le hab]
    have hpart : 0 ≤ frac * (b - a) := mul_nonneg h₀ (sub_nonneg.mpr hab)
    have hrest : 0 ≤ (1 - frac) * (b - a) :=
      mul_nonneg (sub_nonneg.mpr h₁) (sub_nonneg.mpr hab)
    exact ⟨by linarith, by linarith⟩
  · rw [Set.uIcc_of_ge hab]
    have hpart : 0 ≤ frac * (a - b) := mul_nonneg h₀ (sub_nonneg.mpr hab)
    have hrest : 0 ≤ (1 - frac) * (a - b) :=
      mul_nonneg (sub_nonneg.mpr h₁) (sub_nonneg.mpr hab)
    exact ⟨by linarith, by linarith⟩

/-- Inside its frame the interpolation gives no joint an angle beyond those of its entries. -/
theorem InsideFrame.jointAngle_mem
    (h : InsideFrame motion timeInState (getCurrentFrame motion timeInState))
    (prev curr : SpecialMotion K J) (value stored : J → K) {j : J}
    (hvalid : isValueValid (curr.jointMotions j) = true) :
    (SpecialMotionModule.jointAngle prev curr (frameFrac motion timeInState) value stored j).1 ∈
        Set.uIcc (stored j) (curr.jointMotions j) ∨
      (SpecialMotionModule.jointAngle prev curr (frameFrac motion timeInState) value stored j).1 ∈
        Set.uIcc (prev.jointMotions j) (curr.jointMotions j) := by
  obtain ⟨h₀, h₁⟩ := h.frameFrac_mem
  unfold SpecialMotionModule.jointAngle
  rw [hvalid]
  split
  case isTrue hnot => exact absurd hnot Bool.false_ne_true
  case isFalse =>
    split
    · exact .inl (interpolation_mem h₀ h₁ _ _)
    · exact .inr (interpolation_mem h₀ h₁ _ _)

/-- An entry for no joints. -/
def entry (time : ℚ) : SpecialMotion ℚ Empty := ⟨.jointAngle, time, Empty.elim⟩

/-- Two moves of a second each. -/
def twoSeconds : List (SpecialMotion ℚ Empty) := loadMotion 1 [entry 1000, entry 1000]

lemma timeAt_twoSeconds {i : ℕ} (hi : i ≤ 2) : timeAt twoSeconds i = i := by
  unfold twoSeconds
  rw [timeAt_loadMotion hi]
  unfold elapsed timeConv decimal entry
  interval_cases i <;> norm_num

lemma backTime_twoSeconds : backTime twoSeconds = 2 := timeAt_twoSeconds (le_refl 2)

theorem insideFrame_iff_twoSeconds : InsideFrame twoSeconds 1 (getCurrentFrame twoSeconds 1) := by
  have hdone : isMotionDoneExecuting twoSeconds 1 = false := by
    rw [isMotionDoneExecuting, backTime_twoSeconds, decide_eq_false_iff_not]
    norm_num
  refine ((insideFrame_iff 1 [entry 1000, entry 1000] ?_ ⟨_, List.mem_cons_self, ?_⟩ 1 ?_
    hdone).mpr ?_).1
  · intro m hm
    obtain rfl : m = entry 1000 := by simpa using hm
    unfold entry
    norm_num
  · unfold entry
    norm_num
  · exact zero_le_one
  · intro h
    have hback : (1 : ℚ) = 2 := h.trans backTime_twoSeconds
    norm_num at hback

/-- At the end of the two seconds entry 1 is taken, which ends after the first. -/
theorem not_insideFrame_twoSeconds :
    isMotionDoneExecuting twoSeconds 2 = false ∧
      ¬ InsideFrame twoSeconds 2 (getCurrentFrame twoSeconds 2) := by
  have hcurr : getCurrentFrame twoSeconds 2 = 1 := by
    apply getCurrentFrame_of_forall
    intro i _ hi
    have hle : i ≤ 2 := Nat.lt_succ_iff.mp hi
    rw [timeAt_twoSeconds hle]
    exact_mod_cast hle
  constructor
  · rw [isMotionDoneExecuting, backTime_twoSeconds, decide_eq_false_iff_not]
    exact lt_irrefl 2
  · intro h
    have hlast := h.le_curr
    rw [hcurr, timeAt_twoSeconds (by omega)] at hlast
    norm_num at hlast

end SpecialMotion

end NaoSoccer
