import Mathlib.Algebra.Order.Field.Basic
import Mathlib.Algebra.Order.Field.Rat
import Mathlib.Tactic.Linarith
import Mathlib.Tactic.NormNum

/-!
# The rules of the behavior simulator

`stepCheckGoal` counts a ball behind the goal line and puts it back to the center, and
`stepCheckBounds` puts a ball that has left the field back onto it.

The goals are counted alike for both teams.  A ball that is out is not put back alike: at the
sideline only the kick of the red team leads to a free kick, and at the endline the next kick-off
is never ours, whoever kicked the ball.

Coordinates are exact numbers, and `now` is what `time(NULL)` gives.  The text `simInfo` and the
places of the robots are not part of the state.
-/

namespace NaoSoccer

namespace Simulation

/-- `Point2D` -/
@[ext] structure Point2D (K : Type*) where
  x : K
  y : K

/-- `enum TEAMS` -/
inductive Teams
  | blue
  | red
  deriving DecidableEq

/-- The opponents of a team. -/
def Teams.other : Teams → Teams
  | .blue => .red
  | .red => .blue

/-- `State` of `States.h` -/
inductive State
  | undefinedState
  | initial
  | ready
  | set
  | playing
  | testing
  | penalised
  | finished
  | falling
  | bottomCam
  | topCam
  | testOdometry
  | manualControl
  deriving DecidableEq

/-- What the rules read and write of `BehaviorSimulation`, of the `GameStateBlock` of its cache and
of the ball. -/
@[ext] structure BehaviorSimulation (K : Type*) where
  ballLoc : Point2D K
  ballVel : Point2D K
  lastKick : Teams
  lastKickX : K
  simBlueScore : ℤ
  simRedScore : ℤ
  simTimer : K
  simPenaltyKick : Bool
  ballClearedFromCircle : Bool
  ourKickOff : Bool
  ourScore : ℤ
  opponentScore : ℤ
  isFreeKick : Bool
  isFreeKickTypeGoal : Bool
  state : State
  prevstate : State
  stateStartTime : ℤ

variable {K : Type*} [Field K]

/-- `FIELD_X` -/
def FIELD_X : K := ((3000 : ℕ) : K)

/-- `FIELD_Y` -/
def FIELD_Y : K := ((2000 : ℕ) : K)

/-- `GOAL_Y` -/
def GOAL_Y : K := ((500 : ℕ) : K)

/-- `PENALTY_X` -/
def PENALTY_X : K := ((600 : ℕ) : K)

/-- `PENALTY_CROSS_X` -/
def PENALTY_CROSS_X : K := FIELD_X / ((2 : ℕ) : K) - ((1300 : ℕ) : K)

/-- The center of the field, and no velocity. -/
def Point2D.zero : Point2D K := ⟨0, 0⟩

namespace BehaviorSimulation

/-- `BehaviorSimulation::setSimScore` -/
def setSimScore (blue : Bool) (s : BehaviorSimulation K) : BehaviorSimulation K :=
  let s := if blue then { s with simBlueScore := s.simBlueScore + 1 }
    else { s with simRedScore := s.simRedScore + 1 }
  { s with ourScore := s.simBlueScore, opponentScore := s.simRedScore }

/-- `changeSimulationState(READY)`, with `GameStateBlock::setState` -/
def changeSimulationReady (now : ℤ) (s : BehaviorSimulation K) : BehaviorSimulation K :=
  let s := if State.ready ≠ s.state then
    { s with stateStartTime := now, prevstate := s.state, state := .ready } else s
  { s with ballClearedFromCircle := false }

/-- `BehaviorSimulation::doPenaltyKickReset`, as far as the ball and the state go -/
def doPenaltyKickReset (now : ℤ) (s : BehaviorSimulation K) : BehaviorSimulation K :=
  let s := { s with ballLoc := ⟨PENALTY_CROSS_X, 0⟩, ballVel := .zero }
  let s := s.changeSimulationReady now
  { s with simTimer := ((5 : ℕ) : K) }

variable [LinearOrder K]

/-- The ball is in one of the goals. -/
def InGoal (s : BehaviorSimulation K) : Prop :=
  |s.ballLoc.x| > FIELD_X / ((2 : ℕ) : K) ∧ |s.ballLoc.y| < GOAL_Y / ((2 : ℕ) : K)

instance (s : BehaviorSimulation K) : Decidable s.InGoal := inferInstanceAs (Decidable (_ ∧ _))

/-- The branches of `stepCheckGoal` for the two goals. -/
def countGoal (s : BehaviorSimulation K) : BehaviorSimulation K :=
  if s.ballLoc.x > 0 then
    -- if from circle and our kickoff, not valid
    let s := if s.ourKickOff && !s.ballClearedFromCircle then s else s.setSimScore true
    { s with ourKickOff := false }
  else
    let s := if !s.ourKickOff && !s.ballClearedFromCircle then s else s.setSimScore false
    { s with ourKickOff := true }

/-- `BehaviorSimulation::stepCheckGoal` -/
def stepCheckGoal (now : ℤ) (s : BehaviorSimulation K) : BehaviorSimulation K :=
  if s.InGoal then
    let s := s.countGoal
    let s := { s with ballLoc := .zero, ballVel := .zero, simTimer := ((45 : ℕ) : K) }
    let s := s.changeSimulationReady now
    if s.simPenaltyKick then s.doPenaltyKickReset now else s
  else s

/-- The ball is being intentionally hidden. -/
def Hidden (s : BehaviorSimulation K) : Prop :=
  |s.ballLoc.x| ≥ ((9000 : ℕ) : K) ∧ |s.ballLoc.y| ≥ ((9000 : ℕ) : K)

instance (s : BehaviorSimulation K) : Decidable s.Hidden := inferInstanceAs (Decidable (_ ∧ _))

/-- The place of a ball that is put back, at the side that it is on. -/
def sideY (y : K) : K :=
  if y > 0 then FIELD_Y / ((2 : ℕ) : K) - ((400 : ℕ) : K)
  else -FIELD_Y / ((2 : ℕ) : K) + ((400 : ℕ) : K)

/-- The place of a free kick, at the side that the ball is on. -/
def freeKickY (y : K) : K := if y > 0 then GOAL_Y / ((2 : ℕ) : K) else -GOAL_Y / ((2 : ℕ) : K)

/-- The max and min values of `stepCheckBounds`. -/
def clampX (x : K) : K :=
  let x := if x < -((2000 : ℕ) : K) then -((2000 : ℕ) : K) else x
  if x > ((2000 : ℕ) : K) then ((2000 : ℕ) : K) else x

/-- The first part of `stepCheckBounds`: the sidelines. -/
def checkSideline (s : BehaviorSimulation K) : BehaviorSimulation K :=
  if |s.ballLoc.y| > FIELD_Y / ((2 : ℕ) : K) then
    let s := { s with ballVel := .zero, ballLoc := ⟨s.ballLoc.x, sideY s.ballLoc.y⟩ }
    let s := match s.lastKick with
      | .blue =>
        if s.ballLoc.x < s.lastKickX then
          { s with ballLoc := ⟨s.ballLoc.x - ((1000 : ℕ) : K), s.ballLoc.y⟩ }
        else { s with ballLoc := ⟨s.lastKickX - ((1000 : ℕ) : K), s.ballLoc.y⟩ }
      | .red =>
        { s with
          ballLoc := ⟨-PENALTY_X, freeKickY s.ballLoc.y⟩
          isFreeKick := true
          isFreeKickTypeGoal := true
          ourKickOff := true }
    { s with ballLoc := ⟨clampX s.ballLoc.x, s.ballLoc.y⟩ }
  else s

/-- The second part of `stepCheckBounds`: the endlines. -/
def checkEndline (s : BehaviorSimulation K) : BehaviorSimulation K :=
  if |s.ballLoc.x| > FIELD_X / ((2 : ℕ) : K) then
    let s := { s with ballVel := .zero, ballLoc := ⟨s.ballLoc.x, sideY s.ballLoc.y⟩ }
    match s.lastKick with
    | .blue =>
      { s with
        ballLoc := ⟨FIELD_X / ((2 : ℕ) : K) - PENALTY_X, freeKickY s.ballLoc.y⟩
        isFreeKick := true
        isFreeKickTypeGoal := true
        ourKickOff := false }
    | .red =>
      { s with
        ballLoc := ⟨-FIELD_X / ((2 : ℕ) : K) + PENALTY_X, freeKickY s.ballLoc.y⟩
        isFreeKick := true
        isFreeKickTypeGoal := true
        ourKickOff := false }
  else s

/-- `BehaviorSimulation::stepCheckBounds` -/
def stepCheckBounds (s : BehaviorSimulation K) : BehaviorSimulation K :=
  if s.Hidden then s else s.checkSideline.checkEndline

/-- The rules in the order of `simulationStep`. -/
def applyRules (now : ℤ) (s : BehaviorSimulation K) : BehaviorSimulation K :=
  (s.stepCheckGoal now).stepCheckBounds

/-! ## Swapping the teams -/

/-- The ball and `lastKickX` are rotated by half a turn, and `lastKick`, `ourKickOff` and the scores
are exchanged. -/
def swapTeams (s : BehaviorSimulation K) : BehaviorSimulation K :=
  { s with
    ballLoc := ⟨-s.ballLoc.x, -s.ballLoc.y⟩
    lastKick := s.lastKick.other
    lastKickX := -s.lastKickX
    simBlueScore := s.simRedScore
    simRedScore := s.simBlueScore
    ourKickOff := !s.ourKickOff
    ourScore := s.opponentScore
    opponentScore := s.ourScore }

/-- The ball is between the lines. -/
def OnField (s : BehaviorSimulation K) : Prop :=
  |s.ballLoc.x| ≤ FIELD_X / ((2 : ℕ) : K) ∧ |s.ballLoc.y| ≤ FIELD_Y / ((2 : ℕ) : K)

/-- **Fairness**: it is the same to apply the rules and to swap the teams, in either order. -/
def TreatsFairly (now : ℤ) (s : BehaviorSimulation K) : Prop :=
  s.swapTeams.applyRules now = (s.applyRules now).swapTeams

omit [LinearOrder K] in
/-- Swapped twice, everything is in its place again. -/
lemma swapTeams_swapTeams (s : BehaviorSimulation K) : s.swapTeams.swapTeams = s := by
  rcases s with ⟨ballLoc, ballVel, lastKick⟩
  cases lastKick <;> simp [swapTeams, Teams.other]

omit [LinearOrder K] in
/-- The state does not know the teams. -/
lemma changeSimulationReady_swapTeams (now : ℤ) (s : BehaviorSimulation K) :
    s.swapTeams.changeSimulationReady now = (s.changeSimulationReady now).swapTeams := by
  unfold changeSimulationReady
  by_cases h : State.ready ≠ s.state
  · have h' : State.ready ≠ s.swapTeams.state := h
    rw [if_pos h, if_pos h']
    rfl
  · have h' : ¬ State.ready ≠ s.swapTeams.state := h
    rw [if_neg h, if_neg h']
    rfl

/-- The goals lie opposite to each other. -/
lemma inGoal_swapTeams (s : BehaviorSimulation K) : s.swapTeams.InGoal ↔ s.InGoal := by
  unfold InGoal swapTeams
  rw [abs_neg, abs_neg]

/-- So do the places to hide at. -/
lemma hidden_swapTeams (s : BehaviorSimulation K) : s.swapTeams.Hidden ↔ s.Hidden := by
  unfold Hidden swapTeams
  rw [abs_neg, abs_neg]

/-- And the lines. -/
lemma onField_swapTeams (s : BehaviorSimulation K) : s.swapTeams.OnField ↔ s.OnField := by
  unfold OnField swapTeams
  rw [abs_neg, abs_neg]

variable [IsStrictOrderedRing K]

/-- A ball in a goal is not on the halfway line. -/
lemma InGoal.x_ne_zero {s : BehaviorSimulation K} (h : s.InGoal) : s.ballLoc.x ≠ 0 := by
  intro hzero
  have hx := h.1
  rw [hzero, abs_zero, FIELD_X] at hx
  norm_num at hx

/-- **The goals are counted alike.** -/
lemma countGoal_swapTeams {s : BehaviorSimulation K} (h : s.InGoal) :
    s.swapTeams.countGoal = s.countGoal.swapTeams := by
  rcases lt_or_gt_of_ne h.x_ne_zero with hneg | hpos
  · have hpos' : s.swapTeams.ballLoc.x > 0 := neg_pos.mpr hneg
    rw [countGoal, countGoal, if_pos hpos', if_neg (not_lt.mpr hneg.le)]
    rcases hkick : s.ourKickOff <;> rcases hclear : s.ballClearedFromCircle <;>
      simp [swapTeams, setSimScore, hkick, hclear]
  · have hneg' : ¬ s.swapTeams.ballLoc.x > 0 := not_lt.mpr (neg_nonpos.mpr hpos.le)
    rw [countGoal, countGoal, if_neg hneg', if_pos hpos]
    rcases hkick : s.ourKickOff <;> rcases hclear : s.ballClearedFromCircle <;>
      simp [swapTeams, setSimScore, hkick, hclear]

omit [IsStrictOrderedRing K] in
/-- What is left of `stepCheckGoal` when a goal has been counted. -/
lemma stepCheckGoal_of_inGoal (now : ℤ) {s : BehaviorSimulation K} (h : s.InGoal)
    (hpenalty : s.simPenaltyKick = false) :
    s.stepCheckGoal now =
      ({ s.countGoal with
        ballLoc := .zero, ballVel := .zero, simTimer := ((45 : ℕ) : K) } :
          BehaviorSimulation K).changeSimulationReady now := by
  have hkept : (({ s.countGoal with
      ballLoc := .zero, ballVel := .zero, simTimer := ((45 : ℕ) : K) } :
        BehaviorSimulation K).changeSimulationReady now).simPenaltyKick = false := by
    rw [← hpenalty]
    unfold changeSimulationReady countGoal setSimScore
    split_ifs <;> rfl
  rw [stepCheckGoal, if_pos h]
  simp only [hkept, Bool.false_eq_true, if_false]

/-- **`stepCheckGoal` treats the teams alike.** -/
lemma stepCheckGoal_swapTeams (now : ℤ) {s : BehaviorSimulation K}
    (hpenalty : s.simPenaltyKick = false) :
    s.swapTeams.stepCheckGoal now = (s.stepCheckGoal now).swapTeams := by
  by_cases h : s.InGoal
  · rw [stepCheckGoal_of_inGoal now h hpenalty,
      stepCheckGoal_of_inGoal now ((inGoal_swapTeams s).mpr h) hpenalty, countGoal_swapTeams h,
      ← changeSimulationReady_swapTeams]
    congr 1
    simp [swapTeams, Point2D.zero]
  · rw [stepCheckGoal, stepCheckGoal, if_neg h, if_neg (mt (inGoal_swapTeams s).mp h)]

/-! ## Where the ball is in play -/

omit [IsStrictOrderedRing K] in
/-- A ball between the lines stays where it is. -/
lemma stepCheckBounds_of_onField {s : BehaviorSimulation K} (h : s.OnField) :
    s.stepCheckBounds = s := by
  unfold stepCheckBounds
  split
  · rfl
  · rw [checkSideline, if_neg (not_lt.mpr h.2), checkEndline, if_neg (not_lt.mpr h.1)]

/-- After a goal the ball is at the center. -/
lemma onField_stepCheckGoal (now : ℤ) {s : BehaviorSimulation K} (h : s.InGoal)
    (hpenalty : s.simPenaltyKick = false) : (s.stepCheckGoal now).OnField := by
  rw [stepCheckGoal_of_inGoal now h hpenalty]
  have hcenter : ∀ t : BehaviorSimulation K,
      (({ t with ballLoc := .zero, ballVel := .zero, simTimer := ((45 : ℕ) : K) } :
        BehaviorSimulation K).changeSimulationReady now).ballLoc = .zero := by
    intro t
    unfold changeSimulationReady
    split_ifs <;> rfl
  rw [OnField, hcenter]
  norm_num [Point2D.zero, FIELD_X, FIELD_Y]

/-- The ball is in play, or nobody is to play it. -/
def Undisputed (s : BehaviorSimulation K) : Prop := s.InGoal ∨ s.Hidden ∨ s.OnField

/-- **A ball in play is treated fairly.** -/
lemma treatsFairly_of_undisputed (now : ℤ) {s : BehaviorSimulation K}
    (hpenalty : s.simPenaltyKick = false) (h : s.Undisputed) : s.TreatsFairly now := by
  have hbounds : ∀ t : BehaviorSimulation K, t.Hidden ∨ t.OnField →
      t.swapTeams.stepCheckBounds = t.stepCheckBounds.swapTeams := by
    rintro t (hhidden | hfield)
    · rw [stepCheckBounds, stepCheckBounds, if_pos hhidden, if_pos ((hidden_swapTeams t).mpr hhidden)]
    · rw [stepCheckBounds_of_onField hfield,
        stepCheckBounds_of_onField ((onField_swapTeams t).mpr hfield)]
  rw [TreatsFairly, applyRules, applyRules, stepCheckGoal_swapTeams now hpenalty]
  refine hbounds _ ?_
  rcases h with hgoal | hplay
  · exact Or.inr (onField_stepCheckGoal now hgoal hpenalty)
  · by_cases hgoal : s.InGoal
    · exact Or.inr (onField_stepCheckGoal now hgoal hpenalty)
    · rwa [stepCheckGoal, if_neg hgoal]

/-! ## Where the ball is out -/

/-- A ball that is put back is 400 inside of its sideline. -/
lemma abs_sideY (y : K) : |sideY y| = FIELD_Y / ((2 : ℕ) : K) - ((400 : ℕ) : K) := by
  have hpos : (0 : K) ≤ FIELD_Y / ((2 : ℕ) : K) - ((400 : ℕ) : K) := by norm_num [FIELD_Y]
  unfold sideY
  split
  · exact abs_of_nonneg hpos
  · have hneg : -FIELD_Y / ((2 : ℕ) : K) + ((400 : ℕ) : K) =
        -(FIELD_Y / ((2 : ℕ) : K) - ((400 : ℕ) : K)) := by
      rw [neg_sub, neg_div, sub_eq_neg_add]
    rw [hneg, abs_neg, abs_of_nonneg hpos]

/-- A free kick is taken beside a goal. -/
lemma abs_freeKickY (y : K) : |freeKickY y| = GOAL_Y / ((2 : ℕ) : K) := by
  have hpos : (0 : K) ≤ GOAL_Y / ((2 : ℕ) : K) := by norm_num [GOAL_Y]
  unfold freeKickY
  split
  · exact abs_of_nonneg hpos
  · rw [neg_div, abs_neg, abs_of_nonneg hpos]

omit [IsStrictOrderedRing K] in
/-- A ball that is neither in a goal nor hidden is only looked at by `stepCheckBounds`. -/
lemma applyRules_of_out (now : ℤ) {s : BehaviorSimulation K} (hgoal : ¬ s.InGoal)
    (hhidden : ¬ s.Hidden) : s.applyRules now = s.checkSideline.checkEndline := by
  rw [applyRules, stepCheckGoal, if_neg hgoal, stepCheckBounds, if_neg hhidden]

/-- **At the sideline the red team leaves a free kick** at the penalty line. -/
lemma sideline_red {s : BehaviorSimulation K} (hkick : s.lastKick = .red)
    (hout : |s.ballLoc.y| > FIELD_Y / ((2 : ℕ) : K)) :
    s.checkSideline.checkEndline.ballLoc.x = -PENALTY_X ∧
      |s.checkSideline.checkEndline.ballLoc.y| = GOAL_Y / ((2 : ℕ) : K) := by
  have hclamp : clampX (-PENALTY_X : K) = -PENALTY_X := by
    norm_num [clampX, PENALTY_X]
  have hside : s.checkSideline.ballLoc = ⟨-PENALTY_X, freeKickY (sideY s.ballLoc.y)⟩ := by
    rw [checkSideline, if_pos hout, hkick]
    show Point2D.mk (clampX (-PENALTY_X)) _ = _
    rw [hclamp]
  have hinside : ¬ |s.checkSideline.ballLoc.x| > FIELD_X / ((2 : ℕ) : K) := by
    rw [hside]
    norm_num [PENALTY_X, FIELD_X]
  rw [checkEndline, if_neg hinside, hside]
  exact ⟨rfl, abs_freeKickY _⟩

/-- **The blue team does not**, unless the ball is behind the endline as well. -/
lemma sideline_blue {s : BehaviorSimulation K} (hkick : s.lastKick = .blue)
    (hout : |s.ballLoc.y| > FIELD_Y / ((2 : ℕ) : K)) :
    s.checkSideline.checkEndline.ballLoc.x = FIELD_X / ((2 : ℕ) : K) - PENALTY_X ∨
      |s.checkSideline.checkEndline.ballLoc.y| =
        FIELD_Y / ((2 : ℕ) : K) - ((400 : ℕ) : K) := by
  have hkept : s.checkSideline.lastKick = .blue ∧
      s.checkSideline.ballLoc.y = sideY s.ballLoc.y := by
    rw [checkSideline, if_pos hout, hkick]
    dsimp only
    split <;> exact ⟨rfl, rfl⟩
  by_cases hend : |s.checkSideline.ballLoc.x| > FIELD_X / ((2 : ℕ) : K)
  · left
    rw [checkEndline, if_pos hend, hkept.1]
  · right
    rw [checkEndline, if_neg hend, hkept.2, abs_sideY]

omit [IsStrictOrderedRing K] in
/-- **At the endline the next kick-off is never ours.** -/
lemma endline_ourKickOff {s : BehaviorSimulation K}
    (hside : |s.ballLoc.y| ≤ FIELD_Y / ((2 : ℕ) : K))
    (hout : |s.ballLoc.x| > FIELD_X / ((2 : ℕ) : K)) :
    s.checkSideline.checkEndline.ourKickOff = false := by
  rw [checkSideline, if_neg (not_lt.mpr hside), checkEndline, if_pos hout]
  dsimp only
  cases s.lastKick <;> rfl

/-- **A ball that is out at the sideline is not treated fairly.** -/
lemma not_treatsFairly_of_sideline (now : ℤ) {s : BehaviorSimulation K} (hgoal : ¬ s.InGoal)
    (hhidden : ¬ s.Hidden) (hkick : s.lastKick = .red)
    (hout : |s.ballLoc.y| > FIELD_Y / ((2 : ℕ) : K)) : ¬ s.TreatsFairly now := by
  have hblue : s.swapTeams.lastKick = .blue := by
    rw [swapTeams, hkick]
    rfl
  have hout' : |s.swapTeams.ballLoc.y| > FIELD_Y / ((2 : ℕ) : K) := by
    rwa [swapTeams, abs_neg]
  intro hfair
  rw [TreatsFairly, applyRules_of_out now hgoal hhidden,
    applyRules_of_out now (mt (inGoal_swapTeams s).mp hgoal) (mt (hidden_swapTeams s).mp hhidden)]
    at hfair
  obtain ⟨hx, hy⟩ := sideline_red hkick hout
  rcases sideline_blue hblue hout' with hx' | hy'
  · rw [hfair, swapTeams, hx] at hx'
    norm_num [FIELD_X, PENALTY_X] at hx'
  · rw [hfair, swapTeams, abs_neg, hy] at hy'
    norm_num [FIELD_Y, GOAL_Y] at hy'

omit [IsStrictOrderedRing K] in
/-- **Nor is a ball behind the endline.** -/
lemma not_treatsFairly_of_endline (now : ℤ) {s : BehaviorSimulation K} (hgoal : ¬ s.InGoal)
    (hhidden : ¬ s.Hidden) (hside : |s.ballLoc.y| ≤ FIELD_Y / ((2 : ℕ) : K))
    (hout : |s.ballLoc.x| > FIELD_X / ((2 : ℕ) : K)) : ¬ s.TreatsFairly now := by
  have hside' : |s.swapTeams.ballLoc.y| ≤ FIELD_Y / ((2 : ℕ) : K) := by
    rwa [swapTeams, abs_neg]
  have hout' : |s.swapTeams.ballLoc.x| > FIELD_X / ((2 : ℕ) : K) := by
    rwa [swapTeams, abs_neg]
  intro hfair
  rw [TreatsFairly, applyRules_of_out now hgoal hhidden,
    applyRules_of_out now (mt (inGoal_swapTeams s).mp hgoal) (mt (hidden_swapTeams s).mp hhidden)]
    at hfair
  have hkickOff := endline_ourKickOff hside' hout'
  rw [hfair, swapTeams, endline_ourKickOff hside hout] at hkickOff
  exact absurd hkickOff Bool.noConfusion

omit [IsStrictOrderedRing K] in
/-- Fairness is the same question for both teams. -/
lemma treatsFairly_swapTeams (now : ℤ) (s : BehaviorSimulation K) :
    s.swapTeams.TreatsFairly now ↔ s.TreatsFairly now := by
  unfold TreatsFairly
  rw [swapTeams_swapTeams]
  constructor
  · intro h
    rw [h, swapTeams_swapTeams]
  · intro h
    rw [h, swapTeams_swapTeams]

/-- **The simulator is fair exactly while the ball is in play**: outside of penalty kicks the rules
commute with swapping the teams if and only if the ball is in a goal, hidden or between the lines.
Wherever it is out, the teams are treated differently. -/
theorem treatsFairly_iff (now : ℤ) (s : BehaviorSimulation K) (hpenalty : s.simPenaltyKick = false) :
    s.TreatsFairly now ↔ s.Undisputed := by
  constructor
  · intro hfair
    by_contra hdisputed
    obtain ⟨hgoal, hhidden, hfield⟩ : ¬ s.InGoal ∧ ¬ s.Hidden ∧ ¬ s.OnField := by
      simpa only [Undisputed, not_or] using hdisputed
    rcases le_or_gt |s.ballLoc.y| (FIELD_Y / ((2 : ℕ) : K)) with hside | hout
    · have hout : |s.ballLoc.x| > FIELD_X / ((2 : ℕ) : K) :=
        not_le.mp fun hx => hfield ⟨hx, hside⟩
      exact not_treatsFairly_of_endline now hgoal hhidden hside hout hfair
    · cases hkick : s.lastKick with
      | red => exact not_treatsFairly_of_sideline now hgoal hhidden hkick hout hfair
      | blue =>
        -- the same with the teams swapped
        have hred : s.swapTeams.lastKick = .red := by
          rw [swapTeams, hkick]
          rfl
        have hout' : |s.swapTeams.ballLoc.y| > FIELD_Y / ((2 : ℕ) : K) := by
          rwa [swapTeams, abs_neg]
        exact not_treatsFairly_of_sideline now (mt (inGoal_swapTeams s).mp hgoal)
          (mt (hidden_swapTeams s).mp hhidden) hred hout' ((treatsFairly_swapTeams now s).mpr hfair)
  · exact treatsFairly_of_undisputed now hpenalty

/-- A state during the game, with the ball at a place. -/
def playing (x y : K) (lastKick : Teams) : BehaviorSimulation K where
  ballLoc := ⟨x, y⟩
  ballVel := .zero
  lastKick := lastKick
  lastKickX := 0
  simBlueScore := 0
  simRedScore := 0
  simTimer := 0
  simPenaltyKick := false
  ballClearedFromCircle := true
  ourKickOff := true
  ourScore := 0
  opponentScore := 0
  isFreeKick := false
  isFreeKickTypeGoal := false
  state := .playing
  prevstate := .set
  stateStartTime := 0

/-- A goal of the blue team. -/
theorem treatsFairly_goal : (playing (1600 : ℚ) 100 .blue).TreatsFairly 0 :=
  (treatsFairly_iff 0 _ rfl).mpr (Or.inl (by decide +kernel))

/-- The blue team kicks the ball over the endline beside the goal. -/
theorem not_treatsFairly_endline : ¬ (playing (1600 : ℚ) 400 .blue).TreatsFairly 0 := by
  intro h
  exact absurd (congrArg ourKickOff h) (by decide +kernel)

end BehaviorSimulation

end Simulation

end NaoSoccer
