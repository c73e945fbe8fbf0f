import NaoSoccer.Core.OppModule
import NaoSoccer.Foundation.Batches
import NaoSoccer.Foundation.Decimal
import Mathlib.Order.Monotone.Basic
import Mathlib.Tactic.Linarith
import Mathlib.Tactic.NormNum
import Mathlib.Tactic.Positivity

/-!
# The buttons of the robot

`ButtonModule` counts the presses of four buttons.  A press begins with the first frame in which the
button is down and ends with the first one after it in which it is not; it counts if it was neither
too short nor too long.  The center button can be pressed several times for one result: the result
comes when it has not been down for a while.  The other buttons give a result at each press.

The time when a press began is `-1` while the button is not down.  A frame without a press then lies
at least one second after it, so it does not count: clicks are shorter than that.

Times are exact numbers.
-/

namespace NaoSoccer

open ExactDecimal

/-- The buttons. -/
inductive Button
  | center
  | leftBumper
  | rightBumper
  | headMiddle
  deriving DecidableEq, Repr

/-- `ButtonModule::ButtonInfo` -/
structure ButtonInfo (K : Type) where
  presses : ℕ
  start : K
  last : K
  newResult : Bool
  allowMultiple : Bool

/-- What the module reads and writes in other blocks. -/
structure ButtonBlocks (K : Type) where
  state : GameState
  isPenaltyKick : Bool
  ourKickOff : Bool
  lastStateChangeFromButton : Bool
  lastTimeLeftPenalized : K
  team : ℕ
  teamChanged : Bool
  calibrateWhiteBalance : Bool
  said : List String

/-- One frame: the time, the sensors that belong to buttons, the other blocks, the time since the
last whistle and the text of `sayIP`. -/
structure ButtonFrame (K : Type) where
  secondsSinceStart : K
  centerButton : K
  bumperRL : K
  bumperRR : K
  bumperLL : K
  bumperLR : K
  headMiddle : K
  blocks : ButtonBlocks K
  whistleElapsedTime : ℤ
  ip : String

/-- The buttons of `ButtonModule` -/
abbrev ButtonModule (K : Type) := Button → ButtonInfo K

section Code

variable {K : Type}

namespace ButtonInfo

/-- `ButtonInfo::reset` -/
def reset (button : ButtonInfo K) : ButtonInfo K := { button with presses := 0, newResult := false }

variable [Field K] [LinearOrder K]

/-- `ButtonInfo::ButtonInfo` -/
def construct (allowMultiple : Bool) : ButtonInfo K := ⟨0, -1, -1, false, allowMultiple⟩

/-- `ButtonModule::MAX_CLICK_INTERVAL` -/
def maxClickInterval : K := decimal 35 100

/-- `ButtonModule::MIN_CLICK_TIME` -/
def minClickTime : K := decimal 1 100

/-- `ButtonModule::MAX_CLICK_TIME` -/
def maxClickTime : K := decimal 75 100

/-- The button is down. -/
def isDown (bump1 bump2 : K) : Bool := bump1 > decimal 5 10 || bump2 > decimal 5 10

/-- The duration is that of a click. -/
def isClick (dt : K) : Bool := dt ≥ minClickTime && dt ≤ maxClickTime

/-- The first half of `ButtonModule::processButton` -/
def readBumps (now : K) (down : Bool) (button : ButtonInfo K) : ButtonInfo K :=
  if down then
    { button with
      start := if button.start < 0 then now else button.start
      last := now }
  else
    { button with
      presses := if isClick (now - button.start) then button.presses + 1 else button.presses
      start := -1 }

/-- The second half of `ButtonModule::processButton` -/
def checkResult (now : K) (button : ButtonInfo K) : ButtonInfo K :=
  if button.presses > 0 then
    let maxInterval := if button.allowMultiple then maxClickInterval else -1
    if now - button.last > maxInterval then { button with newResult := true } else button
  else button

/-- `ButtonModule::processButton` -/
def processButton (now bump1 bump2 : K) (button : ButtonInfo K) : ButtonInfo K :=
  checkResult now (readBumps now (isDown bump1 bump2) button)

/-- A result is taken, and the presses are counted anew. -/
def consume (button : ButtonInfo K) : ButtonInfo K :=
  if button.newResult then button.reset else button

end ButtonInfo

namespace ButtonBlocks

/-- `GameStateBlock::setState`.  Shortly after a whistle there is no way back into `SET`. -/
def setState (whistleElapsedTime : ℤ) (state : GameState) (b : ButtonBlocks K) : ButtonBlocks K :=
  if whistleElapsedTime ≤ 20 && state == .set && b.state == .playing then b
  else { b with state := state }

/-- `SpeechBlock::say` -/
def say (text : String) (b : ButtonBlocks K) : ButtonBlocks K :=
  { b with said := b.said ++ [text] }

/-- The states between which a single press of the center button changes. -/
def afterSinglePress (f : ButtonFrame K) (b : ButtonBlocks K) : ButtonBlocks K :=
  let b := { b with lastStateChangeFromButton := true }
  match b.state with
  | .penalised =>
    { b.setState f.whistleElapsedTime .playing with lastTimeLeftPenalized := f.secondsSinceStart }
  | .testing => b.setState f.whistleElapsedTime .finished
  | .testOdometry => b.setState f.whistleElapsedTime .finished
  | .ready => b.setState f.whistleElapsedTime .set
  | .set => b.setState f.whistleElapsedTime .playing
  | .playing => b.setState f.whistleElapsedTime .penalised
  | .finished => b.setState f.whistleElapsedTime .initial
  | _ => b

/-- `ButtonModule::processCenterPresses`, as it is with `USE_LAB_BUTTONS` -/
def processCenterPresses (f : ButtonFrame K) (presses : ℕ) (b : ButtonBlocks K) : ButtonBlocks K :=
  if presses = 3 || presses = 4 then (b.setState f.whistleElapsedTime .set).say "set"
  else if presses = 5 then b.setState f.whistleElapsedTime .finished
  else if presses = 6 then b.say f.ip
  else if presses = 7 then b.setState f.whistleElapsedTime .testing
  else if presses = 8 || presses = 2 then
    let b := { b with isPenaltyKick := !b.isPenaltyKick }
    b.say (if b.isPenaltyKick then "Penalty" else "No Penalty")
  else b.afterSinglePress f

/-- The teams are blue, `0`, and red, `1`. -/
def changeTeam (b : ButtonBlocks K) : ButtonBlocks K :=
  { b with
    teamChanged := true
    team := if b.team = 1 then 0 else if b.team = 0 then 1 else b.team }

/-- What a result does. -/
def onResult (f : ButtonFrame K) (state : GameState) (presses : ℕ) (b : ButtonBlocks K) :
    Button → ButtonBlocks K
  | .center => b.processCenterPresses f presses
  | .headMiddle => { b with calibrateWhiteBalance := !b.calibrateWhiteBalance }
  | .rightBumper => if state == .initial || state == .finished then b.changeTeam else b
  | .leftBumper =>
    if state == .initial || state == .finished then { b with ourKickOff := !b.ourKickOff } else b

end ButtonBlocks

namespace ButtonModule

variable [Field K] [LinearOrder K]

/-- `ButtonModule::ButtonModule` -/
def construct : ButtonModule K := fun b => ButtonInfo.construct (b = .center)

/-- The sensors of a button. -/
def bumps (f : ButtonFrame K) : Button → K × K
  | .center => (f.centerButton, 0)
  | .rightBumper => (f.bumperRL, f.bumperRR)
  | .leftBumper => (f.bumperLL, f.bumperLR)
  | .headMiddle => (f.headMiddle, 0)

/-- The calls of `processButton` at the beginning of `ButtonModule::processButtons` -/
def processed (f : ButtonFrame K) (m : ButtonModule K) : ButtonModule K :=
  fun b => (m b).processButton f.secondsSinceStart (bumps f b).1 (bumps f b).2

/-- `ButtonModule::processButtons`: the results are taken in this order. -/
def processButtons (f : ButtonFrame K) (m : ButtonModule K) : ButtonModule K × ButtonBlocks K :=
  let m := processed f m
  (fun b => (m b).consume,
    [Button.center, .headMiddle, .rightBumper, .leftBumper].foldl (fun blocks b =>
      if (m b).newResult then blocks.onResult f f.blocks.state (m b).presses b else blocks)
      f.blocks)

/-- The buttons before frame `n`. -/
def run (frames : ℕ → ButtonFrame K) : ℕ → ButtonModule K
  | 0 => construct
  | n + 1 => (processButtons (frames n) (run frames n)).1

end ButtonModule

end Code

/-! ## Presses -/

section Presses

variable {K : Type} [Field K] [LinearOrder K]

/-- The button is down in frame `n`. -/
def Down (frames : ℕ → ButtonFrame K) (b : Button) (n : ℕ) : Prop :=
  ButtonInfo.isDown (ButtonModule.bumps (frames n) b).1 (ButtonModule.bumps (frames n) b).2 = true

/-- The button is down from frame `i` up to before frame `n`, and it was not before that. -/
structure DownSince (frames : ℕ → ButtonFrame K) (b : Button) (i n : ℕ) : Prop where
  lt : i < n
  down : ∀ m, i ≤ m → m < n → Down frames b m
  first : ∀ m, m + 1 = i → ¬ Down frames b m

/-- A press that begins in frame `i` and is released in frame `j`. -/
structure IsPress (frames : ℕ → ButtonFrame K) (b : Button) (i j : ℕ) : Prop extends
    DownSince frames b i j where
  release : ¬ Down frames b j

/-- Frame `m` is the last one before frame `k` in which the button is down. -/
structure LastDown (frames : ℕ → ButtonFrame K) (b : Button) (m k : ℕ) : Prop where
  lt : m < k
  down : Down frames b m
  released : ∀ l, m < l → l < k → ¬ Down frames b l

/-- The button in frame `n`, before a result is taken. -/
def processedAt (frames : ℕ → ButtonFrame K) (b : Button) (n : ℕ) : ButtonInfo K :=
  ButtonModule.processed (frames n) (ButtonModule.run frames n) b

/-- A press is counted in frame `n`. -/
def Increments (frames : ℕ → ButtonFrame K) (b : Button) (n : ℕ) : Prop :=
  (processedAt frames b n).presses = (ButtonModule.run frames n b).presses + 1

/-- There is a result in frame `n`. -/
def IsResult (frames : ℕ → ButtonFrame K) (b : Button) (n : ℕ) : Prop :=
  (processedAt frames b n).newResult = true

instance (frames : ℕ → ButtonFrame K) (b : Button) : DecidablePred (Increments frames b) :=
  fun _ => inferInstanceAs (Decidable (_ = _))

instance (frames : ℕ → ButtonFrame K) (b : Button) : DecidablePred (IsResult frames b) :=
  fun _ => inferInstanceAs (Decidable (_ = _))

variable {frames : ℕ → ButtonFrame K} {b : Button}

lemma exists_downSince {m : ℕ} (h : Down frames b m) : ∃ i, DownSince frames b i (m + 1) := by
  induction m with
  | zero =>
    refine ⟨0, Nat.zero_lt_one, fun m _ hm => ?_, fun m hm => absurd hm (Nat.succ_ne_zero m)⟩
    rwa [Nat.lt_one_iff.mp hm]
  | succ m ih =>
    by_cases hm : Down frames b m
    · obtain ⟨i, hi⟩ := ih hm
      refine ⟨i, Nat.lt_succ_of_lt hi.lt, fun l hil hl => ?_, hi.first⟩
      rcases Nat.lt_succ_iff_lt_or_eq.mp hl with hl | rfl
      · exact hi.down l hil hl
      · exact h
    · refine ⟨m + 1, Nat.lt_succ_self _, fun l hil hl => ?_, fun l hl => ?_⟩
      · rwa [Nat.le_antisymm (Nat.lt_succ_iff.mp hl) hil]
      · rwa [Nat.succ_injective hl]

/-- While the button stays down, the press is the same. -/
lemma DownSince.of_succ {i n : ℕ} (h : DownSince frames b i (n + 1)) :
    DownSince frames b i n ∨ i = n ∧ ∀ i', ¬ DownSince frames b i' n := by
  rcases Nat.lt_succ_iff_lt_or_eq.mp h.lt with hlt | rfl
  · exact .inl ⟨hlt, fun m hm hmn => h.down m hm (Nat.lt_succ_of_lt hmn), h.first⟩
  · refine .inr ⟨rfl, fun i' hi' => ?_⟩
    obtain ⟨m, rfl⟩ := Nat.exists_eq_succ_of_ne_zero (Nat.ne_zero_of_lt hi'.lt)
    exact h.first m rfl (hi'.down m (Nat.lt_succ_iff.mp hi'.lt) (Nat.lt_succ_self m))

lemma exists_lastDown {i k : ℕ} (hik : i < k) (hi : Down frames b i) :
    ∃ m, LastDown frames b m k := by
  induction k with
  | zero => exact absurd hik (Nat.not_lt_zero i)
  | succ k ih =>
    by_cases hk : Down frames b k
    · exact ⟨k, Nat.lt_succ_self k, hk, fun l hkl hl => absurd hkl (Nat.not_lt.mpr
        (Nat.lt_succ_iff.mp hl))⟩
    · rcases Nat.lt_succ_iff_lt_or_eq.mp hik with hik | rfl
      · obtain ⟨m, hm⟩ := ih hik
        refine ⟨m, Nat.lt_succ_of_lt hm.lt, hm.down, fun l hml hl => ?_⟩
        rcases Nat.lt_succ_iff_lt_or_eq.mp hl with hl | rfl
        · exact hm.released l hml hl
        · exact hk
      · exact absurd hi hk

/-! ## What the button remembers -/

namespace ButtonInfo

omit [Field K] [LinearOrder K] in
lemma consume_of_newResult {button : ButtonInfo K} (h : button.newResult = true) :
    button.consume = button.reset := if_pos h

omit [Field K] [LinearOrder K] in
lemma consume_of_not_newResult {button : ButtonInfo K} (h : ¬ button.newResult = true) :
    button.consume = button := if_neg h

/-- Something was counted, and the button has not been down for longer than it may be. -/
def ResultDue (now : K) (button : ButtonInfo K) : Prop :=
  0 < button.presses ∧
    (if button.allowMultiple then maxClickInterval else -1) < now - button.last

instance (now : K) (button : ButtonInfo K) : Decidable (ResultDue now button) :=
  inferInstanceAs (Decidable (_ ∧ _))

lemma checkResult_eq (now : K) (button : ButtonInfo K) :
    checkResult now button =
      { button with newResult := button.newResult || decide (ResultDue now button) } := by
  unfold checkResult ResultDue
  dsimp only
  by_cases hpresses : button.presses > 0
  · by_cases hlong : (if button.allowMultiple then maxClickInterval else -1) < now - button.last
    · simp [hpresses, hlong]
    · simp [hpresses, hlong]
  · simp [hpresses]

/-- A frame in which the button is down. -/
lemma processButton_of_down {now bump1 bump2 : K} (h : isDown bump1 bump2 = true)
    (button : ButtonInfo K) :
    processButton now bump1 bump2 button =
      checkResult now { button with
        start := if button.start < 0 then now else button.start
        last := now } := by
  unfold processButton readBumps
  rw [if_pos h]

/-- A frame in which the button is not down. -/
lemma processButton_of_not_down {now bump1 bump2 : K} (h : ¬ isDown bump1 bump2 = true)
    (button : ButtonInfo K) :
    processButton now bump1 bump2 button =
      checkResult now { button with
        presses := if isClick (now - button.start) then button.presses + 1 else button.presses
        start := -1 } := by
  unfold processButton readBumps
  rw [if_neg h]

end ButtonInfo

/-- What the button remembers before frame `n`. -/
structure Remembers (frames : ℕ → ButtonFrame K) (b : Button) (n : ℕ) (button : ButtonInfo K) :
    Prop where
  newResult_eq : button.newResult = false
  allowMultiple_eq : button.allowMultiple = decide (b = .center)
  start_eq : ∀ i, DownSince frames b i n → button.start = (frames i).secondsSinceStart
  start_none : (∀ i, ¬ DownSince frames b i n) → button.start = -1
  last_eq : ∀ m, LastDown frames b m n → button.last = (frames m).secondsSinceStart

lemma remembers_construct (frames : ℕ → ButtonFrame K) (b : Button) :
    Remembers frames b 0 (ButtonModule.construct b) where
  newResult_eq := rfl
  allowMultiple_eq := rfl
  start_eq i h := absurd h.lt (Nat.not_lt_zero i)
  start_none _ := rfl
  last_eq m h := absurd h.lt (Nat.not_lt_zero m)

/-- To take a result changes nothing else. -/
lemma Remembers.consume {n : ℕ} {button : ButtonInfo K}
    (hmultiple : button.allowMultiple = decide (b = .center))
    (hstart : ∀ i, DownSince frames b i n → button.start = (frames i).secondsSinceStart)
    (hnone : (∀ i, ¬ DownSince frames b i n) → button.start = -1)
    (hlast : ∀ m, LastDown frames b m n → button.last = (frames m).secondsSinceStart) :
    Remembers frames b n button.consume := by
  unfold ButtonInfo.consume
  split
  case isTrue => exact ⟨rfl, hmultiple, hstart, hnone, hlast⟩
  case isFalse h => exact ⟨Bool.eq_false_iff.mpr h, hmultiple, hstart, hnone, hlast⟩

variable [IsStrictOrderedRing K]

/-- One frame. -/
lemma Remembers.step (hnonneg : ∀ n, 0 ≤ (frames n).secondsSinceStart) {n : ℕ}
    (h : Remembers frames b n (ButtonModule.run frames n b)) :
    Remembers frames b (n + 1) (ButtonModule.run frames (n + 1) b) := by
  change Remembers frames b (n + 1) (processedAt frames b n).consume
  unfold processedAt ButtonModule.processed
  by_cases hdown : Down frames b n
  · rw [ButtonInfo.processButton_of_down hdown, ButtonInfo.checkResult_eq]
    apply Remembers.consume
    · exact h.allowMultiple_eq
    · intro i hi
      rcases hi.of_succ with hi | ⟨rfl, hnone⟩
      · have hnotNeg : ¬ (ButtonModule.run frames n b).start < 0 :=
          not_lt.mpr ((h.start_eq i hi).symm ▸ hnonneg i)
        exact (if_neg hnotNeg).trans (h.start_eq i hi)
      · have hneg : (ButtonModule.run frames i b).start < 0 := by
          rw [h.start_none hnone]
          exact neg_one_lt_zero
        exact if_pos hneg
    · intro hnone
      obtain ⟨i, hi⟩ := exists_downSince hdown
      exact absurd hi (hnone i)
    · intro m hm
      have hmn : m = n := by
        rcases Nat.lt_succ_iff_lt_or_eq.mp hm.lt with hlt | heq
        · exact absurd hdown (hm.released n hlt (Nat.lt_succ_self n))
        · exact heq
      rw [hmn]
  · rw [ButtonInfo.processButton_of_not_down hdown, ButtonInfo.checkResult_eq]
    apply Remembers.consume
    · exact h.allowMultiple_eq
    · intro i hi
      exact absurd (hi.down n (Nat.lt_succ_iff.mp hi.lt) (Nat.lt_succ_self n)) hdown
    · exact fun _ => rfl
    · intro m hm
      have hlt : m < n := by
        rcases Nat.lt_succ_iff_lt_or_eq.mp hm.lt with hlt | rfl
        · exact hlt
        · exact absurd hm.down hdown
      exact h.last_eq m ⟨hlt, hm.down, fun l hml hl => hm.released l hml (Nat.lt_succ_of_lt hl)⟩

/-- Before every frame the button remembers when it went down and when it was last down. -/
theorem remembers_run (hnonneg : ∀ n, 0 ≤ (frames n).secondsSinceStart) (n : ℕ) :
    Remembers frames b n (ButtonModule.run frames n b) := by
  induction n with
  | zero => exact remembers_construct frames b
  | succ n ih => exact ih.step hnonneg

/-! ## Presses and results -/

open Batches ButtonInfo

omit [IsStrictOrderedRing K] in
lemma presses_of_down {n : ℕ} (h : Down frames b n) :
    (processedAt frames b n).presses = (ButtonModule.run frames n b).presses := by
  unfold processedAt ButtonModule.processed
  rw [processButton_of_down h, checkResult_eq]

omit [IsStrictOrderedRing K] in
lemma presses_of_not_down {n : ℕ} (h : ¬ Down frames b n) :
    (processedAt frames b n).presses =
      if isClick ((frames n).secondsSinceStart - (ButtonModule.run frames n b).start) then
        (ButtonModule.run frames n b).presses + 1
      else (ButtonModule.run frames n b).presses := by
  unfold processedAt ButtonModule.processed
  rw [processButton_of_not_down h, checkResult_eq]

/-- What is longer than a second is no click. -/
lemma not_isClick {now : K} (h : 0 ≤ now) : ¬ isClick (now - -1) = true := by
  unfold isClick maxClickTime
  rw [Bool.and_eq_true, decide_eq_true_iff, decide_eq_true_iff, not_and]
  intro _ hle
  have hclick : (decimal 75 100 : K) < 1 := by norm_num [decimal]
  linarith

omit [IsStrictOrderedRing K] in
/-- At most one press is counted in a frame. -/
lemma processedAt_presses (n : ℕ) : (processedAt frames b n).presses =
    (ButtonModule.run frames n b).presses + if Increments frames b n then 1 else 0 := by
  split
  case isTrue h => exact h
  case isFalse h =>
    by_cases hdown : Down frames b n
    · exact presses_of_down hdown
    · have hcases := presses_of_not_down hdown
      split at hcases
      · exact absurd hcases h
      · exact hcases

/-- A press is counted when it is released, if it was a click. -/
lemma increments_iff (hnonneg : ∀ n, 0 ≤ (frames n).secondsSinceStart) {i j : ℕ}
    (h : IsPress frames b i j) : Increments frames b j ↔
      isClick ((frames j).secondsSinceStart - (frames i).secondsSinceStart) = true := by
  unfold Increments
  rw [presses_of_not_down h.release, (remembers_run hnonneg j).start_eq i h.toDownSince]
  split
  case isTrue hclick => exact iff_of_true rfl hclick
  case isFalse hclick => exact iff_of_false (Nat.succ_ne_self _).symm hclick

/-- Only the release of a press is counted. -/
lemma exists_isPress (hnonneg : ∀ n, 0 ≤ (frames n).secondsSinceStart) {j : ℕ}
    (h : Increments frames b j) : ∃ i, IsPress frames b i j := by
  have hrelease : ¬ Down frames b j := by
    intro hdown
    exact (Nat.succ_ne_self _).symm ((presses_of_down hdown).symm.trans h)
  by_contra hnone
  have hidle : ∀ i, ¬ DownSince frames b i j := fun i hi => hnone ⟨i, hi, hrelease⟩
  unfold Increments at h
  rw [presses_of_not_down hrelease, (remembers_run hnonneg j).start_none hidle,
    if_neg (not_isClick (hnonneg j))] at h
  exact (Nat.succ_ne_self _).symm h

omit [IsStrictOrderedRing K] in
/-- The presses are counted in batches, one for each result. -/
lemma presses_eq_count (n : ℕ) : (ButtonModule.run frames n b).presses =
    count (Increments frames b) (IsResult frames b) n := by
  induction n with
  | zero => rfl
  | succ n ih =>
    change (processedAt frames b n).consume.presses = _
    rw [count, ← ih, ← processedAt_presses]
    by_cases hresult : IsResult frames b n
    · rw [if_pos hresult, consume_of_newResult hresult, reset]
    · rw [if_neg hresult, consume_of_not_newResult hresult]

/-- When there is a result. -/
lemma isResult_iff_resultDue (hnonneg : ∀ n, 0 ≤ (frames n).secondsSinceStart) (k : ℕ) :
    IsResult frames b k ↔ 0 < (processedAt frames b k).presses ∧
      (if b = .center then maxClickInterval else -1) <
        (frames k).secondsSinceStart - (processedAt frames b k).last := by
  have hrun := remembers_run (b := b) hnonneg k
  unfold IsResult processedAt ButtonModule.processed
  by_cases hk : Down frames b k
  · rw [processButton_of_down hk, checkResult_eq]
    simp [ResultDue, hrun.newResult_eq, hrun.allowMultiple_eq]
  · rw [processButton_of_not_down hk, checkResult_eq]
    simp [ResultDue, hrun.newResult_eq, hrun.allowMultiple_eq]

omit [IsStrictOrderedRing K] in
lemma last_of_down {k : ℕ} (hk : Down frames b k) :
    (processedAt frames b k).last = (frames k).secondsSinceStart := by
  unfold processedAt ButtonModule.processed
  rw [processButton_of_down hk, checkResult_eq]

lemma last_of_lastDown (hnonneg : ∀ n, 0 ≤ (frames n).secondsSinceStart) {m k : ℕ}
    (h : LastDown frames b m k) (hk : ¬ Down frames b k) :
    (processedAt frames b k).last = (frames m).secondsSinceStart := by
  unfold processedAt ButtonModule.processed
  rw [processButton_of_not_down hk, checkResult_eq]
  exact (remembers_run hnonneg k).last_eq m h

/-- While the center button is down there is no result. -/
lemma not_isResult_of_down (hnonneg : ∀ n, 0 ≤ (frames n).secondsSinceStart) {k : ℕ}
    (hk : Down frames b k) (hb : b = .center) : ¬ IsResult frames b k := by
  have hpos : (0 : K) ≤ maxClickInterval := by
    unfold maxClickInterval
    exact (decimal_pos (by decide) (by decide)).le
  rw [isResult_iff_resultDue hnonneg, last_of_down hk, sub_self, if_pos hb]
  exact fun h => absurd h.2 (not_lt.mpr hpos)

/-- In the frames from `i` to `k` the button has been up for longer than `MAX_CLICK_INTERVAL`. -/
def LongPause (frames : ℕ → ButtonFrame K) (b : Button) (i k : ℕ) : Prop :=
  ∃ n m, i ≤ n ∧ n < k ∧ ¬ Down frames b n ∧ LastDown frames b m n ∧
    maxClickInterval < (frames n).secondsSinceStart - (frames m).secondsSinceStart

/-- Between two presses of the center button there is a result exactly after a long pause. -/
lemma exists_isResult_iff (hnonneg : ∀ n, 0 ≤ (frames n).secondsSinceStart) (hb : b = .center)
    {i₁ j₁ i₂ j₂ : ℕ} (h₁ : IsPress frames b i₁ j₁) (hcounted : Increments frames b j₁)
    (h₂ : IsPress frames b i₂ j₂) :
    (∃ k, j₁ ≤ k ∧ k < j₂ ∧ IsResult frames b k) ↔ LongPause frames b j₁ i₂ := by
  constructor
  · rintro ⟨k, hk₁, hk₂, hresult⟩
    have hup : ¬ Down frames b k := fun hdown => not_isResult_of_down hnonneg hdown hb hresult
    have hki : k < i₂ := by
      by_contra hik
      exact hup (h₂.down k (not_lt.mp hik) hk₂)
    obtain ⟨m, hm⟩ :=
      exists_lastDown (h₁.lt.trans_le hk₁) (h₁.down i₁ le_rfl h₁.lt)
    refine ⟨k, m, hk₁, hki, hup, hm, ?_⟩
    have hdue := ((isResult_iff_resultDue hnonneg k).mp hresult).2
    rwa [if_pos hb, last_of_lastDown hnonneg hm hup] at hdue
  · rintro ⟨k, m, hk₁, hk₂, hup, hm, hlong⟩
    by_cases hbefore : ∃ l, j₁ ≤ l ∧ l < k ∧ IsResult frames b l
    · obtain ⟨l, hl₁, hlk, hl⟩ := hbefore
      exact ⟨l, hl₁, hlk.trans (hk₂.trans h₂.lt), hl⟩
    · refine ⟨k, hk₁, hk₂.trans h₂.lt, (isResult_iff_resultDue hnonneg k).mpr ⟨?_, ?_⟩⟩
      · rw [processedAt_presses, presses_eq_count]
        exact count_add_pos hcounted hk₁ fun l hl₁ hlk hl => hbefore ⟨l, hl₁, hlk, hl⟩
      · rwa [if_pos hb, last_of_lastDown hnonneg hm hup]

/-- A button that is pressed once for a result has its result in the frame in which the press is
counted, and no press is left for later. -/
theorem isResult_iff_increments (hmono : Monotone fun n => (frames n).secondsSinceStart)
    (hnonneg : ∀ n, 0 ≤ (frames n).secondsSinceStart) (hb : b ≠ .center) (n : ℕ) :
    (ButtonModule.run frames n b).presses = 0 ∧
      (IsResult frames b n ↔ Increments frames b n) := by
  have hframe (k : ℕ) (hzero : (ButtonModule.run frames k b).presses = 0) :
      IsResult frames b k ↔ Increments frames b k := by
    rw [isResult_iff_resultDue hnonneg, processedAt_presses, hzero, Nat.zero_add, if_neg hb]
    by_cases hcounted : Increments frames b k
    · obtain ⟨i, hi⟩ := exists_isPress hnonneg hcounted
      obtain ⟨m, hm⟩ := exists_lastDown hi.lt (hi.down i le_rfl hi.lt)
      have hle : (frames m).secondsSinceStart ≤ (frames k).secondsSinceStart := hmono hm.lt.le
      rw [if_pos hcounted, last_of_lastDown hnonneg hm hi.release]
      exact iff_of_true ⟨Nat.one_pos, by linarith⟩ hcounted
    · rw [if_neg hcounted]
      exact iff_of_false (fun h => absurd h.1 (lt_irrefl 0)) hcounted
  suffices hzero : (ButtonModule.run frames n b).presses = 0 from ⟨hzero, hframe n hzero⟩
  induction n with
  | zero => rfl
  | succ n ih =>
    rw [presses_eq_count, count, ← presses_eq_count, ih, Nat.zero_add]
    by_cases hresult : IsResult frames b n
    · exact if_pos hresult
    · rw [if_neg hresult, if_neg fun h => hresult ((hframe n ih).mpr h)]

/-- How the presses of a button are counted in its results.  A press is counted in the frame of its
release, in the first result that is not before it; until then it is pending. -/
structure CountedExactly (frames : ℕ → ButtonFrame K) (b : Button) : Prop where
  clicks : ∀ i j, IsPress frames b i j → (Increments frames b j ↔
    minClickTime ≤ (frames j).secondsSinceStart - (frames i).secondsSinceStart ∧
      (frames j).secondsSinceStart - (frames i).secondsSinceStart ≤ maxClickTime)
  presses : ∀ j, Increments frames b j → ∃ i, IsPress frames b i j
  result : ∀ k, IsResult frames b k → (processedAt frames b k).presses =
    {j | ReportedAt (Increments frames b) (IsResult frames b) j k}.ncard
  pending : ∀ n, (ButtonModule.run frames n b).presses =
    {j | Pending (Increments frames b) (IsResult frames b) j n}.ncard
  once : ∀ j n, Increments frames b j → j < n →
    (Pending (Increments frames b) (IsResult frames b) j n ∧
      ∀ k < n, ¬ ReportedAt (Increments frames b) (IsResult frames b) j k) ∨
    ¬ Pending (Increments frames b) (IsResult frames b) j n ∧
      ∃! k, k < n ∧ ReportedAt (Increments frames b) (IsResult frames b) j k
  apart : b = .center → ∀ i₁ j₁ i₂ j₂, IsPress frames b i₁ j₁ → Increments frames b j₁ →
    IsPress frames b i₂ j₂ → Increments frames b j₂ → j₁ < j₂ →
    ((∃ k, ReportedAt (Increments frames b) (IsResult frames b) j₁ k ∧
      ¬ ReportedAt (Increments frames b) (IsResult frames b) j₂ k) ↔ LongPause frames b j₁ i₂)

end Presses

/-- The center button is down in frame 1 only; there are ten frames in a second. -/
def clickFrames (n : ℕ) : ButtonFrame ℚ where
  secondsSinceStart := n * (1 / 10)
  centerButton := if n = 1 then 1 else 0
  bumperRL := 0
  bumperRR := 0
  bumperLL := 0
  bumperLR := 0
  headMiddle := 0
  blocks := ⟨.initial, false, false, false, -1, 0, false, false, []⟩
  whistleElapsedTime := 100
  ip := ""

lemma down_clickFrames_iff {n : ℕ} : Down clickFrames .center n ↔ n = 1 := by
  unfold Down ButtonInfo.isDown ButtonModule.bumps clickFrames
  by_cases hn : n = 1
  · simp only [hn, if_true]
    norm_num [decimal]
  · simp only [hn, if_false]
    norm_num [decimal]

lemma isPress_clickFrames : IsPress clickFrames .center 1 2 where
  lt := Nat.one_lt_two
  down _ hm hm2 := down_clickFrames_iff.mpr (Nat.le_antisymm (Nat.lt_succ_iff.mp hm2) hm)
  first _ hm hdown :=
    Nat.succ_ne_self 1 ((congrArg Nat.succ (down_clickFrames_iff.mp hdown)).symm.trans hm)
  release hdown := Nat.succ_ne_self 1 (down_clickFrames_iff.mp hdown)

end NaoSoccer
