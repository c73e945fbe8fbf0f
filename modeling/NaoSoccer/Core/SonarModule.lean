import NaoSoccer.Common.RingBufferWithSum
import NaoSoccer.Foundation.Decimal

/-!
# The sonars

`SonarModule` takes the newest readings of the two sonars in every frame, and reports an obstacle on
a side if the median of the last five readings of that side lies between two bounds.  If both sides
report one, and at about the same distance, it is in front.

The first frame only resets the sonars.  Times and distances are exact numbers, and `+ 1.0` in
`initSonar` is what makes the time of the last command positive.
-/

namespace NaoSoccer

open CyclicStorage SlidingWindow ExactDecimal

/-- What a frame finds in the other blocks. -/
structure SonarFrame (K : Type) where
  now : K
  /-- `sonar_left_[0]` -/
  left : K
  /-- `sonar_right_[0]` -/
  right : K

/-- What the module keeps of one sonar. -/
structure SonarSide (K : Type) where
  buf : RingBufferWithSum K 5
  confidence : K
  distance : K

/-- `ProcessedSonarBlock` -/
structure ProcessedSonarBlock (K : Type) where
  onLeft : Bool
  onRight : Bool
  onCenter : Bool
  leftDistance : K
  rightDistance : K
  centerDistance : K

/-- The part of `JointCommandBlock` that the module writes. -/
structure SonarCommand (K : Type) where
  sendSonarCommand : Bool
  sonarCommand : K

/-- The state of `SonarModule`, and the blocks that it writes. -/
structure SonarModule (K : Type) where
  left : SonarSide K
  right : SonarSide K
  lastSendTime : K
  lastSwitchTime : K
  sonarModuleEnabled : Bool
  processed : ProcessedSonarBlock K
  commands : SonarCommand K

namespace SonarModule

variable {K : Type} [Field K] [LinearOrder K]

/-- `MIN_DISTANCE` -/
def minDistance : K := decimal 1 10

/-- `MAX_DISTANCE_V4` and `MAX_DISTANCE_V5` -/
def maxDistance : K := decimal 35 100

/-- `LR_DISTANCE_DIFF_V4` and `LR_DISTANCE_DIFF_V5` -/
def lrDistanceDiff : K := decimal 2 10

/-- `CONF_HISTORY_WEIGHT` -/
def confHistoryWeight : K := decimal 5 10

/-- `DIST_HISTORY_WEIGHT` -/
def distHistoryWeight : K := decimal 5 10

/-- The distance that is reported when there is no obstacle. -/
def noDistance : K := decimal 255 100

/-- `RESET` -/
def reset : K := (32 : ℕ)

/-- `modes_[mode_ind_]`: `LEFT_TO_LEFT + RECEIVE_BOTH` -/
def mode : K := (4 : ℕ)

/-- `send_interval_` -/
def sendInterval : K := decimal 70 1000

/-- `epsilon` -/
def epsilon : K := decimal 5 1000

/-- A side that has been constructed; only the counters of its buffer are initialized. -/
def constructSide (buffer : Vector K 5) (confidence distance : K) : SonarSide K :=
  ⟨.init buffer, confidence, distance⟩

/-- The state behind `initSpecificModule` -/
def initSpecificModule (left right : SonarSide K) (processed : ProcessedSonarBlock K)
    (commands : SonarCommand K) : SonarModule K :=
  { left := left
    right := right
    lastSendTime := -1
    lastSwitchTime := -1
    sonarModuleEnabled := true
    processed := processed
    commands := commands }

/-- `SonarModule::initSonar` -/
def initSonar (now : K) (s : SonarModule K) : SonarModule K :=
  { s with
    commands := ⟨true, reset⟩
    lastSendTime := now + 1
    lastSwitchTime := now + 1 }

/-- `SonarModule::addDistance` -/
def addDistance (distance : K) (side : SonarSide K) : Option (SonarSide K) :=
  (side.buf.add distance).map fun buf =>
    if distance < maxDistance then
      { buf := buf
        confidence := (1 - confHistoryWeight) + confHistoryWeight * side.confidence
        distance := (1 - distHistoryWeight) * distance + distHistoryWeight * side.distance }
    else { side with buf := buf, confidence := confHistoryWeight * side.confidence }

/-- A distance at which the module reports an obstacle. -/
def inRange (distance : K) : Bool := distance > minDistance && distance ≤ maxDistance

/-- `SonarModule::filterSonarsFromMedian` -/
def filterSonarsFromMedian (s : SonarModule K) : Option (SonarModule K) :=
  s.left.buf.getMedian.bind fun leftDistance =>
    s.right.buf.getMedian.map fun rightDistance =>
      let onLeft := inRange leftDistance
      let onRight := inRange rightDistance
      let onCenter := onLeft && onRight && |leftDistance - rightDistance| < lrDistanceDiff
      { s with
        processed :=
          { onLeft := if onCenter then false else onLeft
            onRight := if onCenter then false else onRight
            onCenter := onCenter
            leftDistance := leftDistance
            rightDistance := rightDistance
            centerDistance :=
              if onCenter then (leftDistance + rightDistance) / (2 : ℕ) else noDistance } }

/-- `SonarModule::processSonars` -/
def processSonars (frame : SonarFrame K) (s : SonarModule K) : Option (SonarModule K) :=
  (addDistance frame.left s.left).bind fun left =>
    (addDistance frame.right s.right).bind fun right =>
      let s := { s with left := left, right := right }
      if s.sonarModuleEnabled then s.filterSonarsFromMedian
      else some { s with
        processed := ⟨false, false, false, noDistance, noDistance, noDistance⟩ }

/-- `SonarModule::processCommands` -/
def processCommands (frame : SonarFrame K) (s : SonarModule K) : SonarModule K :=
  if frame.now - s.lastSendTime ≥ sendInterval - epsilon then
    { s with commands := ⟨true, mode⟩, lastSendTime := frame.now }
  else { s with commands := { s.commands with sendSonarCommand := false } }

/-- `SonarModule::processFrame` -/
def processFrame (frame : SonarFrame K) (s : SonarModule K) : Option (SonarModule K) :=
  if s.lastSendTime < 0 then some (s.initSonar frame.now)
  else (s.processSonars frame).map (processCommands frame)

/-- A run of frames. -/
def run (s : SonarModule K) : List (SonarFrame K) → Option (SonarModule K)
  | [] => some s
  | frame :: frames => (s.processFrame frame).bind fun next => next.run frames

/-! ## The reports -/

/-- The median of five readings lies in the range exactly if three of them are long enough and three
are short enough. -/
def MostInRange (window : List K) : Prop :=
  window.countP (· ≤ minDistance) ≤ 2 ∧ 2 < window.countP (· ≤ maxDistance)

/-- The report fits the last readings of the two sides. -/
structure Reports (processed : ProcessedSonarBlock K) (left right : List K) : Prop where
  leftDistance : kth left 2 = some processed.leftDistance
  rightDistance : kth right 2 = some processed.rightDistance
  onCenter : processed.onCenter = true ↔ MostInRange left ∧ MostInRange right ∧
    |processed.leftDistance - processed.rightDistance| < lrDistanceDiff
  onLeft : processed.onLeft = true ↔ MostInRange left ∧ processed.onCenter = false
  onRight : processed.onRight = true ↔ MostInRange right ∧ processed.onCenter = false
  centerDistance : processed.centerDistance =
    if processed.onCenter then (processed.leftDistance + processed.rightDistance) / (2 : ℕ)
    else noDistance

/-- The median of a window is in the range exactly if most of its values are. -/
lemma inRange_iff {window : List K} {median : K} (h : kth window 2 = some median) :
    inRange median = true ↔ MostInRange window := by
  rw [inRange, Bool.and_eq_true, decide_eq_true_eq, decide_eq_true_eq, gt_iff_lt, lt_kth_iff h,
    kth_le_iff h, MostInRange]

/-- What the module reports fits the buffers. -/
lemma filterSonarsFromMedian_eq {s : SonarModule K} {leftOld rightOld lefts rights : List K}
    (hleft : s.left.buf.Represents leftOld lefts)
    (hright : s.right.buf.Represents rightOld rights) :
    ∃ processed, s.filterSonarsFromMedian = some { s with processed := processed } ∧
      Reports processed (keepLast 5 (leftOld ++ lefts)) (keepLast 5 (rightOld ++ rights)) := by
  have hkth : ∀ old vs : List K, old.length = 5 →
      ∃ v, kth (keepLast 5 (old ++ vs)) 2 = some v := by
    intro old vs hold
    refine exists_kth ?_
    rw [length_keepLast (by rw [List.length_append]; omega)]
    omega
  obtain ⟨leftDistance, hl⟩ := hkth leftOld lefts hleft.length_old
  obtain ⟨rightDistance, hr⟩ := hkth rightOld rights hright.length_old
  have hmedianLeft : s.left.buf.getMedian = some leftDistance := (kth_perm hleft.perm _).trans hl
  have hmedianRight : s.right.buf.getMedian = some rightDistance :=
    (kth_perm hright.perm _).trans hr
  refine ⟨_, by rw [filterSonarsFromMedian, hmedianLeft, hmedianRight]; rfl, ?_⟩
  have hflag : ∀ center side : Bool,
      (if center then false else side) = true ↔ side = true ∧ center = false := by decide
  refine ⟨hl, hr, ?_, ?_, ?_, rfl⟩
  · simp only [Bool.and_eq_true, decide_eq_true_eq, inRange_iff hl, inRange_iff hr, and_assoc]
  · rw [← inRange_iff hl]
    exact hflag _ _
  · rw [← inRange_iff hr]
    exact hflag _ _

/-- What holds between two frames once the sonars have been reset. -/
structure Inv (leftOld rightOld : List K) (frames : List (SonarFrame K)) (s : SonarModule K) :
    Prop where
  left : s.left.buf.Represents leftOld (frames.map SonarFrame.left)
  right : s.right.buf.Represents rightOld (frames.map SonarFrame.right)
  lastSendTime : 0 ≤ s.lastSendTime
  enabled : s.sonarModuleEnabled = true
  reports : frames ≠ [] → Reports s.processed
    (keepLast 5 (leftOld ++ frames.map SonarFrame.left))
    (keepLast 5 (rightOld ++ frames.map SonarFrame.right))

/-- A reading is taken over. -/
lemma addDistance_eq {side : SonarSide K} {old vs : List K} (h : side.buf.Represents old vs)
    (distance : K) : ∃ side', addDistance distance side = some side' ∧
      side'.buf.Represents old (vs ++ [distance]) := by
  obtain ⟨buf, hadd, hbuf⟩ := h.add distance
  rw [addDistance, hadd, Option.map_some]
  by_cases hlt : distance < maxDistance
  · exact ⟨_, congrArg some (if_pos hlt), hbuf⟩
  · exact ⟨_, congrArg some (if_neg hlt), hbuf⟩

/-- A frame takes over its readings and reports the last five. -/
lemma Inv.processFrame {leftOld rightOld : List K} {frames : List (SonarFrame K)}
    {s : SonarModule K} (h : Inv leftOld rightOld frames s) {frame : SonarFrame K}
    (hnow : 0 ≤ frame.now) :
    ∃ s', s.processFrame frame = some s' ∧ Inv leftOld rightOld (frames ++ [frame]) s' := by
  obtain ⟨left, hleft, hleftBuf⟩ := addDistance_eq h.left frame.left
  obtain ⟨right, hright, hrightBuf⟩ := addDistance_eq h.right frame.right
  obtain ⟨processed, hfilter, hreports⟩ := filterSonarsFromMedian_eq
    (s := { s with left := left, right := right }) hleftBuf hrightBuf
  have hsonars : s.processSonars frame =
      some { s with left := left, right := right, processed := processed } := by
    rw [processSonars, hleft, Option.bind_some, hright, Option.bind_some]
    exact (if_pos h.enabled).trans hfilter
  refine ⟨_, by rw [SonarModule.processFrame, if_neg (not_lt.mpr h.lastSendTime), hsonars,
    Option.map_some], ?_⟩
  rw [processCommands]
  split
  · exact ⟨by simpa using hleftBuf, by simpa using hrightBuf, hnow, h.enabled,
      fun _ => by simpa using hreports⟩
  · exact ⟨by simpa using hleftBuf, by simpa using hrightBuf, h.lastSendTime, h.enabled,
      fun _ => by simpa using hreports⟩

/-- A run takes over the readings of all its frames. -/
lemma Inv.run {leftOld rightOld : List K} {frames : List (SonarFrame K)} {s : SonarModule K}
    (h : Inv leftOld rightOld frames s) (more : List (SonarFrame K))
    (hnow : ∀ frame ∈ more, 0 ≤ frame.now) :
    ∃ s', s.run more = some s' ∧ Inv leftOld rightOld (frames ++ more) s' := by
  induction more generalizing s frames with
  | nil => exact ⟨s, rfl, by rwa [List.append_nil]⟩
  | cons frame more ih =>
    obtain ⟨hframe, hmore⟩ := List.forall_mem_cons.mp hnow
    obtain ⟨next, hstep, hnext⟩ := h.processFrame hframe
    obtain ⟨s', hrun, hs'⟩ := ih hnext hmore
    refine ⟨s', ?_, by rwa [List.append_cons]⟩
    rw [SonarModule.run, hstep, Option.bind_some, hrun]

end SonarModule

end NaoSoccer
