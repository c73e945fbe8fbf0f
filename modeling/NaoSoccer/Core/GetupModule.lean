import NaoSoccer.Core.Blocks
import NaoSoccer.Core.PoseMirror
import NaoSoccer.Core.SpecialMotion
import NaoSoccer.Foundation.StageDeadline

/-!
# Getting up

`GetupModule` brings a fallen robot to its feet.  While the robot still falls it prepares its arms
and goes limp; then it turns the stiffness on, waits until it is known on which side the robot lies,
crosses the legs once if it lies on neither, executes a stand up motion, and does so again if the
robot still lies there at the end.

`MotionCore` starts a getup in a frame in which the robot falls and no getup is going on, and gives
the module all frames until it has finished.

Times are exact numbers, and the motions are those that `loadMotionFiles` has loaded.  `Getup` is no
motion of its own: its list is empty, and to ask when it ends is an error here.
-/

namespace NaoSoccer

open ExactDecimal SpecialMotion

/-- `SpecialMotionModule::Motion`, and `NUM_Motions` -/
inductive GetupMotion
  | getup
  | standUpBackNao
  | standUpFrontNao
  | backFreeArms
  | numMotions
  deriving DecidableEq, Repr

/-- `SpecialMotionModule::State` -/
inductive GetupState
  | initial
  | execute
  | wait
  | finished
  | stiffnessOff
  | prepareArms
  | stiffnessOn
  | cross
  | stand
  | freeArms
  | pauseBeforeRestart
  | noEscape
  deriving DecidableEq, Repr

/-- What a frame finds in the other blocks: the time, the walk request and the joint angles. -/
structure GetupFrame (K : Type) where
  now : K
  tiltFallenCounter : ℤ
  rollFallenCounter : ℤ
  getupFromKeeperDive : Bool
  /-- The motion of the walk request is `FALLING`. -/
  falling : Bool
  values : Joint → K

/-- The state of `GetupModule`, and `getting_up_side_` of the odometry. -/
structure GetupModule (K : Type) where
  currMotion : GetupMotion
  state : GetupState
  stateStartTime : K
  storedAngles : Joint → K
  storedCommands : Joint → K
  getUpSide : GetupType
  gettingUpSide : GetupType
  numCrosses : ℕ
  numRestarts : ℕ

/-- What the module is given once: the motions that have been read, and the unit of angles. -/
structure GetupMotions (K : Type) where
  parsed : GetupMotion → List (SpecialMotion K Joint)
  degToRad : K

namespace GetupModule

variable {K : Type} [Field K] [LinearOrder K]

/-- `PREPARE_ARMS_TIME` -/
def prepareArmsTime : K := decimal 30 100

/-- `STIFFNESS_OFF_TIME` -/
def stiffnessOffTime : K := decimal 25 100

/-- `CROSS_TIME` -/
def crossTime : K := decimal 5 10

/-- `PAUSE_BEFORE_RESTART_TIME` -/
def pauseBeforeRestartTime : K := decimal 75 100

/-- The time in `STIFFNESS_ON` that has to pass. -/
def stiffnessOnTime : K := decimal 1 1000

/-- The time that `selectGetup` waits for the robot to settle. -/
def selectTime : K := decimal 2 10

/-- The time in `STAND`. -/
def standTime : K := decimal 5 10

/-- A command is given in the first frame of a state. -/
def firstFrameTime : K := decimal 15 1000

/-- `motionSeqList`: nothing is loaded for `Getup`. -/
def motionSeqList (motions : GetupMotions K) (m : GetupMotion) : List (SpecialMotion K Joint) :=
  match m with
  | .getup => []
  | .numMotions => []
  | m => loadMotion motions.degToRad (motions.parsed m)

/-- The module with its state in front of the first getup. -/
def construct (start : K) (stored : Joint → K) (side : GetupType) : GetupModule K :=
  { currMotion := .numMotions
    state := .finished
    stateStartTime := start
    storedAngles := stored
    storedCommands := stored
    getUpSide := side
    gettingUpSide := .none
    numCrosses := 0
    numRestarts := 0 }

/-- `SpecialMotionModule::isDoingSpecialMotion`, `GetupModule::isGettingUp` -/
def isGettingUp (s : GetupModule K) : Bool := s.state ≠ .initial && s.state ≠ .finished

/-- `GetupModule::needsStand` -/
def needsStand (s : GetupModule K) : Bool := s.state = .stand

/-- `SpecialMotionModule::transitionToState` -/
def transitionToState (now : K) (nstate : GetupState) (s : GetupModule K) : GetupModule K :=
  { s with state := nstate, stateStartTime := now }

/-- `SpecialMotionModule::startMotion` -/
def startMotion (now : K) (m : GetupMotion) (s : GetupModule K) : GetupModule K :=
  transitionToState now .initial { s with currMotion := m }

/-- `GetupModule::initGetup` -/
def initGetup (now : K) (s : GetupModule K) : GetupModule K :=
  { startMotion now .getup { s with getUpSide := .unknown } with
    numCrosses := 0
    numRestarts := 0 }

/-- `GetupModule::setBackGetup` -/
def setBackGetup (s : GetupModule K) : GetupModule K :=
  { s with gettingUpSide := .back, getUpSide := .back, currMotion := .standUpBackNao }

/-- `GetupModule::setFrontGetup` -/
def setFrontGetup (s : GetupModule K) : GetupModule K :=
  { s with gettingUpSide := .front, getUpSide := .front, currMotion := .standUpFrontNao }

/-- `SpecialMotionModule::getTimeInState` -/
def getTimeInState (now : K) (s : GetupModule K) : K := now - s.stateStartTime

/-- `SpecialMotionModule::isMotionDoneExecuting` -/
def isMotionDoneExecuting (motions : GetupMotions K) (now : K) (s : GetupModule K) :
    Option Bool :=
  (motionSeqList motions s.currMotion).getLast?.map fun last =>
    decide (s.getTimeInState now > last.time)

/-- The part of the state that the special motions use. -/
def special (motions : GetupMotions K) (s : GetupModule K) : SpecialMotionModule K Joint :=
  { motion := motionSeqList motions s.currMotion
    state := .execute
    stateStartTime := s.stateStartTime
    storedAngles := s.storedAngles
    storedCommands := s.storedCommands }

/-- The state after something was done with the special motions. -/
def store (special : SpecialMotionModule K Joint × List (MotionWrite K Joint))
    (s : GetupModule K) : GetupModule K × List (MotionWrite K Joint) :=
  ({ s with storedAngles := special.1.storedAngles, storedCommands := special.1.storedCommands },
    special.2)

/-- `maxMove` of `SpecialMotionModule::processJointCommands` -/
def maxMove (motions : GetupMotions K) : K := motions.degToRad * (20 : ℕ)

/-- `SpecialMotionModule::executeMotionSequence` -/
def executeMotionSequence (motions : GetupMotions K) (frame : GetupFrame K)
    (s : GetupModule K) : GetupModule K × List (MotionWrite K Joint) :=
  s.store ((s.special motions).executeMotionSequence (maxMove motions)
    (s.getTimeInState frame.now) frame.values)

/-- `SpecialMotionModule::processJointCommands` -/
def processJointCommands (motions : GetupMotions K) (time : K) (angles : Joint → K)
    (s : GetupModule K) : GetupModule K × List (MotionWrite K Joint) :=
  s.store ((s.special motions).processJointCommands (maxMove motions) time angles)

/-- `JointCommandBlock::setAllStiffness` -/
def setAllStiffness (target : K) (time : ℕ) : List (MotionWrite K Joint) :=
  [.stiffness time fun _ => target]

/-- The joints that `prepareArms` moves, and their angles in degrees. -/
def preparedAngle : Joint → Option K
  | .HeadPitch => some (-(15 : ℕ))
  | .LShoulderPitch => some (-(116 : ℕ))
  | .LShoulderRoll => some (12 : ℕ)
  | .LElbowYaw => some (-(85 : ℕ))
  | .LElbowRoll => some 0
  | .RShoulderPitch => some (-(116 : ℕ))
  | .RShoulderRoll => some (12 : ℕ)
  | .RElbowYaw => some (-(85 : ℕ))
  | .RElbowRoll => some 0
  | _ => none

/-- `GetupModule::prepareArms` -/
def prepareArms (motions : GetupMotions K) (frame : GetupFrame K) (s : GetupModule K) :
    GetupModule K × List (MotionWrite K Joint) :=
  let angles : Joint → K := fun j =>
    ((preparedAngle j).map fun degrees => motions.degToRad * degrees).getD (frame.values j)
  let commanded := s.processJointCommands motions 0 angles
  (commanded.1, commanded.2 ++ [.stiffness 0 fun j =>
    if (preparedAngle (K := K) j).isSome then 1 else 0])

/-- The angles of `cross`. -/
def crossAngle (degToRad : K) : Joint → K
  | .HeadPitch => degToRad * (30 : ℕ)
  | .LShoulderRoll => decimal 15708 10000
  | .RShoulderRoll => decimal 15708 10000
  | .LShoulderPitch => -decimal 15708 10000
  | .RShoulderPitch => -decimal 15708 10000
  | _ => 0

/-- `GetupModule::cross` -/
def cross (motions : GetupMotions K) (frame : GetupFrame K) (s : GetupModule K) :
    GetupModule K × List (MotionWrite K Joint) :=
  if s.getTimeInState frame.now > decimal 25 1000 then (s, [])
  else
    let commanded := s.processJointCommands motions (100 : ℕ) (crossAngle motions.degToRad)
    (commanded.1, commanded.2 ++ setAllStiffness 1 10)

/-- `GetupModule::selectGetup` -/
def selectGetup (frame : GetupFrame K) (s : GetupModule K) : GetupModule K :=
  let tiltSideThreshold : ℤ := if s.numCrosses > 0 then 2 else 5
  if frame.tiltFallenCounter < -tiltSideThreshold then s.setBackGetup
  else if frame.tiltFallenCounter > tiltSideThreshold then s.setFrontGetup
  else if s.numCrosses = 0 ∧ frame.rollFallenCounter ≥ 2 then s.transitionToState frame.now .cross
  else if s.getTimeInState frame.now < selectTime then s
  else s.setBackGetup

/-- The first statement of `processFrameChild`: the side of the odometry. -/
def setOdometry (s : GetupModule K) : GetupModule K :=
  if s.isGettingUp then { s with gettingUpSide := s.getUpSide }
  else { s with gettingUpSide := .none, getUpSide := .unknown }

/-- `fallenCountHigh` -/
def fallenCountHigh (frame : GetupFrame K) : Bool :=
  |frame.rollFallenCounter| ≥ 50 || |frame.tiltFallenCounter| ≥ 50

/-- The robot still lies on the ground. -/
def stillFallen (frame : GetupFrame K) : Bool :=
  |frame.tiltFallenCounter| > 2 || |frame.rollFallenCounter| > 2

/-- The case `EXECUTE` of `processFrameChild` once a motion is chosen. -/
def executeChosen (motions : GetupMotions K) (frame : GetupFrame K) (s : GetupModule K) :
    Option (GetupModule K × List (MotionWrite K Joint)) :=
  (s.isMotionDoneExecuting motions frame.now).map fun done =>
    if done then
      if stillFallen frame then
        ((s.selectGetup frame).transitionToState frame.now .stiffnessOn, [])
      else (s.transitionToState frame.now .stand, [])
    else
      let stiffness :=
        if s.getTimeInState frame.now < firstFrameTime then setAllStiffness 1 10 else []
      let executed := s.executeMotionSequence motions frame
      (executed.1, stiffness ++ executed.2)

/-- The case `EXECUTE` of `processFrameChild` -/
def execute (motions : GetupMotions K) (frame : GetupFrame K) (s : GetupModule K) :
    Option (GetupModule K × List (MotionWrite K Joint)) :=
  if s.currMotion = .getup then
    let s := s.selectGetup frame
    if s.currMotion = .getup then some (s, [])
    else executeChosen motions frame { s with stateStartTime := frame.now }
  else executeChosen motions frame s

/-- The case `FREE_ARMS` of `processFrameChild` -/
def freeArms (motions : GetupMotions K) (frame : GetupFrame K) (s : GetupModule K) :
    Option (GetupModule K × List (MotionWrite K Joint)) :=
  let s := { s with currMotion := .backFreeArms }
  (s.isMotionDoneExecuting motions frame.now).map fun done =>
    if done then (({ s with currMotion := .getup }).transitionToState frame.now .execute, [])
    else
      let stiffness :=
        if s.getTimeInState frame.now < firstFrameTime then setAllStiffness 1 10 else []
      let executed := s.executeMotionSequence motions frame
      (executed.1, stiffness ++ executed.2)

/-- The cases of `processFrameChild` -/
def processState (motions : GetupMotions K) (frame : GetupFrame K) (s : GetupModule K) :
    Option (GetupModule K × List (MotionWrite K Joint)) :=
  let transition := fun nstate => some (s.transitionToState frame.now nstate, [])
  match s.state with
  | .initial =>
    if frame.getupFromKeeperDive then transition .cross
    else if fallenCountHigh frame then transition .stiffnessOn
    else transition .prepareArms
  | .prepareArms =>
    if s.getTimeInState frame.now > prepareArmsTime || fallenCountHigh frame then
      transition .stiffnessOff
    else if s.getTimeInState frame.now < firstFrameTime then some (s.prepareArms motions frame)
    else some (s, [])
  | .stiffnessOff =>
    if s.getTimeInState frame.now > stiffnessOffTime || fallenCountHigh frame then
      transition .stiffnessOn
    else some (s, setAllStiffness 0 10)
  | .stiffnessOn =>
    if s.getTimeInState frame.now > stiffnessOnTime then transition .execute
    else some (s, setAllStiffness 1 10)
  | .cross =>
    if s.getTimeInState frame.now < crossTime then some (s.cross motions frame)
    else
      some ({ s.transitionToState frame.now .execute with numCrosses := s.numCrosses + 1 }, [])
  | .execute => s.execute motions frame
  | .stand => if s.getTimeInState frame.now > standTime then transition .finished else some (s, [])
  | .freeArms => s.freeArms motions frame
  | .pauseBeforeRestart =>
    if s.getTimeInState frame.now > pauseBeforeRestartTime then transition .stiffnessOn
    else some (s, setAllStiffness 0 10)
  -- the cases of `SpecialMotionModule::processFrame`
  | .wait =>
    if s.getTimeInState frame.now > decimal 5 10 then transition .finished else some (s, [])
  | .finished => some (s, [])
  | .noEscape => some (s, [])

/-- `SpecialMotionModule::processFrame` with `GetupModule::processFrameChild` -/
def processFrame (motions : GetupMotions K) (frame : GetupFrame K) (s : GetupModule K) :
    Option (GetupModule K × List (MotionWrite K Joint)) :=
  s.setOdometry.processState motions frame

/-- What `MotionCore::processMotionFrame` does with the module: `stand` has taken the motion of the
walk request back if the getup asks for it. -/
def motionFrame (motions : GetupMotions K) (frame : GetupFrame K) (s : GetupModule K) :
    Option (GetupModule K × List (MotionWrite K Joint)) :=
  let falling := frame.falling && !s.needsStand
  if s.isGettingUp || falling then
    let s := if !s.isGettingUp then s.initGetup frame.now else s
    s.processFrame motions frame
  else some (s, [])

/-- A run of `MotionCore` over some frames. -/
def run (motions : GetupMotions K) (s : GetupModule K) :
    List (GetupFrame K) → Option (GetupModule K)
  | [] => some s
  | frame :: frames => (s.motionFrame motions frame).bind fun next => run motions next.1 frames

end GetupModule

/-! ## What a frame can do -/

/-- The part of the state that decides what comes next. -/
structure GetupControl (K : Type) where
  currMotion : GetupMotion
  state : GetupState
  stateStartTime : K
  getUpSide : GetupType
  numCrosses : ℕ
  numRestarts : ℕ

/-- A stand up motion is chosen, for the side that the robot lies on. -/
inductive Chosen : GetupMotion → GetupType → Prop
  | back : Chosen .standUpBackNao .back
  | front : Chosen .standUpFrontNao .front

namespace GetupModule

variable {K : Type} [Field K] [LinearOrder K]

/-- The part of the state that decides what comes next. -/
def control (s : GetupModule K) : GetupControl K :=
  { currMotion := s.currMotion
    state := s.state
    stateStartTime := s.stateStartTime
    getUpSide := s.getUpSide
    numCrosses := s.numCrosses
    numRestarts := s.numRestarts }

/-- How long the module stays in a state while no motion is chosen. -/
def stateLimit : GetupState → K
  | .prepareArms => prepareArmsTime
  | .stiffnessOff => stiffnessOffTime
  | .stiffnessOn => stiffnessOnTime
  | .cross => crossTime
  | .execute => selectTime
  | _ => 0

/-- What a frame can do to the state of the module. -/
inductive Moves (motions : GetupMotions K) (frame : GetupFrame K) :
    GetupControl K → GetupControl K → Prop
  /-- There is no getup. -/
  | idle {c : GetupControl K} (h : c.state = .finished) (hfalling : frame.falling = false) :
      Moves motions frame c c
  /-- A getup begins. -/
  | start {c : GetupControl K} {nstate : GetupState} (h : c.state = .finished)
      (hfalling : frame.falling = true)
      (hnext : nstate = .prepareArms ∨ nstate = .stiffnessOn ∨ nstate = .cross) :
      Moves motions frame c ⟨.getup, nstate, frame.now, .unknown, 0, 0⟩
  /-- The module waits; it does not wait longer than a state may take. -/
  | wait {c : GetupControl K}
      (h : c.state = .prepareArms ∨ c.state = .stiffnessOff ∨ c.state = .stiffnessOn ∨
        c.state = .cross ∨ (c.state = .execute ∧ c.currMotion = .getup))
      (hlimit : frame.now - c.stateStartTime ≤ stateLimit c.state) : Moves motions frame c c
  /-- The module executes a motion or stands. -/
  | work {c : GetupControl K}
      (h : c.state = .stand ∨ (c.state = .execute ∧ c.currMotion ≠ .getup)) :
      Moves motions frame c c
  | limp {c : GetupControl K} (h : c.state = .prepareArms) :
      Moves motions frame c { c with state := .stiffnessOff, stateStartTime := frame.now }
  | stiffen {c : GetupControl K} (h : c.state = .stiffnessOff) :
      Moves motions frame c { c with state := .stiffnessOn, stateStartTime := frame.now }
  | begin {c : GetupControl K} (h : c.state = .stiffnessOn) :
      Moves motions frame c { c with state := .execute, stateStartTime := frame.now }
  | crossLegs {c : GetupControl K} (h : c.state = .execute) (hmotion : c.currMotion = .getup)
      (hcrosses : c.numCrosses = 0) :
      Moves motions frame c { c with state := .cross, stateStartTime := frame.now }
  | crossed {c : GetupControl K} (h : c.state = .cross) :
      Moves motions frame c
        { c with state := .execute, stateStartTime := frame.now, numCrosses := c.numCrosses + 1 }
  | choose {c : GetupControl K} {m : GetupMotion} {side : GetupType} (h : c.state = .execute)
      (hmotion : c.currMotion = .getup) (hchosen : Chosen m side) :
      Moves motions frame c
        { c with currMotion := m, getUpSide := side, stateStartTime := frame.now }
  /-- The robot still lies on the ground after a motion. -/
  | again {c : GetupControl K} {m : GetupMotion} {side : GetupType} (h : c.state = .execute)
      (hmotion : c.currMotion ≠ .getup)
      (hchosen : (m = c.currMotion ∧ side = c.getUpSide) ∨ Chosen m side) :
      Moves motions frame c
        { c with
          currMotion := m
          getUpSide := side
          state := .stiffnessOn
          stateStartTime := frame.now }
  /-- The motion is at its end and the robot is not fallen any more. -/
  | up {c : GetupControl K} (h : c.state = .execute) (hmotion : c.currMotion ≠ .getup)
      (hdone : backTime (motionSeqList motions c.currMotion) < frame.now - c.stateStartTime)
      (hfallen : stillFallen frame = false) :
      Moves motions frame c { c with state := .stand, stateStartTime := frame.now }
  | finish {c : GetupControl K} (h : c.state = .stand) :
      Moves motions frame c { c with state := .finished, stateStartTime := frame.now }

/-- While the arms are prepared no motion is chosen. -/
lemma Moves.currMotion_of_prepareArms {motions : GetupMotions K} {frame : GetupFrame K}
    {c c' : GetupControl K} (h : Moves motions frame c c') (hs : c.state = .prepareArms) :
    c'.currMotion = c.currMotion := by
  cases h with
  | idle | wait | work | limp | stiffen | begin | crossLegs | crossed | up | finish => rfl
  | start h => exact nomatch hs.symm.trans h
  | choose h _ _ | again h _ _ => exact nomatch hs.symm.trans h

/-- What holds of the module between two frames. -/
structure Inv (c : GetupControl K) : Prop where
  /-- The other states are not reached. -/
  state : c.state = .finished ∨ c.state = .prepareArms ∨ c.state = .stiffnessOff ∨
    c.state = .stiffnessOn ∨ c.state = .cross ∨ c.state = .execute ∨ c.state = .stand
  /-- The motion is the one for the side that the robot lies on. -/
  motion : c.state ≠ .finished →
    (c.currMotion = .getup ∧ c.getUpSide = .unknown) ∨ Chosen c.currMotion c.getUpSide
  early : c.state = .prepareArms ∨ c.state = .stiffnessOff ∨ c.state = .cross →
    c.currMotion = .getup
  stand : c.state = .stand → c.currMotion ≠ .getup
  /-- The legs are crossed at most once. -/
  crosses : c.numCrosses ≤ 1
  cross : c.state = .prepareArms ∨ c.state = .stiffnessOff ∨ c.state = .cross → c.numCrosses = 0
  restarts : c.numRestarts = 0

/-- Frames keep the invariant. -/
lemma Inv.moves {motions : GetupMotions K} {frame : GetupFrame K} {c c' : GetupControl K}
    (h : Inv c) (hstep : Moves motions frame c c') : Inv c' := by
  cases hstep with
  | idle _ _ | wait _ _ | work _ => exact h
  | start _ _ hnext =>
    refine ⟨?_, fun _ => .inl ⟨rfl, rfl⟩, fun _ => rfl, ?_, Nat.zero_le _, fun _ => rfl, rfl⟩
    · rcases hnext with rfl | rfl | rfl <;> simp
    · rintro rfl
      simp at hnext
  | limp hs =>
    exact ⟨by simp, fun _ => h.motion (by simp [hs]), fun _ => h.early (.inl hs), by simp,
      h.crosses, fun _ => h.cross (.inl hs), h.restarts⟩
  | stiffen hs =>
    exact ⟨by simp, fun _ => h.motion (by simp [hs]), by simp, by simp, h.crosses, by simp,
      h.restarts⟩
  | begin hs =>
    exact ⟨by simp, fun _ => h.motion (by simp [hs]), by simp, by simp, h.crosses, by simp,
      h.restarts⟩
  | crossLegs hs hmotion hcrosses =>
    exact ⟨by simp, fun _ => h.motion (by simp [hs]), fun _ => hmotion, by simp, h.crosses,
      fun _ => hcrosses, h.restarts⟩
  | crossed hs =>
    refine ⟨by simp, fun _ => h.motion (by simp [hs]), by simp, by simp, ?_, by simp, h.restarts⟩
    simp [h.cross (.inr (.inr hs))]
  | choose hs _ hchosen =>
    exact ⟨by simp [hs], fun _ => .inr hchosen, by simp [hs], by simp [hs], h.crosses,
      by simp [hs], h.restarts⟩
  | again hs _ hchosen =>
    refine ⟨by simp, fun _ => ?_, by simp, by simp, h.crosses, by simp, h.restarts⟩
    obtain ⟨rfl, rfl⟩ | hchosen := hchosen
    · exact h.motion (by simp [hs])
    · exact .inr hchosen
  | up hs hmotion _ _ =>
    exact ⟨by simp, fun _ => h.motion (by simp [hs]), by simp, fun _ => hmotion, h.crosses,
      by simp, h.restarts⟩
  | finish hs =>
    exact ⟨by simp, by simp, by simp, by simp, h.crosses, by simp, h.restarts⟩

/-! ## Every frame makes one of these moves -/

variable {motions : GetupMotions K} {frame : GetupFrame K} {s : GetupModule K}

/-- What `selectGetup` does. -/
lemma selectGetup_cases (frame : GetupFrame K) (s : GetupModule K) :
    (∃ m side, Chosen m side ∧ (s.selectGetup frame).control =
        { s.control with currMotion := m, getUpSide := side }) ∨
      (s.numCrosses = 0 ∧ s.selectGetup frame = s.transitionToState frame.now .cross) ∨
      (s.getTimeInState frame.now < selectTime ∧ s.selectGetup frame = s) := by
  unfold selectGetup
  dsimp only
  generalize (if s.numCrosses > 0 then (2 : ℤ) else 5) = tiltSideThreshold
  split
  · exact .inl ⟨_, _, .back, rfl⟩
  · split
    · exact .inl ⟨_, _, .front, rfl⟩
    · split
      next hcross => exact .inr (.inl ⟨hcross.1, rfl⟩)
      next =>
        split
        next hwait => exact .inr (.inr ⟨hwait, rfl⟩)
        next => exact .inl ⟨_, _, .back, rfl⟩

/-- A stand up motion has an end. -/
lemma isMotionDoneExecuting_of_chosen {side : GetupType} (h : Chosen s.currMotion side) :
    s.isMotionDoneExecuting motions frame.now =
      some (decide
        (s.getTimeInState frame.now > backTime (motionSeqList motions s.currMotion))) := by
  have hne : motionSeqList motions s.currMotion ≠ [] := by
    revert h
    generalize s.currMotion = m
    rintro (_ | _) <;> exact List.cons_ne_nil _ _
  rw [isMotionDoneExecuting, List.getLast?_eq_getElem?, backTime, timeAt]
  have hlt : (motionSeqList motions s.currMotion).length - 1 <
      (motionSeqList motions s.currMotion).length := by
    have := List.length_pos_of_ne_nil hne
    omega
  rw [List.getElem?_eq_getElem hlt]
  rfl

/-- A frame in which a chosen motion is executed. -/
lemma executeChosen_moves (motions : GetupMotions K) (frame : GetupFrame K) (s : GetupModule K)
    {side : GetupType} (h : Chosen s.currMotion side) :
    ∃ s' writes, s.executeChosen motions frame = some (s', writes) ∧
      (s'.control = s.control ∨
      (backTime (motionSeqList motions s.currMotion) < frame.now - s.stateStartTime ∧
        stillFallen frame = false ∧
        s'.control = { s.control with state := .stand, stateStartTime := frame.now }) ∨
      (backTime (motionSeqList motions s.currMotion) < frame.now - s.stateStartTime ∧
        ∃ m side, ((m = s.currMotion ∧ side = s.getUpSide) ∨ Chosen m side) ∧
        s'.control = { s.control with
          currMotion := m
          getUpSide := side
          state := .stiffnessOn
          stateStartTime := frame.now })) := by
  rw [executeChosen, isMotionDoneExecuting_of_chosen h, Option.map_some]
  by_cases hdone : s.getTimeInState frame.now > backTime (motionSeqList motions s.currMotion)
  · rw [if_pos (decide_eq_true hdone)]
    cases hfallen : stillFallen frame with
    | false => exact ⟨_, _, rfl, .inr (.inl ⟨hdone, rfl, rfl⟩)⟩
    | true =>
      refine ⟨_, _, rfl, .inr (.inr ⟨hdone, ?_⟩)⟩
      -- the transition that `selectGetup` may have made is overwritten
      obtain ⟨m, side, hchosen, hcontrol⟩ | ⟨-, hcross⟩ | ⟨-, hsame⟩ := selectGetup_cases frame s
      · refine ⟨m, side, .inr hchosen, ?_⟩
        simp only [control, transitionToState, GetupControl.mk.injEq] at hcontrol ⊢
        exact ⟨hcontrol.1, trivial, trivial, hcontrol.2.2.2⟩
      · exact ⟨_, _, .inl ⟨rfl, rfl⟩, by rw [hcross]; rfl⟩
      · exact ⟨_, _, .inl ⟨rfl, rfl⟩, by rw [hsame]; rfl⟩
  · rw [if_neg (by simpa using hdone)]
    exact ⟨_, _, rfl, .inl rfl⟩

section Execute

variable [IsStrictOrderedRing K]

/-- If no entry has a negative duration, no motion ends before it begins. -/
lemma backTime_nonneg (hnonneg : ∀ m, ∀ e ∈ motions.parsed m, 0 ≤ e.time) (m : GetupMotion) :
    0 ≤ backTime (motionSeqList motions m) := by
  have hloaded : ∀ m, 0 ≤ backTime (loadMotion motions.degToRad (motions.parsed m)) := fun m => by
    rw [backTime_loadMotion]
    have hle := elapsed_le (hnonneg m) 0
    simpa [elapsed] using hle
  cases m with
  | getup | numMotions => simp [motionSeqList, backTime, timeAt]
  | standUpBackNao | standUpFrontNao | backFreeArms => exact hloaded _

/-- A frame in the state `EXECUTE`. -/
lemma execute_moves (hnonneg : ∀ m, ∀ e ∈ motions.parsed m, 0 ≤ e.time)
    (hstate : s.state = .execute) (hmotion : s.currMotion = .getup ∨ Chosen s.currMotion s.getUpSide) :
    ∃ s' writes, s.execute motions frame = some (s', writes) ∧
      Moves motions frame s.control s'.control := by
  rw [execute]
  split
  next hgetup =>
    dsimp only
    obtain ⟨m, side, hchosen, hcontrol⟩ | ⟨hzero, hcross⟩ | ⟨hwait, hsame⟩ :=
      selectGetup_cases frame s
    · have hm : (s.selectGetup frame).currMotion = m := congrArg GetupControl.currMotion hcontrol
      have hside : (s.selectGetup frame).getUpSide = side :=
        congrArg GetupControl.getUpSide hcontrol
      have hne : m ≠ .getup := by rintro rfl; exact nomatch hchosen
      rw [if_neg (by rwa [hm])]
      -- the motion begins in this frame, so it is not done
      obtain ⟨s', writes, hexecute, hmove⟩ := executeChosen_moves motions frame
        { s.selectGetup frame with stateStartTime := frame.now } (by rwa [hm] : Chosen _ side)
      have hzero : ¬ backTime (motionSeqList motions (s.selectGetup frame).currMotion) <
          frame.now - frame.now := by
        rw [sub_self]
        exact not_lt.mpr (backTime_nonneg hnonneg _)
      obtain hsame | ⟨hdone, -⟩ | ⟨hdone, -⟩ := hmove
      · refine ⟨s', writes, hexecute, ?_⟩
        have hnext : s'.control = { s.control with
            currMotion := m, getUpSide := side, stateStartTime := frame.now } := by
          rw [hsame]
          simp only [control, GetupControl.mk.injEq] at hcontrol ⊢
          tauto
        rw [hnext]
        exact .choose hstate hgetup hchosen
      · exact absurd hdone hzero
      · exact absurd hdone hzero
    · have hm : (s.selectGetup frame).currMotion = .getup := by rw [hcross]; exact hgetup
      rw [if_pos hm, hcross]
      exact ⟨_, _, rfl, .crossLegs hstate hgetup hzero⟩
    · rw [hsame, if_pos hgetup]
      refine ⟨_, _, rfl, .wait (.inr (.inr (.inr (.inr ⟨hstate, hgetup⟩)))) ?_⟩
      have hlimit : (stateLimit s.control.state : K) = selectTime := by
        show stateLimit s.state = selectTime
        rw [hstate]
        rfl
      rw [hlimit]
      exact hwait.le
  next hgetup =>
    have hchosen := hmotion.resolve_left hgetup
    obtain ⟨s', writes, hexecute, hmove⟩ := executeChosen_moves motions frame s hchosen
    refine ⟨s', writes, hexecute, ?_⟩
    obtain hsame | ⟨hdone, hfallen, hup⟩ | ⟨-, m, side, hm, hagain⟩ := hmove
    · rw [hsame]
      exact .work (.inr ⟨hstate, hgetup⟩)
    · rw [hup]
      exact .up hstate hgetup hdone hfallen
    · rw [hagain]
      exact .again hstate hgetup hm

omit [IsStrictOrderedRing K] in
/-- A state that is not left lasts no longer than it may. -/
lemma stay_le {state : GetupState} (hs : s.state = state)
    (hlimit : s.getTimeInState frame.now ≤ stateLimit state) :
    frame.now - s.control.stateStartTime ≤ stateLimit s.control.state := by
  have hcontrol : s.control.state = state := hs
  rw [hcontrol]
  exact hlimit

/-- A frame of a getup that is going on. -/
lemma processState_moves (hnonneg : ∀ m, ∀ e ∈ motions.parsed m, 0 ≤ e.time) (h : Inv s.control)
    (hne : s.state ≠ .finished) :
    ∃ s' writes, s.processState motions frame = some (s', writes) ∧
      Moves motions frame s.control s'.control := by
  have hmotion := h.motion hne
  rcases h.state with hs | hs | hs | hs | hs | hs | hs
  all_goals change s.state = _ at hs
  · exact absurd hs hne
  all_goals simp only [processState, hs]
  · split
    next => exact ⟨_, _, rfl, .limp hs⟩
    next hlimit =>
      simp only [Bool.or_eq_true, decide_eq_true_eq, not_or, not_lt] at hlimit
      have hwait : Moves motions frame s.control s.control :=
        .wait (.inl hs) (stay_le hs hlimit.1)
      split
      · exact ⟨_, _, rfl, hwait⟩
      · exact ⟨_, _, rfl, hwait⟩
  · split
    next => exact ⟨_, _, rfl, .stiffen hs⟩
    next hlimit =>
      simp only [Bool.or_eq_true, decide_eq_true_eq, not_or, not_lt] at hlimit
      exact ⟨_, _, rfl, .wait (.inr (.inl hs)) (stay_le hs hlimit.1)⟩
  · split
    next => exact ⟨_, _, rfl, .begin hs⟩
    next hlimit =>
      exact ⟨_, _, rfl, .wait (.inr (.inr (.inl hs))) (stay_le hs (not_lt.mp hlimit))⟩
  · split
    next hlimit =>
      have hcross : (s.cross motions frame).1.control = s.control := by
        unfold cross
        split <;> rfl
      refine ⟨(s.cross motions frame).1, (s.cross motions frame).2, rfl, ?_⟩
      rw [hcross]
      exact .wait (.inr (.inr (.inr (.inl hs)))) (stay_le hs hlimit.le)
    next => exact ⟨_, _, rfl, .crossed hs⟩
  · exact execute_moves hnonneg hs (hmotion.imp And.left id)
  · split
    next => exact ⟨_, _, rfl, .finish hs⟩
    next => exact ⟨_, _, rfl, .work (.inl hs)⟩

omit [IsStrictOrderedRing K] in
/-- The first frame of a getup. -/
lemma processState_initial (motions : GetupMotions K) (frame : GetupFrame K) (s : GetupModule K)
    (hs : s.state = .initial) :
    ∃ nstate : GetupState, (nstate = .prepareArms ∨ nstate = .stiffnessOn ∨ nstate = .cross) ∧
      s.processState motions frame = some (s.transitionToState frame.now nstate, []) := by
  simp only [processState, hs]
  split
  · exact ⟨_, .inr (.inr rfl), rfl⟩
  · split
    · exact ⟨_, .inr (.inl rfl), rfl⟩
    · exact ⟨_, .inl rfl, rfl⟩

/-- Every frame makes one of the moves. -/
lemma motionFrame_moves (frame : GetupFrame K)
    (hnonneg : ∀ m, ∀ e ∈ motions.parsed m, 0 ≤ e.time) (h : Inv s.control) :
    ∃ s' writes, s.motionFrame motions frame = some (s', writes) ∧
      Moves motions frame s.control s'.control := by
  have hinitial : s.state ≠ .initial := by
    have hstate := h.state
    change s.state = _ ∨ _ at hstate
    rintro heq
    simp [control, heq] at hstate
  by_cases hfinished : s.state = .finished
  · have hup : s.isGettingUp = false := by simp [isGettingUp, hfinished]
    have hstand : s.needsStand = false := by simp [needsStand, hfinished]
    cases hfalling : frame.falling with
    | false =>
      refine ⟨s, [], ?_, .idle hfinished hfalling⟩
      simp [motionFrame, hup, hfalling]
    | true =>
      have hframe : s.motionFrame motions frame =
          (s.initGetup frame.now).processFrame motions frame := by
        simp [motionFrame, hup, hstand, hfalling]
      have hodometry : (s.initGetup frame.now).setOdometry =
          { s.initGetup frame.now with gettingUpSide := .none, getUpSide := .unknown } := rfl
      obtain ⟨nstate, hnext, hstart⟩ := processState_initial motions frame
        { s.initGetup frame.now with gettingUpSide := .none, getUpSide := .unknown } rfl
      rw [hframe, processFrame, hodometry]
      exact ⟨_, _, hstart, .start hfinished hfalling hnext⟩
  · have hup : s.isGettingUp = true := by simp [isGettingUp, hinitial, hfinished]
    have hframe : s.motionFrame motions frame = s.setOdometry.processState motions frame := by
      simp [motionFrame, hup, processFrame]
    have hodometry : s.setOdometry = { s with gettingUpSide := s.getUpSide } := if_pos hup
    rw [hframe, hodometry]
    exact processState_moves hnonneg h hfinished

/-! ## Runs -/

omit [Field K] [LinearOrder K] [IsStrictOrderedRing K] in
/-- In front of the first getup. -/
lemma inv_construct (start : K) (stored : Joint → K) (side : GetupType) :
    Inv (construct start stored side).control :=
  ⟨.inl rfl, fun h => absurd rfl h, by simp [control, construct], by simp [control, construct],
    Nat.zero_le _, by simp [control, construct], rfl⟩

omit [IsStrictOrderedRing K] in
/-- What the frame was like in which the module went over to standing. -/
lemma Moves.up_of_stand {c c' : GetupControl K} (h : Moves motions frame c c')
    (hnot : c.state ≠ .stand) (hstand : c'.state = .stand) :
    c.state = .execute ∧ c.currMotion ≠ .getup ∧
      backTime (motionSeqList motions c.currMotion) < frame.now - c.stateStartTime ∧
      stillFallen frame = false := by
  cases h with
  | up hs hmotion hdone hfallen => exact ⟨hs, hmotion, hdone, hfallen⟩
  | idle _ _ | wait _ _ | work _ => exact absurd hstand hnot
  | start _ _ hnext =>
    obtain rfl : _ = GetupState.stand := hstand
    simp at hnext
  | choose hs _ _ =>
    have : GetupState.execute = .stand := hs.symm.trans hstand
    exact nomatch this
  | limp | stiffen | begin | crossLegs | crossed | again | finish => exact nomatch hstand

/-- A run keeps the invariant, and no frame of it fails. -/
lemma run_inv (hnonneg : ∀ m, ∀ e ∈ motions.parsed m, 0 ≤ e.time) (h : Inv s.control)
    (frames : List (GetupFrame K)) : ∃ s', run motions s frames = some s' ∧ Inv s'.control := by
  induction frames generalizing s with
  | nil => exact ⟨s, rfl, h⟩
  | cons frame frames ih =>
    obtain ⟨next, writes, hframe, hmove⟩ := motionFrame_moves frame hnonneg h
    obtain ⟨s', hrun, hinv⟩ := ih (h.moves hmove)
    refine ⟨s', ?_, hinv⟩
    rw [run, hframe]
    exact hrun

open StageDeadline

/-- The time for choosing a motion once the legs have been crossed, or are not crossed any more. -/
def afterExecute (δ : K) (numCrosses : ℕ) : K :=
  if numCrosses = 0 then crossTime + δ + (selectTime + δ) else 0

/-- The time for the states that come after a state until a motion is chosen. -/
def afterState (δ : K) (numCrosses : ℕ) : GetupState → K
  | .prepareArms =>
    stiffnessOffTime + δ + (stiffnessOnTime + δ + (selectTime + δ + afterExecute δ numCrosses))
  | .stiffnessOff => stiffnessOnTime + δ + (selectTime + δ + afterExecute δ numCrosses)
  | .stiffnessOn => selectTime + δ + afterExecute δ numCrosses
  | .cross => selectTime + δ
  | .execute => afterExecute δ numCrosses
  | _ => 0

/-- The stage that the module is in until a motion is chosen. -/
def stageOf (δ : K) (c : GetupControl K) : Stage K :=
  { entered := c.stateStartTime
    limit := stateLimit c.state
    after := afterState δ c.numCrosses c.state }

/-- The constants are not negative. -/
lemma decimal_nonneg (n d : ℕ) : (0 : K) ≤ decimal n d :=
  div_nonneg n.cast_nonneg d.cast_nonneg

lemma stateLimit_nonneg (state : GetupState) : (0 : K) ≤ stateLimit state := by
  cases state <;> first | exact decimal_nonneg _ _ | exact le_rfl

lemma stageOf_limit_nonneg (δ : K) (c : GetupControl K) : 0 ≤ (stageOf δ c).limit :=
  stateLimit_nonneg c.state

lemma afterState_nonneg {δ : K} (hδ : 0 ≤ δ) (numCrosses : ℕ) (state : GetupState) :
    0 ≤ afterState δ numCrosses state := by
  have hcross : (0 : K) ≤ crossTime := decimal_nonneg _ _
  have hselect : (0 : K) ≤ selectTime := decimal_nonneg _ _
  have hon : (0 : K) ≤ stiffnessOnTime := decimal_nonneg _ _
  have hoff : (0 : K) ≤ stiffnessOffTime := decimal_nonneg _ _
  have hexecute : 0 ≤ afterExecute δ numCrosses := by
    unfold afterExecute
    split <;> positivity
  cases state <;> simp only [afterState] <;> positivity

/-- A frame of a getup in which no motion is chosen. -/
lemma Moves.advances {c c' : GetupControl K} {δ : K} (h : Moves motions frame c c') (hinv : Inv c)
    (hc : c.currMotion = .getup) (hc' : c'.currMotion = .getup) (hne : c.state ≠ .finished) :
    Advances δ frame.now (stageOf δ c) (stageOf δ c') ∧ c'.state ≠ .finished := by
  cases h with
  | idle hs _ | start hs _ _ => exact absurd hs hne
  | wait _ hlimit =>
    exact ⟨.stay (by simpa [stageOf, add_comm] using sub_le_iff_le_add.mp hlimit), hne⟩
  | work hs =>
    obtain hs | ⟨-, hmotion⟩ := hs
    · exact absurd hc (hinv.stand hs)
    · exact absurd hc hmotion
  | limp hs =>
    refine ⟨.move rfl (stageOf_limit_nonneg δ _) ?_, by simp⟩
    simp [stageOf, hs, afterState, stateLimit]
  | stiffen hs =>
    refine ⟨.move rfl (stageOf_limit_nonneg δ _) ?_, by simp⟩
    simp [stageOf, hs, afterState, stateLimit]
  | begin hs =>
    refine ⟨.move rfl (stageOf_limit_nonneg δ _) ?_, by simp⟩
    simp [stageOf, hs, afterState, stateLimit]
  | crossLegs hs _ hcrosses =>
    refine ⟨.move rfl (stageOf_limit_nonneg δ _) ?_, by simp⟩
    simp [stageOf, hs, afterState, stateLimit, afterExecute, hcrosses]
  | crossed hs =>
    refine ⟨.move rfl (stageOf_limit_nonneg δ _) ?_, by simp⟩
    simp [stageOf, hs, afterState, stateLimit, afterExecute]
  | choose _ _ hchosen => cases hchosen <;> exact nomatch hc'
  | again _ hmotion _ | up _ hmotion _ _ => exact absurd hc hmotion
  | finish hs => exact absurd hc (hinv.stand hs)

/-- The first frame of a getup. -/
lemma Moves.starts {c c' : GetupControl K} {δ : K} (h : Moves motions frame c c') (hδ : 0 ≤ δ)
    (hfinished : c.state = .finished) (hfalling : frame.falling = true) :
    c'.state ≠ .finished ∧ c'.currMotion = .getup ∧
      OnTime δ (frame.now + decimal 1451 1000 + (6 : ℕ) * δ) frame.now (stageOf δ c') := by
  cases h with
  | idle _ hnot => exact absurd hfalling (by simp [hnot])
  | start _ _ hnext =>
    refine ⟨?_, rfl, le_rfl, le_add_of_nonneg_right (stageOf_limit_nonneg δ _), ?_⟩
    · rcases hnext with rfl | rfl | rfl <;> simp
    · rcases hnext with rfl | rfl | rfl
      all_goals
        simp only [stageOf, stateLimit, afterState, afterExecute, prepareArmsTime,
          stiffnessOffTime, stiffnessOnTime, crossTime, selectTime, decimal, if_true]
        norm_num
        linarith
  | wait hs _ => simp [hfinished] at hs
  | work hs => simp [hfinished] at hs
  | limp hs | stiffen hs | begin hs | crossLegs hs _ _ | crossed hs | choose hs _ _ | again hs _ _
  | up hs _ _ _ | finish hs =>
    rw [hfinished] at hs
    exact nomatch hs

/-- As long as no motion is chosen, a run is on time. -/
lemma le_deadline_of_run (hnonneg : ∀ m, ∀ e ∈ motions.parsed m, 0 ≤ e.time) {δ T t : K}
    (hδ : 0 ≤ δ) (hinv : Inv s.control) (hne : s.state ≠ .finished)
    (hontime : OnTime δ T t (stageOf δ s.control)) (hcurr : s.currMotion = .getup)
    {frames : List (GetupFrame K)} (hspaced : Spaced GetupFrame.now δ t frames)
    (hgetup : ∀ k s', run motions s (frames.take k) = some s' → s'.currMotion = .getup) :
    ∀ frame ∈ frames, frame.now ≤ T := by
  induction frames generalizing s t with
  | nil => exact fun _ h => nomatch h
  | cons frame frames ih =>
    obtain ⟨hle, hnext, hspaced⟩ := hspaced
    obtain ⟨next, writes, hframe, hmove⟩ := motionFrame_moves frame hnonneg hinv
    have hrun : ∀ frames, run motions s (frame :: frames) = run motions next frames := by
      intro frames
      rw [run, hframe]
      rfl
    have hcurr' : next.currMotion = .getup := hgetup 1 next (by
      rw [List.take_succ_cons, List.take_zero, hrun]
      rfl)
    obtain ⟨hadvances, hne'⟩ := hmove.advances (δ := δ) hinv hcurr hcurr' hne
    have hontime' := hontime.advances hle hnext hadvances
    rw [List.forall_mem_cons]
    refine ⟨hontime'.le_deadline hδ (afterState_nonneg hδ _ _), ?_⟩
    refine ih (hinv.moves hmove) hne' hontime' hcurr' hspaced fun k s' hs' => hgetup (k + 1) s' ?_
    rwa [List.take_succ_cons, hrun]

end Execute

/-- No motions have been read. -/
def noMotions : GetupMotions ℚ := ⟨fun _ => [], 1⟩

/-- A frame of a robot that falls. -/
def fallingFrame (now : ℚ) : GetupFrame ℚ := ⟨now, 0, 0, false, true, fun _ => 0⟩

end GetupModule

end NaoSoccer
