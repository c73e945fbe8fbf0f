import NaoSoccer.Core.Blocks
import NaoSoccer.Foundation.LabelledRun

/-!
# The locked sections between motion and vision

The motion process and the vision process meet in the `sync_` blocks only, and touch them only
while they hold `motion_vision_lock_`: motion in `MotionCore::receiveData` and
`MotionCore::publishData`, vision in `VisionCore::receiveData` and `VisionCore::publishData`.  Each
of the four sections is one function here, and one atomic step of `System.step`.

Motion loops receive, process, publish; vision loops receive, behave, publish.  What processing and
behaviour do to the blocks of their own process is an input of the step, so a list of `Act`s is an
interleaving of the two loops together with everything the modules computed in between.
-/

namespace NaoSoccer

variable {R : Type} {P : Payloads}

/-- The `sync_` blocks in shared memory. -/
structure SyncBlocks (R : Type) (P : Payloads) where
  bodyModel : P.BodyModelBlock
  jointAngles : P.JointBlock
  sensors : P.SensorBlock
  odometry : OdometryBlock R
  kickRequest : KickRequestBlock P
  walkRequest : WalkRequestBlock R P
  walkResponse : P.WalkResponseBlock
  processedSonar : P.ProcessedSonarBlock
  walkInfo : P.WalkInfoBlock
  jointCommands : JointCommandBlock P
  kickParams : KickParamBlock P
  walkParam : WalkParamBlock P
  alWalkParam : ALWalkParamBlock P

/-- The blocks of the motion process. -/
structure MotionBlocks (R : Type) (P : Payloads) where
  bodyModel : P.BodyModelBlock
  processedJointAngles : P.JointBlock
  processedSensors : P.SensorBlock
  odometry : OdometryBlock R
  kickRequest : KickRequestBlock P
  walkRequest : WalkRequestBlock R P
  walkResponse : P.WalkResponseBlock
  processedSonar : P.ProcessedSonarBlock
  walkInfo : P.WalkInfoBlock
  processedJointCommands : JointCommandBlock P
  kickParams : KickParamBlock P
  walkParam : WalkParamBlock P
  alWalkParam : ALWalkParamBlock P

/-- The motion process: its blocks and the walk engine that is loaded. -/
structure MotionCore (R : Type) (P : Payloads) where
  blocks : MotionBlocks R P
  walk : Option WalkType

/-- The blocks of the vision process; `penalised` is `game_state_->state() == PENALISED`. -/
structure VisionBlocks (R : Type) (P : Payloads) where
  visionBodyModel : P.BodyModelBlock
  visionJointAngles : P.JointBlock
  visionSensors : P.SensorBlock
  visionOdometry : OdometryBlock R
  visionKickRequest : KickRequestBlock P
  visionWalkRequest : WalkRequestBlock R P
  visionWalkResponse : P.WalkResponseBlock
  visionProcessedSonar : P.ProcessedSonarBlock
  visionWalkInfo : P.WalkInfoBlock
  visionJointCommands : JointCommandBlock P
  visionKickParams : KickParamBlock P
  visionWalkParam : WalkParamBlock P
  visionAlWalkParam : ALWalkParamBlock P
  penalised : Bool

/-- The vision process: its type, the static accumulator of `receiveData` and its blocks. -/
structure VisionCore (R : Type) (P : Payloads) where
  type : CoreType
  cum : Pose2D R
  blocks : VisionBlocks R P

/-! ## Motion's sections -/

/-- Motion takes over sent parameters and clears the flag in shared memory; the result is the
motion block and the shared block. -/
def ParamBlock.receive {α : Type} (own sync : ParamBlock α) : ParamBlock α × ParamBlock α :=
  if sync.sendParams then (sync, { sync with sendParams := false }) else (own, sync)

/-- `MotionCore::initWalkEngine`. -/
def MotionCore.initWalkEngine (c : MotionCore R P) : MotionCore R P :=
  match c.blocks.walkRequest.walkType with
  | .invalidWalk => c
  | .runswift2014Walk => { c with walk := some .runswift2014Walk }
  | _ => { c with walk := none }

/-- The walk request motion takes over: the shared one, except that a control status motion has
already answered is not set again. -/
def WalkRequestBlock.receive (own sync : WalkRequestBlock R P) : WalkRequestBlock R P :=
  if own.walkControlStatus = .walkControlDone ∧ sync.walkControlStatus = .walkControlSet then
    { sync with walkControlStatus := own.walkControlStatus }
  else sync

/-- `MotionCore::receiveData`. -/
def MotionCore.receiveData (c : MotionCore R P) (sync : SyncBlocks R P) :
    MotionCore R P × SyncBlocks R P :=
  let m := c.blocks
  let typechange := decide (m.walkRequest.walkType ≠ sync.walkRequest.walkType)
  let kick := m.kickParams.receive sync.kickParams
  let walk := m.walkParam.receive sync.walkParam
  let alWalk := m.alWalkParam.receive sync.alWalkParam
  let c' : MotionCore R P := { c with
    blocks := { m with
      kickRequest := sync.kickRequest
      walkRequest := m.walkRequest.receive sync.walkRequest
      processedJointCommands := sync.jointCommands
      odometry := sync.odometry
      kickParams := kick.1
      walkParam := walk.1
      alWalkParam := alWalk.1 } }
  (if typechange then c'.initWalkEngine else c',
    { sync with kickParams := kick.2, walkParam := walk.2, alWalkParam := alWalk.2 })

/-- The shared walk request after motion has published its own: everything is overwritten except
the foot, the target, the heading and the motion, and the one-shot flags are cleared. -/
def WalkRequestBlock.publish (own sync : WalkRequestBlock R P) : WalkRequestBlock R P :=
  { own with
    kickWithLeft := sync.kickWithLeft
    targetPoint := sync.targetPoint
    kickHeading := sync.kickHeading
    motion := sync.motion
    newCommand := false
    slowStand := false
    setKickStepParams := false }

/-- `MotionCore::publishData`. -/
def MotionCore.publishData (c : MotionCore R P) (sync : SyncBlocks R P) : SyncBlocks R P :=
  let m := c.blocks
  { sync with
    bodyModel := m.bodyModel
    jointAngles := m.processedJointAngles
    sensors := m.processedSensors
    odometry := m.odometry
    kickRequest := { sync.kickRequest with
      kickRunning := m.kickRequest.kickRunning
      finishedWithStep := m.kickRequest.finishedWithStep }
    walkRequest := m.walkRequest.publish sync.walkRequest
    walkResponse := m.walkResponse
    processedSonar := m.processedSonar
    walkInfo := m.walkInfo }

/-! ## Vision's sections -/

/-- `VisionCore::isToolCore`. -/
def VisionCore.isToolCore (v : VisionCore R P) : Bool :=
  v.type == .coreTool || v.type == .coreToolNoVision

/-- Vision overwrites the shared parameters if it sends new ones. -/
def ParamBlock.publish {α : Type} (own sync : ParamBlock α) : ParamBlock α :=
  if own.sendParams then own else sync

/-- `VisionCore::publishData`. -/
def VisionCore.publishData (v : VisionCore R P) (sync : SyncBlocks R P) :
    VisionCore R P × SyncBlocks R P :=
  if v.isToolCore then (v, sync) else
  let b := v.blocks
  let request := { b.visionWalkRequest with isPenalised := b.penalised }
  let finishedStanding :=
    if sync.walkRequest.finishedStanding && !request.startCommand then
      sync.walkRequest.finishedStanding
    else request.finishedStanding
  ({ v with blocks := { b with visionWalkRequest := { request with startCommand := false } } },
    { sync with
      kickRequest := { b.visionKickRequest with
        kickRunning := sync.kickRequest.kickRunning
        finishedWithStep := sync.kickRequest.finishedWithStep }
      walkRequest := { request with finishedStanding := finishedStanding, startCommand := false }
      odometry := { sync.odometry with fallDirection := b.visionOdometry.fallDirection }
      jointCommands := b.visionJointCommands
      kickParams := b.visionKickParams.publish sync.kickParams
      walkParam := b.visionWalkParam.publish sync.walkParam
      alWalkParam := b.visionAlWalkParam.publish sync.alWalkParam })

/-- The part of `VisionCore::receiveData` that a simulation inside the tool skips: sensors and
odometry, which are reset in shared memory once they have been taken. -/
def VisionCore.receiveOdometry [AddCommGroup R] (v : VisionCore R P) (sync : SyncBlocks R P) :
    VisionCore R P × SyncBlocks R P :=
  if v.type = .coreToolsim then (v, sync) else
  ({ v with
      cum := v.cum + sync.odometry.displacement
      blocks := { v.blocks with
        visionBodyModel := sync.bodyModel
        visionJointAngles := sync.jointAngles
        visionSensors := sync.sensors
        visionOdometry := sync.odometry } },
    { sync with odometry := sync.odometry.reset })

/-- The part of `VisionCore::receiveData` that takes over requests and motion's answers. -/
def VisionBlocks.receiveRequests (b : VisionBlocks R P) (sync : SyncBlocks R P) :
    VisionBlocks R P :=
  { b with
    visionKickRequest := { b.visionKickRequest with
      kickRunning := sync.kickRequest.kickRunning
      finishedWithStep := sync.kickRequest.finishedWithStep
      kickType := .noKick
      visionKickRunning := false }
    visionWalkRequest := { sync.walkRequest with
      odometryFwdOffset := b.visionWalkRequest.odometryFwdOffset
      odometrySideOffset := b.visionWalkRequest.odometrySideOffset
      odometryTurnOffset := b.visionWalkRequest.odometryTurnOffset
      walkType := b.visionWalkRequest.walkType
      newCommand := false
      performKick := false
      setKickStepParams := false
      walkDecidesFinishedWithTarget := false }
    visionWalkResponse := sync.walkResponse
    visionWalkParam := { b.visionWalkParam with sendParams := false }
    visionAlWalkParam := { b.visionAlWalkParam with sendParams := false }
    visionKickParams := { b.visionKickParams with sendParams := false }
    visionWalkInfo := sync.walkInfo
    visionProcessedSonar := sync.processedSonar
    visionJointCommands := { b.visionJointCommands with
      sendBodyAngles := false
      sendHeadPitchAngle := false
      sendHeadYawAngle := false
      sendStiffness := false
      sendSonarCommand := false
      sendArmAngles := false } }

/-- `VisionCore::receiveData`. -/
def VisionCore.receiveData [AddCommGroup R] (v : VisionCore R P) (sync : SyncBlocks R P) :
    VisionCore R P × SyncBlocks R P :=
  if v.isToolCore then (v, sync) else
  let r := v.receiveOdometry sync
  ({ r.1 with blocks := r.1.blocks.receiveRequests r.2 }, r.2)

/-! ## The two loops -/

/-- Where the motion process is in its loop: the section it runs next. -/
inductive MotionAt
  | receiveData | process | publishData
  deriving DecidableEq, Repr

/-- Where the vision process is in its loop: the section it runs next. -/
inductive VisionAt
  | receiveData | behaviour | publishData
  deriving DecidableEq, Repr

/-- Shared memory, the two processes and the sum of all displacements motion has produced. -/
structure System (R : Type) (P : Payloads) where
  sync : SyncBlocks R P
  motion : MotionCore R P
  motionAt : MotionAt
  vision : VisionCore R P
  visionAt : VisionAt
  produced : Pose2D R

/-- One move: motion or vision runs its next section.  The function is what the modules of the
process compute; it is used by the processing step and by the behaviour step only. -/
inductive Act (R : Type) (P : Payloads)
  | motion (process : MotionBlocks R P → MotionBlocks R P)
  | vision (behaviour : VisionBlocks R P → VisionBlocks R P)

variable [AddCommGroup R]

/-- Motion runs its next section.  Processing adds the difference between the displacement it
leaves and the one it found to what motion has produced. -/
def System.motionStep (process : MotionBlocks R P → MotionBlocks R P) (s : System R P) :
    System R P :=
  match s.motionAt with
  | .receiveData =>
    let r := s.motion.receiveData s.sync
    { s with motion := r.1, sync := r.2, motionAt := .process }
  | .process =>
    let m := process s.motion.blocks
    { s with
      motion := { s.motion with blocks := m }
      motionAt := .publishData
      produced := s.produced +
        (m.odometry.displacement - s.motion.blocks.odometry.displacement) }
  | .publishData => { s with sync := s.motion.publishData s.sync, motionAt := .receiveData }

/-- Vision runs its next section. -/
def System.visionStep (behaviour : VisionBlocks R P → VisionBlocks R P) (s : System R P) :
    System R P :=
  match s.visionAt with
  | .receiveData =>
    let r := s.vision.receiveData s.sync
    { s with vision := r.1, sync := r.2, visionAt := .behaviour }
  | .behaviour =>
    { s with
      vision := { s.vision with blocks := behaviour s.vision.blocks }
      visionAt := .publishData }
  | .publishData =>
    let r := s.vision.publishData s.sync
    { s with vision := r.1, sync := r.2, visionAt := .receiveData }

/-- One atomic step of the two processes. -/
def System.step : Act R P → System R P → System R P
  | .motion process, s => s.motionStep process
  | .vision behaviour, s => s.visionStep behaviour

/-- The state after an interleaving of the two loops. -/
abbrev System.run (s : System R P) (acts : List (Act R P)) : System R P :=
  LabelledRun.run System.step s acts

/-! ## The processes as they are created -/

/-- Blocks without the payload that the locked sections only copy. -/
abbrev Payloads.unit : Payloads where
  BodyModelBlock := Unit
  JointBlock := Unit
  SensorBlock := Unit
  ProcessedSonarBlock := Unit
  WalkInfoBlock := Unit
  WalkResponseBlock := Unit
  JointCommandRest := Unit
  KickRequestRest := Unit
  WalkRequestRest := Unit
  KickParams := Unit
  WalkParams := Unit
  ALWalkParams := Unit

/-- `OdometryBlock::OdometryBlock`; the constructor leaves the kick's velocity and heading unset,
zero here. -/
def OdometryBlock.create : OdometryBlock R :=
  ⟨0, true, false, false, 0, 0, .none, .none⟩

/-- `KickRequestBlock::KickRequestBlock`. -/
def KickRequestBlock.create (rest : P.KickRequestRest) : KickRequestBlock P :=
  ⟨.noKick, false, false, false, rest⟩

/-- `WalkRequestBlock::WalkRequestBlock`; the fields the constructor leaves unset are zero and
false here. -/
def WalkRequestBlock.create (rest : P.WalkRequestRest) : WalkRequestBlock R P where
  newCommand := false
  startCommand := false
  motion := .none
  speed := 0
  isPenalised := false
  targetPoint := 0
  walkToTarget := false
  finishedStanding := false
  performKick := false
  kickHeading := 0
  kickWithLeft := false
  setKickStepParams := false
  odometryFwdOffset := 0
  odometrySideOffset := 0
  odometryTurnOffset := 0
  slowStand := false
  walkDecidesFinishedWithTarget := false
  walkType := .invalidWalk
  walkControlStatus := .walkControlOff
  rest := rest

/-- `JointCommandBlock::JointCommandBlock`. -/
def JointCommandBlock.create (rest : P.JointCommandRest) : JointCommandBlock P :=
  ⟨false, false, false, false, false, false, rest⟩

/-- The two processes and shared memory as they are created, all blocks as their constructors
leave them. -/
def System.create (type : CoreType) : System R Payloads.unit where
  sync := ⟨(), (), (), .create, .create (), .create (), (), (), (), .create (), ⟨false, ()⟩,
    ⟨false, ()⟩, ⟨false, ()⟩⟩
  motion := ⟨⟨(), (), (), .create, .create (), .create (), (), (), (), .create (), ⟨false, ()⟩,
    ⟨false, ()⟩, ⟨false, ()⟩⟩, none⟩
  motionAt := .receiveData
  vision := ⟨type, 0, ⟨(), (), (), .create, .create (), .create (), (), (), (), .create (),
    ⟨false, ()⟩, ⟨false, ()⟩, ⟨false, ()⟩, false⟩⟩
  visionAt := .receiveData
  produced := 0

/-! ## What each section does to the odometry and to the walk request -/

/-- The kind of core decides whether vision takes the odometry out of shared memory. -/
def VisionCore.takesOdometry (v : VisionCore R P) : Bool :=
  !v.isToolCore && v.type != .coreToolsim

omit [AddCommGroup R] in
/-- Loading a walk engine changes no block. -/
@[simp] lemma MotionCore.initWalkEngine_blocks (c : MotionCore R P) :
    c.initWalkEngine.blocks = c.blocks := by
  unfold MotionCore.initWalkEngine
  split <;> rfl

omit [AddCommGroup R] in
/-- Motion receives the shared odometry. -/
@[simp] lemma MotionCore.receiveData_odometry (c : MotionCore R P) (sync : SyncBlocks R P) :
    (c.receiveData sync).1.blocks.odometry = sync.odometry := by
  simp only [MotionCore.receiveData]
  split <;> simp

omit [AddCommGroup R] in
/-- Motion receives the shared walk request, up to the control status. -/
@[simp] lemma MotionCore.receiveData_walkRequest (c : MotionCore R P) (sync : SyncBlocks R P) :
    (c.receiveData sync).1.blocks.walkRequest =
      c.blocks.walkRequest.receive sync.walkRequest := by
  simp only [MotionCore.receiveData]
  split <;> simp

omit [AddCommGroup R] in
/-- Receiving leaves the shared odometry alone. -/
@[simp] lemma MotionCore.receiveData_sync_odometry (c : MotionCore R P)
    (sync : SyncBlocks R P) : (c.receiveData sync).2.odometry = sync.odometry := rfl

omit [AddCommGroup R] in
/-- Receiving leaves the shared walk request alone. -/
@[simp] lemma MotionCore.receiveData_sync_walkRequest (c : MotionCore R P)
    (sync : SyncBlocks R P) : (c.receiveData sync).2.walkRequest = sync.walkRequest := rfl

omit [AddCommGroup R] in
/-- Motion publishes its own odometry. -/
@[simp] lemma MotionCore.publishData_odometry (c : MotionCore R P) (sync : SyncBlocks R P) :
    (c.publishData sync).odometry = c.blocks.odometry := rfl

omit [AddCommGroup R] in
/-- Motion's publishing leaves the shared request without a new command. -/
@[simp] lemma MotionCore.publishData_walkRequest_newCommand (c : MotionCore R P)
    (sync : SyncBlocks R P) : (c.publishData sync).walkRequest.newCommand = false := rfl

omit [AddCommGroup R] in
/-- Vision's publishing changes no displacement in shared memory. -/
@[simp] lemma VisionCore.publishData_sync_displacement (v : VisionCore R P)
    (sync : SyncBlocks R P) :
    (v.publishData sync).2.odometry.displacement = sync.odometry.displacement := by
  simp only [VisionCore.publishData]
  split <;> rfl

omit [AddCommGroup R] in
/-- Publishing neither adds to what vision has received nor changes the kind of core. -/
@[simp] lemma VisionCore.publishData_cum (v : VisionCore R P) (sync : SyncBlocks R P) :
    (v.publishData sync).1.cum = v.cum := by
  simp only [VisionCore.publishData]
  split <;> rfl

/-- Vision's receiving changes no walk request in shared memory. -/
@[simp] lemma VisionCore.receiveData_sync_walkRequest (v : VisionCore R P)
    (sync : SyncBlocks R P) : (v.receiveData sync).2.walkRequest = sync.walkRequest := by
  simp only [VisionCore.receiveData, VisionCore.receiveOdometry]
  split
  · rfl
  · split <;> rfl

/-- What vision has received after `receiveData`. -/
lemma VisionCore.receiveData_cum (v : VisionCore R P) (sync : SyncBlocks R P) :
    (v.receiveData sync).1.cum =
      if v.takesOdometry then v.cum + sync.odometry.displacement else v.cum := by
  by_cases ht : v.isToolCore
  · simp [VisionCore.receiveData, VisionCore.takesOdometry, ht]
  · by_cases hs : v.type = .coreToolsim <;>
      simp [VisionCore.receiveData, VisionCore.receiveOdometry, VisionCore.takesOdometry, ht, hs]

/-- The displacement vision leaves in shared memory after `receiveData`. -/
lemma VisionCore.receiveData_sync_displacement (v : VisionCore R P) (sync : SyncBlocks R P) :
    (v.receiveData sync).2.odometry.displacement =
      if v.takesOdometry then 0 else sync.odometry.displacement := by
  by_cases ht : v.isToolCore
  · simp [VisionCore.receiveData, VisionCore.takesOdometry, ht]
  · by_cases hs : v.type = .coreToolsim <;>
      simp [VisionCore.receiveData, VisionCore.receiveOdometry, VisionCore.takesOdometry, ht, hs]

end NaoSoccer
