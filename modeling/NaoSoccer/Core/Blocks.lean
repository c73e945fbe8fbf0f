import Mathlib.Algebra.Group.Int.Defs
import Mathlib.Algebra.Group.Prod
import Mathlib.Algebra.Group.TransferInstance

/-!
# The memory blocks the motion and vision processes exchange

The records of `src/core/memory` that `MotionCore` and `VisionCore` copy between their own memory
and the `sync_` blocks.  A block has the fields that a locked section names one by one; the fields
that are only ever copied with the whole block are one opaque field `rest`, of a type that
`Payloads` leaves open.

Lengths and angles live in an additive group `R`: the source uses `float` and `double`, and the
results below are about exact addition.
-/

namespace NaoSoccer

/-- The kinds of core, `common/InterfaceInfo.h`. -/
inductive CoreType
  | coreRobot | coreSim | coreTool | coreToolsim | coreInit | coreToolNoVision
  deriving DecidableEq, Repr

/-- The walk engines, `common/InterfaceInfo.h`. -/
inductive WalkType
  | invalidWalk | bhuman2011Walk | bhuman2013Walk | runswift2014Walk
  deriving DecidableEq, Repr

/-- The state of the walk's control over its target, `common/Kicks.h`. -/
inductive WalkControl
  | walkControlOff | walkControlSet | walkControlDone
  deriving DecidableEq, Repr

/-- `WalkRequestBlock::Motion`. -/
inductive Motion
  | walk | stand | falling | getup | fallPrevention | none | stepLeft | stepRight | wait
  | standStraight | lineUp | standPenalty
  deriving DecidableEq, Repr

/-- `Kick::Type`, `memory/KickRequestBlock.h`. -/
inductive KickType
  | noKick | straight | ikstraight | side | angle | deg30 | abort
  deriving DecidableEq, Repr

/-- `Getup::GetupType`, `memory/OdometryBlock.h`. -/
inductive GetupType
  | none | unknown | front | back
  deriving DecidableEq, Repr

/-- `Fall::FallDir`, `memory/OdometryBlock.h`. -/
inductive FallDir
  | none | unknown | forward | backward | left | right
  deriving DecidableEq, Repr

/-- A displacement or a position with heading, `math/Pose2D.h`. -/
@[ext] structure Pose2D (R : Type*) where
  rotation : R
  x : R
  y : R
  deriving DecidableEq, Repr

namespace Pose2D

variable {R : Type*}

/-- A pose is the triple of its components. -/
def equivProd : Pose2D R ≃ R × R × R where
  toFun p := (p.rotation, p.x, p.y)
  invFun q := ⟨q.1, q.2.1, q.2.2⟩
  left_inv := by rintro ⟨_, _, _⟩; rfl
  right_inv := by rintro ⟨_, _, _⟩; rfl

/-- Displacements are added component by component, as `VisionCore::receiveData` adds them up in
`cum_x`, `cum_y` and `cum_rot`. -/
instance [AddCommGroup R] : AddCommGroup (Pose2D R) := equivProd.addCommGroup

end Pose2D

/-- The types of the blocks and parts of blocks that the locked sections copy unread. -/
structure Payloads where
  BodyModelBlock : Type
  JointBlock : Type
  SensorBlock : Type
  ProcessedSonarBlock : Type
  WalkInfoBlock : Type
  WalkResponseBlock : Type
  /-- The remaining fields of `JointCommandBlock`: times, angles, stiffness. -/
  JointCommandRest : Type
  /-- The remaining fields of `KickRequestBlock`: leg, angle, distance, ball position. -/
  KickRequestRest : Type
  /-- The remaining fields of `WalkRequestBlock`: kick steps, thresholds, rotation. -/
  WalkRequestRest : Type
  /-- The parameters of `KickParamBlock`. -/
  KickParams : Type
  /-- The parameters of `WalkParamBlock`. -/
  WalkParams : Type
  /-- The parameters of `ALWalkParamBlock`. -/
  ALWalkParams : Type

/-- `memory/OdometryBlock.h`. -/
structure OdometryBlock (R : Type*) where
  displacement : Pose2D R
  standing : Bool
  walkDisabled : Bool
  didKick : Bool
  kickVelocity : R
  kickHeading : R
  gettingUpSide : GetupType
  fallDirection : FallDir

/-- `OdometryBlock::reset`; the fall direction is not set by motion and stays. -/
def OdometryBlock.reset {R : Type*} [AddCommGroup R] (b : OdometryBlock R) : OdometryBlock R :=
  { b with displacement := 0, didKick := false, gettingUpSide := .none }

/-- A reset odometry block has no displacement. -/
@[simp] lemma OdometryBlock.reset_displacement {R : Type*} [AddCommGroup R] (b : OdometryBlock R) :
    b.reset.displacement = 0 := rfl

/-- `memory/KickRequestBlock.h`. -/
structure KickRequestBlock (P : Payloads) where
  kickType : KickType
  kickRunning : Bool
  visionKickRunning : Bool
  finishedWithStep : Bool
  rest : P.KickRequestRest

/-- `memory/WalkRequestBlock.h`. -/
structure WalkRequestBlock (R : Type*) (P : Payloads) where
  newCommand : Bool
  startCommand : Bool
  motion : Motion
  speed : Pose2D R
  isPenalised : Bool
  targetPoint : Pose2D R
  walkToTarget : Bool
  finishedStanding : Bool
  performKick : Bool
  kickHeading : R
  kickWithLeft : Bool
  setKickStepParams : Bool
  odometryFwdOffset : R
  odometrySideOffset : R
  odometryTurnOffset : R
  slowStand : Bool
  walkDecidesFinishedWithTarget : Bool
  walkType : WalkType
  walkControlStatus : WalkControl
  rest : P.WalkRequestRest

/-- `memory/JointCommandBlock.h`. -/
structure JointCommandBlock (P : Payloads) where
  sendHeadPitchAngle : Bool
  sendHeadYawAngle : Bool
  sendBodyAngles : Bool
  sendStiffness : Bool
  sendArmAngles : Bool
  sendSonarCommand : Bool
  rest : P.JointCommandRest

/-- The common shape of `KickParamBlock`, `WalkParamBlock` and `ALWalkParamBlock`: parameters with
a flag that says they are to be taken over. -/
structure ParamBlock (α : Type) where
  sendParams : Bool
  params : α

/-- `memory/KickParamBlock.h`. -/
abbrev KickParamBlock (P : Payloads) := ParamBlock P.KickParams

/-- `memory/WalkParamBlock.h`. -/
abbrev WalkParamBlock (P : Payloads) := ParamBlock P.WalkParams

/-- `memory/ALWalkParamBlock.h`. -/
abbrev ALWalkParamBlock (P : Payloads) := ParamBlock P.ALWalkParams

end NaoSoccer
