import NaoSoccer.Foundation.SignedExchange
import Mathlib.Algebra.Group.Int.Defs
import Mathlib.Data.List.Basic

/-!
# Mirrored poses

`util.getPoseJoint` reads a joint of a pose, and with `reversed` the joint of the other side in its
place.  The other side is found by arithmetic on the numbers of the joints, and with `reverseRolls`
the joints of a list change their sign.

The loop over that list begins at its second joint, so the left hip is not rolled the other way
although the right one is.
-/

namespace NaoSoccer

open SignedExchange

/-- `enum Joint` of `RobotInfo.h` -/
inductive Joint
  | HeadYaw
  | HeadPitch
  | LHipYawPitch
  | LHipRoll
  | LHipPitch
  | LKneePitch
  | LAnklePitch
  | LAnkleRoll
  | RHipYawPitch
  | RHipRoll
  | RHipPitch
  | RKneePitch
  | RAnklePitch
  | RAnkleRoll
  | LShoulderPitch
  | LShoulderRoll
  | LElbowYaw
  | LElbowRoll
  | RShoulderPitch
  | RShoulderRoll
  | RElbowYaw
  | RElbowRoll
  | NUM_JOINTS
  deriving DecidableEq

namespace Joint

/-- The number of a joint. -/
def number (joint : Joint) : ℤ := joint.ctorIdx

instance : Coe Joint ℤ := ⟨number⟩

end Joint

/-- A dictionary of joint angles. -/
abbrev Pose (V : Type*) := ℤ → Option V

/-- A dictionary has been asked for a key that it does not have. -/
inductive KeyError
  | key (joint : ℤ)

namespace Pose

variable {V : Type*}

/-- `pose[joint]` -/
def lookup (pose : Pose V) (joint : ℤ) : Except KeyError V :=
  match pose joint with
  | some val => .ok val
  | none => .error (.key joint)

/-- The joint on the opposite side that `getPoseJoint` reads, if there is one. -/
def oppositeJoint (joint : ℤ) : Option ℤ :=
  if Joint.LShoulderPitch ≤ joint ∧ joint ≤ Joint.LElbowRoll then
    -- left arm
    some (joint + (Joint.RShoulderPitch - Joint.LShoulderPitch))
  else if Joint.LHipYawPitch ≤ joint ∧ joint ≤ Joint.LAnkleRoll then
    -- left leg
    some (joint + (Joint.RHipYawPitch - Joint.LHipYawPitch))
  else if Joint.RHipYawPitch ≤ joint ∧ joint ≤ Joint.RAnkleRoll then
    -- right leg
    some (joint - (Joint.RHipYawPitch - Joint.LHipYawPitch))
  else if Joint.RShoulderPitch ≤ joint ∧ joint ≤ Joint.RElbowRoll then
    -- right arm
    some (joint - (Joint.RShoulderPitch - Joint.LShoulderPitch))
  else none

/-- `directionReversedJoints` -/
def directionReversedJoints : List Joint :=
  [.LHipRoll, .RHipRoll, .LAnkleRoll, .RAnkleRoll, .LShoulderRoll, .RShoulderRoll,
    .LElbowRoll, .RElbowRoll, .LElbowYaw, .RElbowYaw]

/-- The loop of `getPoseJoint` over `range(1, len(directionReversedJoints))`. -/
def isDirectionReversed (joint : ℤ) : Bool :=
  (List.range' 1 (directionReversedJoints.length - 1)).any fun i =>
    directionReversedJoints[i]?.any fun reversed => joint = reversed

/-- `util.getPoseJoint` -/
def getPoseJoint [Neg V] [Zero V] (joint : ℤ) (pose : Pose V) (reversed reverseRolls : Bool) :
    Except KeyError (Option V) :=
  match pose joint with
  | none => .ok none
  | some val =>
    if !reversed then .ok (some val)
    else if joint = Joint.LHipYawPitch ∨ joint = Joint.RHipYawPitch then .ok (some val)
    else do
      let val ← match oppositeJoint joint with
        | some opposite => pose.lookup opposite
        | none => .ok 0
      if reverseRolls && isDirectionReversed joint then .ok (some (-val)) else .ok (some val)

end Pose

/-! ## Mirroring a whole pose -/

/-- The numbers from `BODY_JOINT_OFFSET` on: the joints of the arms and the legs. -/
def IsBodyJoint (joint : ℤ) : Prop := Joint.LHipYawPitch ≤ joint ∧ joint < Joint.NUM_JOINTS

instance (joint : ℤ) : Decidable (IsBodyJoint joint) := inferInstanceAs (Decidable (_ ∧ _))

/-- A pose that assigns a value to every body joint. -/
structure BodyPose (V : Type*) where
  pose : Pose V
  assigned : ∀ joint, IsBodyJoint joint → (pose joint).isSome

namespace BodyPose

open Pose

variable {V : Type*}

/-- The left joints and the right ones, apart from the hip joint that both legs share. -/
def sides : List (Joint × Joint) :=
  [(.LHipRoll, .RHipRoll), (.LHipPitch, .RHipPitch), (.LKneePitch, .RKneePitch),
    (.LAnklePitch, .RAnklePitch), (.LAnkleRoll, .RAnkleRoll),
    (.LShoulderPitch, .RShoulderPitch), (.LShoulderRoll, .RShoulderRoll),
    (.LElbowYaw, .RElbowYaw), (.LElbowRoll, .RElbowRoll)]

/-- A pose that assigns a value to everything. -/
def ofFun (angle : ℤ → V) : BodyPose V := ⟨fun joint => some (angle joint), fun _ _ => rfl⟩

/-- The angle of a body joint. -/
def value [Zero V] (pose : BodyPose V) (joint : ℤ) : V := (pose.pose joint).getD 0

/-- The joint that is read in place of this one. -/
def partner (joint : ℤ) : ℤ := (oppositeJoint joint).getD joint

/-- A body joint has its value in the pose. -/
lemma pose_eq [Zero V] (pose : BodyPose V) {joint : ℤ} (h : IsBodyJoint joint) :
    pose.pose joint = some (pose.value joint) := by
  obtain ⟨val, hval⟩ := Option.isSome_iff_exists.mp (pose.assigned joint h)
  rw [value, hval, Option.getD_some]

/-- A body joint other than the shared hip joint. -/
def IsPaired (joint : ℤ) : Prop :=
  IsBodyJoint joint ∧ joint ≠ Joint.LHipYawPitch ∧ joint ≠ Joint.RHipYawPitch

instance (joint : ℤ) : Decidable (IsPaired joint) := inferInstanceAs (Decidable (_ ∧ _))

/-- The joints of both sides are paired. -/
lemma isPaired_of_mem : ∀ side ∈ sides, IsPaired side.1 ∧ IsPaired side.2 := by decide

/-- There are no other ones. -/
lemma exists_side {joint : ℤ} (h : IsPaired joint) :
    ∃ side ∈ sides, joint = side.1 ∨ joint = side.2 := by
  have hall : ∀ k < 22, IsPaired (k : ℕ) →
      ∃ side ∈ sides, (k : ℤ) = side.1 ∨ (k : ℤ) = side.2 := by decide
  have hfirst : 2 ≤ joint := h.1.1
  have hlast : joint < 22 := h.1.2
  have hk : (joint.toNat : ℤ) = joint := Int.toNat_of_nonneg (by omega)
  have hside := hall joint.toNat (by omega)
  rw [hk] at hside
  exact hside h

/-- The index arithmetic finds the joint of the other side. -/
lemma oppositeJoint_of_mem : ∀ side ∈ sides,
    oppositeJoint side.1 = some side.2.number ∧ oppositeJoint side.2 = some side.1.number := by
  decide

/-- The joints of one pair are both in the reach of the loop or both out of it, the hip rolls
apart. -/
lemma isDirectionReversed_of_mem : ∀ side ∈ sides, side ≠ (.LHipRoll, .RHipRoll) →
    isDirectionReversed side.1 = isDirectionReversed side.2 := by decide

/-- The partner of a paired joint is paired, and this joint is its partner. -/
lemma partner_spec {joint : ℤ} (h : IsPaired joint) :
    oppositeJoint joint = some (partner joint) ∧ IsPaired (partner joint) ∧
      partner (partner joint) = joint := by
  obtain ⟨⟨left, right⟩, hside, rfl | rfl⟩ := exists_side h
  all_goals
    obtain ⟨hleft, hright⟩ := oppositeJoint_of_mem _ hside
    obtain ⟨hpairedLeft, hpairedRight⟩ := isPaired_of_mem _ hside
    unfold partner
    simp only [hleft, hright, Option.getD_some, true_and, and_true]
    assumption

/-- The joints of one pair have one sign, the hip rolls apart. -/
lemma sign_eq_or_hipRoll {joint : ℤ} (h : IsPaired joint) :
    isDirectionReversed joint = isDirectionReversed (partner joint) ∨
      joint = Joint.LHipRoll ∨ joint = Joint.RHipRoll := by
  obtain ⟨side, hside, hjoint⟩ := exists_side h
  by_cases hhip : side = (.LHipRoll, .RHipRoll)
  · subst hhip
    exact Or.inr hjoint
  · left
    have hsign := isDirectionReversed_of_mem side hside hhip
    obtain ⟨hleft, hright⟩ := oppositeJoint_of_mem side hside
    rcases hjoint with rfl | rfl
    · rwa [partner, hleft]
    · rw [partner, hright]
      exact hsign.symm

variable [AddGroup V]

/-- **The step of a paired joint**: `getPoseJoint` gives the value of its partner, negated where the
loop finds the joint. -/
lemma getPoseJoint_of_isPaired (pose : BodyPose V) {joint : ℤ} (h : IsPaired joint) :
    getPoseJoint joint pose.pose true true =
      .ok (some (exchange partner isDirectionReversed pose.value joint)) := by
  obtain ⟨hopposite, hpaired, -⟩ := partner_spec h
  have hlookup : pose.pose.lookup (partner joint) = .ok (pose.value (partner joint)) := by
    rw [lookup, pose.pose_eq hpaired.1]
  rw [getPoseJoint, pose.pose_eq h.1]
  simp only [Bool.not_true, Bool.false_eq_true, if_false, h.2.1, h.2.2, or_self, hopposite, hlookup,
    Bool.true_and, exchange]
  cases isDirectionReversed joint <;> rfl

/-- The shared hip joint keeps its value. -/
lemma getPoseJoint_of_hip (pose : Pose V) {joint : ℤ}
    (h : joint = Joint.LHipYawPitch ∨ joint = Joint.RHipYawPitch) (reverseRolls : Bool) :
    getPoseJoint joint pose true reverseRolls = .ok (pose joint) := by
  rw [getPoseJoint]
  cases pose joint with
  | none => rfl
  | some val => simp only [Bool.not_true, Bool.false_eq_true, if_false, h, if_true]

/-- Every body joint gets a value. -/
lemma isSome_getPoseJoint (pose : BodyPose V) (joint : ℤ) (h : IsBodyJoint joint) :
    (getPoseJoint joint pose.pose true true).toOption.join.isSome := by
  by_cases hhip : joint = Joint.LHipYawPitch ∨ joint = Joint.RHipYawPitch
  · rw [getPoseJoint_of_hip pose.pose hhip]
    exact pose.assigned joint h
  · rw [getPoseJoint_of_isPaired pose ⟨h, not_or.mp hhip⟩]
    rfl

/-- `m(pose)`: every joint by `getPoseJoint` with `reversed` and `reverseRolls`. -/
def mirror (pose : BodyPose V) : BodyPose V where
  pose joint := (getPoseJoint joint pose.pose true true).toOption.join
  assigned := isSome_getPoseJoint pose

/-- The values of the mirrored pose. -/
lemma value_mirror (pose : BodyPose V) {joint : ℤ} (h : IsPaired joint) :
    pose.mirror.value joint = exchange partner isDirectionReversed pose.value joint := by
  show (getPoseJoint joint pose.pose true true).toOption.join.getD 0 = _
  rw [getPoseJoint_of_isPaired pose h]
  rfl

/-- **Fair mirroring**: done twice it gives every paired joint its value back, and the joints of one
pair are treated alike. -/
structure MirrorsFairly (pose : BodyPose V) : Prop where
  involutive : ∀ joint, IsPaired joint → pose.mirror.mirror.pose joint = pose.pose joint
  alike : ∀ side ∈ sides, Alike (pose.value side.1) (pose.value side.2)
    (pose.mirror.value side.1) (pose.mirror.value side.2)

/-- Done twice, the values are exchanged twice. -/
lemma value_mirror_mirror (pose : BodyPose V) {joint : ℤ} (h : IsPaired joint) :
    pose.mirror.mirror.value joint =
      exchange partner isDirectionReversed (exchange partner isDirectionReversed pose.value)
        joint := by
  have hpaired := (partner_spec h).2.1
  rw [value_mirror _ h, exchange, exchange, value_mirror _ hpaired]

/-- A paired joint has its value back exactly if its pair has one sign or the value is zero. -/
lemma mirror_mirror_eq_iff [IsAddTorsionFree V] (pose : BodyPose V) {joint : ℤ}
    (h : IsPaired joint) :
    pose.mirror.mirror.pose joint = pose.pose joint ↔
      isDirectionReversed joint = isDirectionReversed (partner joint) ∨
        pose.value joint = 0 := by
  rw [pose_eq _ h.1, pose_eq _ h.1, Option.some_inj, value_mirror_mirror _ h]
  exact exchange_exchange_eq_iff (partner_spec h).2.2

/-- **Mirroring is fair exactly for poses that do not roll the hips**: every other pair is
exchanged with one sign, but the loop passes over the left hip roll and not over the right one. -/
theorem mirrorsFairly_iff [IsAddTorsionFree V] (pose : BodyPose V) :
    pose.MirrorsFairly ↔ pose.pose Joint.LHipRoll = some 0 ∧ pose.pose Joint.RHipRoll = some 0 := by
  have hleft : IsPaired Joint.LHipRoll := by decide
  have hright : IsPaired Joint.RHipRoll := by decide
  have hsides : ((.LHipRoll, .RHipRoll) : Joint × Joint) ∈ sides := by decide
  rw [pose_eq _ hleft.1, pose_eq _ hright.1, Option.some_inj, Option.some_inj]
  constructor
  · intro h
    have hleftSign : isDirectionReversed Joint.LHipRoll ≠
        isDirectionReversed (partner Joint.LHipRoll) := by decide
    have hrightSign : isDirectionReversed Joint.RHipRoll ≠
        isDirectionReversed (partner Joint.RHipRoll) := by decide
    exact ⟨((mirror_mirror_eq_iff pose hleft).mp (h.involutive _ hleft)).resolve_left hleftSign,
      ((mirror_mirror_eq_iff pose hright).mp (h.involutive _ hright)).resolve_left hrightSign⟩
  · rintro ⟨hzeroLeft, hzeroRight⟩
    refine ⟨fun joint h => (mirror_mirror_eq_iff pose h).mpr ?_, fun side hside => ?_⟩
    · rcases sign_eq_or_hipRoll h with hsign | rfl | rfl
      · exact Or.inl hsign
      · exact Or.inr hzeroLeft
      · exact Or.inr hzeroRight
    · obtain ⟨hpaired, hpaired'⟩ := isPaired_of_mem side hside
      have hpartner : partner side.1 = side.2.number := by
        rw [partner, (oppositeJoint_of_mem side hside).1, Option.getD_some]
      rw [value_mirror _ hpaired, value_mirror _ hpaired', ← hpartner]
      by_cases hhip : side = (.LHipRoll, .RHipRoll)
      · subst hhip
        have hother : pose.value (partner Joint.LHipRoll) = 0 := hpartner ▸ hzeroRight
        have hback := (partner_spec hleft).2.2
        refine Or.inl ⟨?_, ?_⟩ <;> simp [exchange, hother, hzeroLeft, hback]
      · have hsign := isDirectionReversed_of_mem side hside hhip
        rw [← hpartner] at hsign
        exact alike_of_negated_eq (partner_spec hpaired).2.2 hsign

/-- A different angle for every joint but the hip rolls. -/
theorem mirrorsFairly_zeroHipRoll :
    (ofFun fun joint : ℤ =>
      if joint = Joint.LHipRoll ∨ joint = Joint.RHipRoll then 0 else joint).MirrorsFairly :=
  (mirrorsFairly_iff _).mpr (by decide)

/-- A pose that only rolls the left hip. -/
theorem not_mirrorsFairly_leftHipRoll :
    ¬ (ofFun fun joint : ℤ => if joint = Joint.LHipRoll then (10 : ℤ) else 0).MirrorsFairly := by
  intro h
  have hback := h.involutive Joint.LHipRoll (by decide)
  exact absurd hback (by decide)

end BodyPose

end NaoSoccer
