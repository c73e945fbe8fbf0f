import NaoSoccer.Common.AnnotationGroup
import NaoSoccer.Foundation.ClosedGap

/-!
# Deleting a frame of a log

When a frame of a log is deleted, the frames behind it get smaller numbers.  `deleteFromFrame` moves
the ends of the interval of frames that an annotation is for, and leaves the frames of center points
and offsets as they are.

The lower end of an interval moves also when it is the deleted frame itself, so the annotation gets
the frame in front of it.  `deleteFromFrame_renumbers_iff` says for which groups the result is right
all the same.
-/

namespace NaoSoccer

open ClosedGap

namespace NamedAnnotation

/-- `VisionAnnotation::isInFrame` -/
def isInFrame (frame : ℤ) (v : NamedAnnotation) : Bool :=
  v.minFrame ≤ frame && frame ≤ v.maxFrame

/-- `VisionAnnotation::setMinFrame` -/
def setMinFrame (frame : ℤ) (v : NamedAnnotation) : NamedAnnotation := { v with minFrame := frame }

/-- `VisionAnnotation::setMaxFrame` -/
def setMaxFrame (frame : ℤ) (v : NamedAnnotation) : NamedAnnotation := { v with maxFrame := frame }

/-- The body of the loop in `AnnotationGroup::deleteFromFrame`. -/
def deleteFromFrame (frame : ℤ) (v : NamedAnnotation) : NamedAnnotation :=
  let v := if v.maxFrame ≥ frame then v.setMaxFrame (v.maxFrame - 1) else v
  if v.minFrame ≥ frame then v.setMinFrame (v.minFrame - 1) else v

/-- The frames that an annotation is for. -/
def frames (v : NamedAnnotation) : Set ℤ := {k | v.isInFrame k = true}

/-- The frames of an annotation are an interval. -/
lemma frames_eq_Icc (v : NamedAnnotation) : v.frames = Set.Icc v.minFrame v.maxFrame := by
  ext k
  simp [frames, isInFrame, Set.mem_Icc]

end NamedAnnotation

/-- `AnnotationGroup::deleteFromFrame` -/
def AnnotationGroup.deleteFromFrame {φ : Type} (frame : ℤ) (g : AnnotationGroup φ) :
    AnnotationGroup φ :=
  { g with vannotations := g.vannotations.map ( NamedAnnotation.deleteFromFrame frame) }

/-! ## What should become of an annotation -/

/-- The points after frame `f` has been deleted: each point of another frame goes where the frame
goes. -/
def RenumberedPoints (f : ℤ) (points points' : FramePoints) : Prop :=
  ∀ frame p, points'.lookup frame = some p ↔
    ∃ g, g ≠ f ∧ closeGap f g = frame ∧ points.lookup g = some p

/-- The annotation after frame `f` has been deleted. -/
structure Renumbered (f : ℤ) (v v' : NamedAnnotation) : Prop where
  frames : v'.frames = closeGap f '' (v.frames \ {f})
  centerPoints : RenumberedPoints f v.centerPoints v'.centerPoints
  offsets : List.Forall₂ (fun s s' => RenumberedPoints f s.offsets s'.offsets)
    v.selections v'.selections

variable {f : ℤ}

/-- Renumbered points are found at the frame where the point was. -/
lemma renumberedPoints_iff {points points' : FramePoints} :
    RenumberedPoints f points points' ↔
      ∀ frame, points'.lookup frame = points.lookup (openGap f frame) := by
  have hplace (frame : ℤ) (p : Point) :
      (∃ g, g ≠ f ∧ closeGap f g = frame ∧ points.lookup g = some p) ↔
        points.lookup (openGap f frame) = some p := by
    constructor
    · rintro ⟨g, hne, rfl, hg⟩
      rw [openGap_closeGap hne]
      exact hg
    · exact fun hp => ⟨openGap f frame, openGap_ne f frame, closeGap_openGap f frame, hp⟩
  unfold RenumberedPoints
  simp only [hplace]
  exact forall_congr' fun frame => ⟨fun h => Option.ext h, fun h p => by rw [h]⟩

/-- Behind some frame a map has no points. -/
lemma exists_last_frame (points : FramePoints) :
    ∃ last, ∀ frame, last < frame → points.lookup frame = none := by
  obtain ⟨last, hlast⟩ := points.keys.toFinset.bddAbove
  refine ⟨last, fun frame hframe => ?_⟩
  rw [AList.lookup_eq_none]
  intro hmem
  exact absurd (hlast (Finset.mem_coe.mpr (List.mem_toFinset.mpr hmem))) (not_le.mpr hframe)

/-- **Points that are left alone** are renumbered exactly if there are none from the frame on. -/
lemma renumberedPoints_self_iff {points : FramePoints} :
    RenumberedPoints f points points ↔ ∀ frame, f ≤ frame → points.lookup frame = none := by
  obtain ⟨last, hlast⟩ := exists_last_frame points
  rw [renumberedPoints_iff]
  exact forall_eq_openGap_iff (p := fun frame => points.lookup frame) hlast

/-! ## What becomes of it -/

namespace NamedAnnotation

/-- Deleting a frame moves the ends of the interval and nothing else. -/
lemma deleteFromFrame_eq (f : ℤ) (v : NamedAnnotation) :
    v.deleteFromFrame f =
      { v with
        minFrame := if f ≤ v.minFrame then v.minFrame - 1 else v.minFrame
        maxFrame := if f ≤ v.maxFrame then v.maxFrame - 1 else v.maxFrame } := by
  unfold deleteFromFrame setMinFrame setMaxFrame
  by_cases hmax : f ≤ v.maxFrame <;> by_cases hmin : f ≤ v.minFrame <;> simp [hmax, hmin]

/-- **The interval is right** unless the deleted frame is its lower end, and the upper end does not
lie so far below it that the interval stays empty. -/
lemma frames_deleteFromFrame_iff (f : ℤ) (v : NamedAnnotation) :
    (v.deleteFromFrame f).frames = closeGap f '' (v.frames \ {f}) ↔
      (v.minFrame = f → v.maxFrame + 1 < f) := by
  rw [frames_eq_Icc, frames_eq_Icc, image_closeGap_Icc, deleteFromFrame_eq]
  dsimp only
  constructor
  · rintro hframes rfl
    by_contra hle
    have hmem := Set.ext_iff.mp hframes (v.minFrame - 1)
    rw [if_pos le_rfl, if_neg (lt_irrefl _), Set.mem_Icc, Set.mem_Icc] at hmem
    split_ifs at hmem <;> omega
  · intro h
    ext k
    rw [Set.mem_Icc, Set.mem_Icc]
    split_ifs <;> omega

/-- The annotation is right exactly if its interval is and there is no center point and no offset
from the deleted frame on. -/
lemma renumbered_deleteFromFrame_iff (f : ℤ) (v : NamedAnnotation) :
    Renumbered f v (v.deleteFromFrame f) ↔
      (v.minFrame = f → v.maxFrame + 1 < f) ∧
      (∀ frame, f ≤ frame → v.centerPoints.lookup frame = none) ∧
      ∀ s ∈ v.selections, ∀ frame, f ≤ frame → s.offsets.lookup frame = none := by
  have hcenterPoints : (v.deleteFromFrame f).centerPoints = v.centerPoints := by
    rw [deleteFromFrame_eq]
  have hselections : (v.deleteFromFrame f).selections = v.selections := by
    rw [deleteFromFrame_eq]
  rw [← frames_deleteFromFrame_iff, ← renumberedPoints_self_iff]
  simp only [← renumberedPoints_self_iff]
  constructor
  · rintro ⟨hframes, hpoints, hoffsets⟩
    rw [hcenterPoints] at hpoints
    rw [hselections, List.forall₂_same] at hoffsets
    exact ⟨hframes, hpoints, hoffsets⟩
  · rintro ⟨hframes, hpoints, hoffsets⟩
    refine ⟨hframes, ?_, ?_⟩
    · rw [hcenterPoints]
      exact hpoints
    · rw [hselections, List.forall₂_same]
      exact hoffsets

end NamedAnnotation

/-- **Deleting a frame keeps all annotations on their frames** exactly if no annotation begins with
the deleted frame (an empty one that ends well in front of it does no harm) and none has a center
point or an offset from that frame on. -/
theorem deleteFromFrame_renumbers_iff {φ : Type} (f : ℤ) (g : AnnotationGroup φ) :
    List.Forall₂ (Renumbered f) g.vannotations (g.deleteFromFrame f).vannotations ↔
      ∀ v ∈ g.vannotations, (v.minFrame = f → v.maxFrame + 1 < f) ∧
        (∀ frame, f ≤ frame → v.centerPoints.lookup frame = none) ∧
        ∀ s ∈ v.selections, ∀ frame, f ≤ frame → s.offsets.lookup frame = none := by
  simp only [← NamedAnnotation.renumbered_deleteFromFrame_iff]
  change List.Forall₂ (Renumbered f) g.vannotations
    (g.vannotations.map ( NamedAnnotation.deleteFromFrame f)) ↔ _
  rw [List.forall₂_map_right_iff, List.forall₂_same]

/-- The first frame of the annotation of the ball is deleted: the annotation gets frame 2, and the
center point of frame 5 stays there. -/
theorem not_deleteFromFrame_renumbers :
    ((annotatedBall (pointPolygon 2)).deleteFromFrame 3).isInFrame 2 = true ∧
      ¬ List.Forall₂ (Renumbered 3) (ballGroup (pointPolygon 2)).vannotations
        ((ballGroup (pointPolygon 2)).deleteFromFrame 3).vannotations := by
  refine ⟨rfl, fun h => ?_⟩
  obtain ⟨hmin, -⟩ := ( NamedAnnotation.renumbered_deleteFromFrame_iff 3 _).mp
    (List.forall₂_cons.mp h).1
  exact absurd (hmin rfl) (by decide)

end NaoSoccer
