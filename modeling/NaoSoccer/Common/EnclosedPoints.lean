import NaoSoccer.Common.VisionAnnotation
import NaoSoccer.Foundation.CountedLoop
import Mathlib.Data.Fintype.EquivFin

/-!
# The points of an annotation

`VisionAnnotation` says of a point whether a selection encloses it, and lists the points that its
selections enclose, either as the selections are or as they have been moved for a frame.  What a
selection encloses is up to its class (`SelectionMethods`); the methods for a frame, which
`Selection` has for all classes, move the points one way and the question the other way.

The loops count selections and points in 16 bits.  In the question for a frame the `if` is followed
by an empty statement, so its answer is always yes once there are center points.
-/

namespace NaoSoccer

open CountedLoop

instance : Add Point := ⟨fun p q => ⟨p.x + q.x, p.y + q.y⟩⟩

/-- A point is moved exactly if it is moved back. -/
lemma Point.add_eq_iff {p q offset : Point} : p + offset = q ↔ p = q - offset := by
  obtain ⟨px, py⟩ := p
  obtain ⟨qx, qy⟩ := q
  change (⟨px + offset.x, py + offset.y⟩ : Point) = ⟨qx, qy⟩ ↔
    (⟨px, py⟩ : Point) = ⟨qx - offset.x, qy - offset.y⟩
  rw [mk.injEq, mk.injEq]
  omega

/-- Moving keeps points apart. -/
lemma Point.add_right_injective (offset : Point) : Function.Injective fun p : Point => p + offset := by
  intro p q h
  have hp : p = q + offset - offset := add_eq_iff.mp h
  exact hp.trans (add_eq_iff.mp rfl).symm

/-- There are points enough. -/
instance : Infinite Point :=
  Infinite.of_injective (fun x : ℤ => (⟨x, 0⟩ : Point)) fun _ _ h => congrArg Point.x h

/-- What the class of a selection makes of its virtual methods. -/
structure SelectionMethods where
  getEnclosedPoints : Selection → List Point
  enclosesPoint : Point → Selection → Bool

namespace Selection

variable (methods : SelectionMethods)

/-- `Selection::getOffset` -/
def getOffset (frame : ℤ) (s : Selection) : Point := (s.offsets.lookup frame).getD ⟨0, 0⟩

/-- `Selection::hasOffsets` -/
def hasOffsets (s : Selection) : Bool := !s.offsets.entries.isEmpty

/-- `Selection::getEnclosedPoints(frame)` -/
def getEnclosedPoints (frame : ℤ) (s : Selection) : List Point :=
  if !s.hasOffsets then methods.getEnclosedPoints s
  else (counted 16 (methods.getEnclosedPoints s)).map (· + s.getOffset frame)

/-- `Selection::enclosesPoint(x, y, frame)` -/
def enclosesPoint (q : Point) (frame : ℤ) (s : Selection) : Bool :=
  if !s.hasOffsets then methods.enclosesPoint q s
  else methods.enclosesPoint (q - s.getOffset frame) s

/-- The two methods of the class agree. -/
def Agrees (s : Selection) : Prop :=
  ∀ q, methods.enclosesPoint q s = true ↔ q ∈ methods.getEnclosedPoints s

end Selection

namespace VisionAnnotation

variable (methods : SelectionMethods)

/-- `VisionAnnotation::getEnclosedPoints` -/
def getEnclosedPoints (v : VisionAnnotation) : List Point :=
  (counted 16 v.selections).flatMap fun s => counted 16 (methods.getEnclosedPoints s)

/-- `VisionAnnotation::getEnclosedPoints(frame)` -/
def getEnclosedPointsIn (frame : ℤ) (v : VisionAnnotation) : List Point :=
  if v.centerPoints.entries.isEmpty then v.getEnclosedPoints methods
  else (counted 16 v.selections).flatMap fun s => counted 16 (s.getEnclosedPoints methods frame)

/-- `VisionAnnotation::enclosesPoint` -/
def enclosesPoint (q : Point) (v : VisionAnnotation) : Bool :=
  (counted 16 v.selections).any (methods.enclosesPoint q)

/-- `VisionAnnotation::enclosesPoint(x, y, frame)` -/
def enclosesPointIn (q : Point) (_frame : ℤ) (v : VisionAnnotation) : Bool :=
  if v.centerPoints.entries.isEmpty then v.enclosesPoint methods q
  else
    -- the loop does nothing with the answers of the selections, and `return true` stands behind it
    true

/-! ## What should hold -/

/-- **Questions and lists agree**, and the lists have all points of all selections. -/
structure PointsAgree (v : VisionAnnotation) : Prop where
  encloses : ∀ q, v.enclosesPoint methods q = true ↔ q ∈ v.getEnclosedPoints methods
  enclosesIn : ∀ q frame,
    v.enclosesPointIn methods q frame = true ↔ q ∈ v.getEnclosedPointsIn methods frame
  all : v.getEnclosedPoints methods = v.selections.flatMap methods.getEnclosedPoints
  allIn : ∀ frame, v.getEnclosedPointsIn methods frame = v.selections.flatMap fun s =>
    if v.centerPoints.entries.isEmpty then methods.getEnclosedPoints s
    else s.getEnclosedPoints methods frame

variable {methods} {v : VisionAnnotation}

/-- With center points the two cannot agree: no list has all points. -/
lemma not_enclosesIn (h : v.centerPoints.entries.isEmpty = false) :
    ¬ ∀ q, v.enclosesPointIn methods q 0 = true ↔ q ∈ v.getEnclosedPointsIn methods 0 := by
  intro hagree
  obtain ⟨q, hq⟩ := Infinite.exists_notMem_finset (v.getEnclosedPointsIn methods 0).toFinset
  refine hq (List.mem_toFinset.mpr ((hagree q).mp ?_))
  rw [enclosesPointIn, h]
  rfl

/-- If no point is lost in counting, then the question is whether a point is in the list. -/
lemma enclosesPoint_iff (hagrees : ∀ s ∈ v.selections, s.Agrees methods)
    (hshort : ∀ s ∈ counted 16 v.selections, (methods.getEnclosedPoints s).length < 2 ^ 16)
    (q : Point) : v.enclosesPoint methods q = true ↔ q ∈ v.getEnclosedPoints methods := by
  rw [enclosesPoint, List.any_eq_true, getEnclosedPoints, List.mem_flatMap]
  refine exists_congr fun s => and_congr_right fun hs => ?_
  rw [counted_eq_self_iff.mpr (hshort s hs)]
  exact hagrees s (mem_of_mem_counted hs) q

/-- **An annotation has one notion of what it encloses exactly if** it has no center points, each
selection that is counted has fewer than `2 ^ 16` points, and the ones behind them have none. -/
theorem pointsAgree_iff (hagrees : ∀ s ∈ v.selections, s.Agrees methods) :
    v.PointsAgree methods ↔
      v.centerPoints = ∅ ∧
      (∀ s ∈ v.selections.take (v.selections.length % 2 ^ 16),
        (methods.getEnclosedPoints s).length < 2 ^ 16) ∧
      ∀ s ∈ v.selections.drop (v.selections.length % 2 ^ 16),
        methods.getEnclosedPoints s = [] := by
  have hcenter : v.centerPoints = ∅ ↔ v.centerPoints.entries.isEmpty = true := by
    rw [List.isEmpty_iff]
    exact AList.ext_iff
  rw [hcenter, ← flatMap_counted_eq_iff]
  constructor
  · intro h
    refine ⟨?_, h.all⟩
    by_contra hne
    exact not_enclosesIn (Bool.eq_false_of_not_eq_true hne) fun q => h.enclosesIn q 0
  · rintro ⟨hempty, hall⟩
    have hencloses := enclosesPoint_iff hagrees (flatMap_counted_eq_iff.mp hall).1
    refine ⟨hencloses, fun q frame => ?_, hall, fun frame => ?_⟩
    · rw [enclosesPointIn, getEnclosedPointsIn, if_pos hempty, if_pos hempty]
      exact hencloses q
    · rw [getEnclosedPointsIn, if_pos hempty]
      simp only [hempty, if_true]
      exact hall

/-- A class whose selections enclose their center only. -/
def centerMethods : SelectionMethods where
  getEnclosedPoints s := [s.getCenter]
  enclosesPoint q s := decide (q = s.getCenter)

/-- Its methods agree. -/
lemma agrees_centerMethods (s : Selection) : s.Agrees centerMethods := by
  intro q
  rw [centerMethods, decide_eq_true_iff, List.mem_singleton]

/-- An annotation with two selections that has never been moved. -/
theorem pointsAgree_two :
    PointsAgree centerMethods ⟨[⟨1, .rectangle ⟨0, 0⟩ ⟨10, 10⟩, ∅⟩, ⟨2, .ellipse 0 20 8 8, ∅⟩], ∅⟩ :=
  (pointsAgree_iff fun s _ => agrees_centerMethods s).mpr ⟨rfl, by decide, by decide⟩

/-- An annotation that has been moved in a frame encloses every point there. -/
theorem not_pointsAgree :
    ¬ ∀ (methods : SelectionMethods) (v : VisionAnnotation),
      (∀ s ∈ v.selections, s.Agrees methods) → v.PointsAgree methods := by
  intro h
  have hagree := h centerMethods ⟨[⟨1, .rectangle ⟨0, 0⟩ ⟨10, 10⟩, ∅⟩],
    AList.insert 7 ⟨60, 40⟩ ∅⟩ fun s _ => agrees_centerMethods s
  have hmem := (hagree.enclosesIn ⟨0, 0⟩ 7).mp rfl
  exact absurd hmem (by decide)

end VisionAnnotation

end NaoSoccer
