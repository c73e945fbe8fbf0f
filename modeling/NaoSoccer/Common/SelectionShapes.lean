import NaoSoccer.Common.EnclosedPoints
import NaoSoccer.Common.Polygon
import Mathlib.Tactic.Linarith
import Mathlib.Tactic.Positivity
import Mathlib.Tactic.FieldSimp
import Mathlib.Tactic.Ring

/-!
# The shapes of selections

Every class of selections has a question for a point and a list of the points.  Rectangles and
squares leave their right and lower edges out of the one and not of the other.  Ellipses list the
points for which the question says yes, in exact arithmetic.  Polygons leave both to a `Polygon`
with its caches, which they make at the first call.

A list that is moved for a frame is counted in 16 bits.
-/

namespace NaoSoccer

open KeyedMemo CountedLoop

/-! ## Polygons that are asked -/

namespace Polygon

variable (mul : ℤ → ℤ → ℤ)

/-- The polygons that a selection has: they are made from vertices and asked. -/
inductive Asked : Polygon → Prop
  | ofVertices (garbage : Polygon) (vertices : List Point) : Asked (ofVertices garbage vertices)
  | enclosesPoint {p : Polygon} (q : Point) : Asked p → Asked (p.enclosesPoint mul q).2
  | enclosedPoints {p : Polygon} : Asked p → Asked (p.enclosedPoints mul).2

/-- Points of the box with one key are told apart only after one of them has been asked for. -/
def KeysAgree (p : Polygon) : Prop :=
  ∀ q q', p.InBounds q → p.InBounds q' → lookup q = lookup q' → p.pointCache (lookup q) = none →
    evenOdd mul p.vertices q = evenOdd mul p.vertices q'

/-- The points of the box for which there is a positive answer, or none and the test is positive. -/
def inside (p : Polygon) : Set Point :=
  {q | p.InBounds q ∧ (p.pointCache (lookup q)).getD (evenOdd mul p.vertices q) = true}

/-- What holds of a polygon that has been asked. -/
structure Scanned (p : Polygon) : Prop where
  bounds : p.setBounds = p
  enclosed : p.enclosed ≠ [] →
    (∀ q ∈ candidates p.vertices, (p.pointCache (lookup q)).isSome = true) ∧
    p.enclosed = (candidates p.vertices).filter fun q => p.pointCache (lookup q) = some true

variable {mul}

/-- The box is that of the vertices. -/
lemma Scanned.mem_candidates {p : Polygon} (h : p.Scanned) {q : Point} :
    q ∈ candidates p.vertices ↔ p.InBounds q := by
  rw [← h.bounds]
  exact Point.mem_box

/-- The answer to a question. -/
lemma enclosesPoint_fst {p : Polygon} {q : Point} :
    (p.enclosesPoint mul q).1 = true ↔ q ∈ p.inside mul := by
  unfold Polygon.enclosesPoint
  by_cases hq : p.InBounds q
  · rw [if_pos hq, ask_fst]
    exact (and_iff_right hq).symm
  · rw [if_neg hq]
    exact ⟨fun h => absurd h Bool.false_ne_true, fun h => absurd h.1 hq⟩

/-- A question only adds to the cache. -/
lemma Scanned.enclosesPoint {p : Polygon} (h : p.Scanned) (q : Point) :
    (p.enclosesPoint mul q).2.Scanned := by
  unfold Polygon.enclosesPoint
  by_cases hq : p.InBounds q
  · rw [if_pos hq]
    refine ⟨?_, fun hne => ?_⟩
    · have hbounds := h.bounds
      rw [← hbounds]
      rfl
    · obtain ⟨hsome, hfilter⟩ := h.enclosed hne
      have hkept : ∀ q' ∈ candidates p.vertices,
          (ask lookup (evenOdd mul p.vertices) q p.pointCache).2 (lookup q') =
            p.pointCache (lookup q') := by
        intro q' hq'
        obtain ⟨b, hb⟩ := Option.isSome_iff_exists.mp (hsome q' hq')
        rw [hb, ask_snd_of_some hb]
      refine ⟨fun q' hq' => ?_, hfilter.trans (List.filter_congr fun q' hq' => ?_)⟩
      · exact (congrArg Option.isSome (hkept q' hq')).trans (hsome q' hq')
      · exact congrArg (fun o : Option Bool => decide (o = some true)) (hkept q' hq').symm
  · rw [if_neg hq]
    exact h

/-- A polygon without a list asks for all points of its box. -/
lemma Scanned.enclosedPoints_of_nil {p : Polygon} (h : p.Scanned) (hnil : p.enclosed = []) :
    let answer := filterAsk lookup (evenOdd mul p.vertices) (candidates p.vertices) p.pointCache
    p.enclosedPoints mul = (answer.1, { p with pointCache := answer.2, enclosed := answer.1 }) := by
  have hlen : ¬ p.enclosed.length > 0 := by
    rw [hnil]
    exact Nat.lt_irrefl 0
  have hbox : (candidates p.vertices).filter (fun q => p.InBounds q) = candidates p.vertices :=
    List.filter_eq_self.mpr fun q hq => decide_eq_true (h.mem_candidates.mp hq)
  rw [Polygon.enclosedPoints, if_neg hlen, collect_eq, hbox, hnil]
  rfl

/-- So does the list. -/
lemma Scanned.enclosedPoints {p : Polygon} (h : p.Scanned) : (p.enclosedPoints mul).2.Scanned := by
  by_cases hnil : p.enclosed = []
  · rw [h.enclosedPoints_of_nil hnil]
    refine ⟨?_, fun _ => ⟨isSome_filterAsk_snd, filterAsk_eq_filter _ _⟩⟩
    have hbounds := h.bounds
    rw [← hbounds]
    rfl
  · rw [Polygon.enclosedPoints, if_pos (List.length_pos_iff.mpr hnil)]
    exact h

/-- **The list** is always the one of a search through the box with the answers so far. -/
lemma Scanned.enclosedPoints_fst {p : Polygon} (h : p.Scanned) :
    (p.enclosedPoints mul).1 =
      (filterAsk lookup (evenOdd mul p.vertices) (candidates p.vertices) p.pointCache).1 := by
  by_cases hnil : p.enclosed = []
  · rw [h.enclosedPoints_of_nil hnil]
  · obtain ⟨hsome, hfilter⟩ := h.enclosed hnil
    rw [Polygon.enclosedPoints, if_pos (List.length_pos_iff.mpr hnil),
      filterAsk_eq_filter_of_isSome hsome]
    exact hfilter

/-- A polygon that has been asked is scanned in full or not at all. -/
lemma Asked.scanned {p : Polygon} (h : p.Asked mul) : p.Scanned := by
  induction h with
  | ofVertices garbage vertices => exact ⟨rfl, fun h => absurd rfl h⟩
  | enclosesPoint q _ ih => exact ih.enclosesPoint q
  | enclosedPoints _ ih => exact ih.enclosedPoints

/-- No point is listed twice. -/
lemma Scanned.nodup {p : Polygon} (h : p.Scanned) : (p.enclosedPoints mul).1.Nodup := by
  rw [h.enclosedPoints_fst, filterAsk_eq_filter]
  exact (Point.nodup_box _ _ _ _).filter _

/-- **Question and list agree exactly if keys do.** -/
lemma Scanned.agrees_iff {p : Polygon} (h : p.Scanned) :
    (∀ q, (p.enclosesPoint mul q).1 = true ↔ q ∈ (p.enclosedPoints mul).1) ↔ p.KeysAgree mul := by
  have hask {q : Point} (hq : q ∈ candidates p.vertices) : (p.enclosesPoint mul q).1 =
      (ask lookup (evenOdd mul p.vertices) q p.pointCache).1 := by
    rw [Polygon.enclosesPoint, if_pos (h.mem_candidates.mp hq)]
  rw [h.enclosedPoints_fst]
  constructor
  · intro hagree q q' hq hq' hkey hnone
    refine forall_ask_iff_mem_filterAsk.mp (fun a ha => ?_) q (h.mem_candidates.mpr hq) q'
      (h.mem_candidates.mpr hq') hkey hnone
    rw [← hask ha]
    exact hagree a
  · intro hkeys q
    by_cases hq : q ∈ candidates p.vertices
    · rw [hask hq]
      refine forall_ask_iff_mem_filterAsk.mpr (fun a ha a' ha' => ?_) q hq
      exact hkeys a a' (h.mem_candidates.mp ha) (h.mem_candidates.mp ha')
    · refine iff_of_false (fun htrue => ?_) fun hmem => ?_
      · exact hq (h.mem_candidates.mpr (enclosesPoint_fst.mp htrue).1)
      · rw [filterAsk_eq_filter] at hmem
        exact hq (List.mem_of_mem_filter hmem)

end Polygon

/-! ## The classes -/

namespace RectangleSelection

/-- `RectangleSelection::getEnclosedPoints` -/
def getEnclosedPoints (topleft bottomright : Point) : List Point :=
  Point.box topleft.x bottomright.x topleft.y bottomright.y

/-- `RectangleSelection::enclosesPoint` -/
def enclosesPoint (topleft bottomright q : Point) : Bool :=
  decide (q.x ≥ topleft.x ∧ q.y ≥ topleft.y ∧ q.x < bottomright.x ∧ q.y < bottomright.y)

/-- **The lower right corner is listed and not enclosed.** -/
lemma not_agrees {topleft bottomright : Point} (hx : topleft.x ≤ bottomright.x)
    (hy : topleft.y ≤ bottomright.y) :
    ¬ ∀ q, enclosesPoint topleft bottomright q = true ↔
      q ∈ getEnclosedPoints topleft bottomright := by
  intro h
  have hcorner := (h bottomright).mpr (Point.mem_box.mpr ⟨hx, le_rfl, hy, le_rfl⟩)
  obtain ⟨-, -, hlt, -⟩ := of_decide_eq_true hcorner
  exact absurd hlt (lt_irrefl _)

end RectangleSelection

namespace EllipseSelection

/-- `EllipseSelection::enclosesPoint`, in exact arithmetic. -/
def enclosesPoint (top left width height : ℤ) (q : Point) : Bool :=
  let xrad : ℚ := width / 2
  let yrad : ℚ := height / 2
  let cx : ℚ := left + xrad
  let cy : ℚ := top + yrad
  let value := (q.x - cx) * (q.x - cx) / (xrad * xrad) + (q.y - cy) * (q.y - cy) / (yrad * yrad)
  decide (value ≤ 1)

/-- `EllipseSelection::getEnclosedPoints` -/
def getEnclosedPoints (top left width height : ℤ) : List Point :=
  (Point.box left (left + width) top (top + height)).filter (enclosesPoint top left width height)

/-- The points with integer coordinates of an ellipse. -/
def inside (top left width height : ℤ) : Set Point :=
  {q | (2 * (q.x - left) - width) ^ 2 * height ^ 2 + (2 * (q.y - top) - height) ^ 2 * width ^ 2 ≤
    width ^ 2 * height ^ 2}

variable {top left width height : ℤ}

/-- The question is for these points. -/
lemma enclosesPoint_iff (hwidth : 0 < width) (hheight : 0 < height) {q : Point} :
    enclosesPoint top left width height q = true ↔ q ∈ inside top left width height := by
  have hw : (0 : ℚ) < width := Int.cast_pos.mpr hwidth
  have hh : (0 : ℚ) < height := Int.cast_pos.mpr hheight
  have hcast : q ∈ inside top left width height ↔
      ((2 * (q.x - left) - width) ^ 2 * height ^ 2 + (2 * (q.y - top) - height) ^ 2 * width ^ 2 : ℚ) ≤
        width ^ 2 * height ^ 2 := by
    unfold inside
    exact_mod_cast Iff.rfl
  have hvalue : ((q.x - (left + width / 2)) * (q.x - (left + width / 2)) / (width / 2 * (width / 2)) +
      (q.y - (top + height / 2)) * (q.y - (top + height / 2)) / (height / 2 * (height / 2)) : ℚ) =
        ((2 * (q.x - left) - width) ^ 2 * height ^ 2 + (2 * (q.y - top) - height) ^ 2 * width ^ 2) /
          (width ^ 2 * height ^ 2) := by
    field_simp
    ring
  have hpos : (0 : ℚ) < width ^ 2 * height ^ 2 := by positivity
  rw [hcast, ← div_le_one hpos, ← hvalue]
  exact decide_eq_true_iff

/-- They lie in the box that is searched. -/
lemma mem_box_of_mem_inside (hwidth : 0 < width) (hheight : 0 < height) {q : Point}
    (hq : q ∈ inside top left width height) :
    q ∈ Point.box left (left + width) top (top + height) := by
  have hx : (2 * (q.x - left) - width) ^ 2 ≤ width ^ 2 := by
    have hle : (2 * (q.x - left) - width) ^ 2 * height ^ 2 ≤ width ^ 2 * height ^ 2 :=
      (le_add_of_nonneg_right (by positivity)).trans hq
    exact le_of_mul_le_mul_right hle (by positivity)
  have hy : (2 * (q.y - top) - height) ^ 2 ≤ height ^ 2 := by
    have hle : (2 * (q.y - top) - height) ^ 2 * width ^ 2 ≤ width ^ 2 * height ^ 2 :=
      (le_add_of_nonneg_left (by positivity)).trans hq
    rw [mul_comm (width ^ 2)] at hle
    exact le_of_mul_le_mul_right hle (by positivity)
  obtain ⟨hleft, hright⟩ := abs_le_of_sq_le_sq' hx hwidth.le
  obtain ⟨htop, hbottom⟩ := abs_le_of_sq_le_sq' hy hheight.le
  refine Point.mem_box.mpr ⟨?_, ?_, ?_, ?_⟩ <;> omega

/-- **Question and list agree.** -/
lemma agrees (hwidth : 0 < width) (hheight : 0 < height) (q : Point) :
    enclosesPoint top left width height q = true ↔
      q ∈ getEnclosedPoints top left width height := by
  rw [getEnclosedPoints, List.mem_filter]
  refine ⟨fun h => ⟨?_, h⟩, fun h => h.2⟩
  exact mem_box_of_mem_inside hwidth hheight ((enclosesPoint_iff hwidth hheight).mp h)

end EllipseSelection

namespace PolygonSelection

variable (mul : ℤ → ℤ → ℤ) (garbage : Polygon)

/-- `PolygonSelection::getPolygon`, for a `polygon_` that is not there yet. -/
def getPolygon (vertices : List Point) (polygon : Option Polygon) : Polygon :=
  polygon.getD (Polygon.ofVertices garbage vertices)

/-- `PolygonSelection::getEnclosedPoints` -/
def getEnclosedPoints (vertices : List Point) (polygon : Option Polygon) : List Point :=
  ((getPolygon garbage vertices polygon).enclosedPoints mul).1

/-- `PolygonSelection::enclosesPoint` -/
def enclosesPoint (vertices : List Point) (polygon : Option Polygon) (q : Point) : Bool :=
  ((getPolygon garbage vertices polygon).enclosesPoint mul q).1

end PolygonSelection

/-- The methods of the classes, when the polygons are at hand that selections have made so far. -/
def classMethods (mul : ℤ → ℤ → ℤ) (garbage : Polygon) (polygon : Selection → Option Polygon) :
    SelectionMethods where
  getEnclosedPoints s := match s.shape with
    | .rectangle tl br => RectangleSelection.getEnclosedPoints tl br
    | .square tl br => RectangleSelection.getEnclosedPoints tl br
    | .ellipse top left width height => EllipseSelection.getEnclosedPoints top left width height
    | .polygon vertices => PolygonSelection.getEnclosedPoints mul garbage vertices (polygon s)
    | .manual vertices => PolygonSelection.getEnclosedPoints mul garbage vertices (polygon s)
  enclosesPoint q s := match s.shape with
    | .rectangle tl br => RectangleSelection.enclosesPoint tl br q
    | .square tl br => RectangleSelection.enclosesPoint tl br q
    | .ellipse top left width height => EllipseSelection.enclosesPoint top left width height q
    | .polygon vertices => PolygonSelection.enclosesPoint mul garbage vertices (polygon s) q
    | .manual vertices => PolygonSelection.enclosesPoint mul garbage vertices (polygon s) q

/-! ## One notion of inside -/

namespace Selection

/-- **One notion of inside**: question and list agree, as the selection is and for every frame, and
no point is listed twice. -/
structure OneInside (methods : SelectionMethods) (s : Selection) : Prop where
  agrees : s.Agrees methods
  nodup : (methods.getEnclosedPoints s).Nodup
  agreesIn : ∀ q frame,
    s.enclosesPoint methods q frame = true ↔ q ∈ s.getEnclosedPoints methods frame
  nodupIn : ∀ frame, (s.getEnclosedPoints methods frame).Nodup

variable {methods : SelectionMethods} {s : Selection}

/-- **What the offsets add**: the points must not be too many to be counted. -/
lemma oneInside_iff_of_agrees (hagrees : s.Agrees methods)
    (hnodup : (methods.getEnclosedPoints s).Nodup) :
    s.OneInside methods ↔
      (s.hasOffsets = true → (methods.getEnclosedPoints s).length < 2 ^ 16) := by
  have hmoved (q : Point) (frame : ℤ) :
      q ∈ (counted 16 (methods.getEnclosedPoints s)).map (· + s.getOffset frame) ↔
        q - s.getOffset frame ∈ counted 16 (methods.getEnclosedPoints s) := by
    rw [List.mem_map]
    constructor
    · rintro ⟨p, hp, hq⟩
      rwa [← Point.add_eq_iff.mp hq]
    · exact fun hq => ⟨_, hq, Point.add_eq_iff.mpr rfl⟩
  cases hoffsets : s.hasOffsets with
  | false =>
    refine iff_of_true ⟨hagrees, hnodup, fun q frame => ?_, fun frame => ?_⟩ (by simp)
    · rw [enclosesPoint, getEnclosedPoints, hoffsets]
      exact hagrees q
    · rw [getEnclosedPoints, hoffsets]
      exact hnodup
  | true =>
    rw [← subset_counted_iff hnodup, forall_prop_of_true rfl]
    constructor
    · intro h p hp
      have hq := h.agreesIn (p + s.getOffset 0) 0
      rw [enclosesPoint, getEnclosedPoints, hoffsets] at hq
      have hback : p + s.getOffset 0 - s.getOffset 0 = p := (Point.add_eq_iff.mp rfl).symm
      have hmem := (hmoved _ _).mp (hq.mp ((hagrees _).mpr (hback.symm ▸ hp)))
      rwa [hback] at hmem
    · intro hsub
      refine ⟨hagrees, hnodup, fun q frame => ?_, fun frame => ?_⟩
      · rw [enclosesPoint, getEnclosedPoints, hoffsets]
        refine (hagrees _).trans (Iff.trans ?_ (hmoved q frame).symm)
        exact ⟨fun h => hsub h, mem_of_mem_counted⟩
      · rw [getEnclosedPoints, hoffsets]
        exact (nodup_counted hnodup).map (Point.add_right_injective _)

variable {mul : ℤ → ℤ → ℤ} {garbage : Polygon} {polygon : Selection → Option Polygon}

/-- Widths and heights are positive. -/
def Positive (s : Selection) : Prop :=
  match s.shape with
  | .rectangle tl br => tl.x < br.x ∧ tl.y < br.y
  | .square tl br => tl.x < br.x ∧ tl.y < br.y
  | .ellipse _ _ width height => 0 < width ∧ 0 < height
  | .polygon _ => True
  | .manual _ => True

variable (mul garbage polygon) in
/-- When a polygon, and the selection that has it, has one notion of inside. -/
def PolygonConsistent (s : Selection) (vertices : List Point) : Prop :=
  let p := PolygonSelection.getPolygon garbage vertices (polygon s)
  p.KeysAgree mul ∧ (s.hasOffsets = true → (p.inside mul).ncard < 2 ^ 16)

variable (mul garbage polygon) in
/-- When a selection has one notion of inside. -/
def Consistent (s : Selection) : Prop :=
  match s.shape with
  | .rectangle _ _ => False
  | .square _ _ => False
  | .ellipse top left width height =>
    s.hasOffsets = true → (EllipseSelection.inside top left width height).ncard < 2 ^ 16
  | .polygon vertices => s.PolygonConsistent mul garbage polygon vertices
  | .manual vertices => s.PolygonConsistent mul garbage polygon vertices

/-- **A selection with a polygon.** -/
lemma oneInside_iff_polygon {vertices : List Point}
    (hclass : (classMethods mul garbage polygon).getEnclosedPoints s =
        PolygonSelection.getEnclosedPoints mul garbage vertices (polygon s) ∧
      ∀ q, (classMethods mul garbage polygon).enclosesPoint q s =
        PolygonSelection.enclosesPoint mul garbage vertices (polygon s) q)
    (hasked : ∀ p, polygon s = some p → p.Asked mul) :
    s.OneInside (classMethods mul garbage polygon) ↔
      s.PolygonConsistent mul garbage polygon vertices := by
  obtain ⟨hpoints, hencloses⟩ := hclass
  have hscanned : (PolygonSelection.getPolygon garbage vertices (polygon s)).Scanned := by
    cases hpolygon : polygon s with
    | none =>
      have hmade : (Polygon.ofVertices garbage vertices).Asked mul := .ofVertices garbage vertices
      exact hmade.scanned
    | some p => exact (hasked p hpolygon).scanned
  have hagrees : s.Agrees (classMethods mul garbage polygon) ↔
      (PolygonSelection.getPolygon garbage vertices (polygon s)).KeysAgree mul := by
    rw [← hscanned.agrees_iff]
    refine forall_congr' fun q => ?_
    rw [hpoints, hencloses]
    rfl
  have hnodup : ((classMethods mul garbage polygon).getEnclosedPoints s).Nodup := by
    rw [hpoints]
    exact hscanned.nodup
  have hiff (h : s.Agrees (classMethods mul garbage polygon)) :
      s.OneInside (classMethods mul garbage polygon) ↔ (s.hasOffsets = true →
        ((PolygonSelection.getPolygon garbage vertices (polygon s)).inside mul).ncard < 2 ^ 16) := by
    rw [oneInside_iff_of_agrees h hnodup, length_eq_ncard hnodup fun q => ?_]
    rw [← h q, hencloses]
    exact Polygon.enclosesPoint_fst
  constructor
  · intro h
    exact ⟨hagrees.mp h.agrees, (hiff h.agrees).mp h⟩
  · rintro ⟨hkeys, hshort⟩
    exact (hiff (hagrees.mpr hkeys)).mpr hshort

/-- **A selection has one notion of inside exactly if** it is an ellipse or a polygon whose keys
agree, and, if it has offsets, has fewer than `2 ^ 16` points. -/
theorem oneInside_iff (hpositive : s.Positive) (hasked : ∀ p, polygon s = some p → p.Asked mul) :
    s.OneInside (classMethods mul garbage polygon) ↔ s.Consistent mul garbage polygon := by
  unfold Positive at hpositive
  unfold Consistent
  obtain ⟨address, shape, offsets⟩ := s
  cases shape with
  | rectangle tl br =>
    refine iff_of_false (fun h => ?_) id
    exact RectangleSelection.not_agrees hpositive.1.le hpositive.2.le h.agrees
  | square tl br =>
    refine iff_of_false (fun h => ?_) id
    exact RectangleSelection.not_agrees hpositive.1.le hpositive.2.le h.agrees
  | ellipse top left width height =>
    have hagrees : Agrees (classMethods mul garbage polygon)
        ⟨address, .ellipse top left width height, offsets⟩ :=
      EllipseSelection.agrees hpositive.1 hpositive.2
    have hnodup : (EllipseSelection.getEnclosedPoints top left width height).Nodup :=
      (Point.nodup_box _ _ _ _).filter _
    refine (oneInside_iff_of_agrees hagrees hnodup).trans (forall_congr' fun _ => ?_)
    have hncard := length_eq_ncard hnodup fun q => (hagrees q).symm.trans
      (EllipseSelection.enclosesPoint_iff hpositive.1 hpositive.2)
    rw [← hncard]
    rfl
  | polygon vertices => exact oneInside_iff_polygon ⟨rfl, fun _ => rfl⟩ hasked
  | manual vertices => exact oneInside_iff_polygon ⟨rfl, fun _ => rfl⟩ hasked

/-- An ellipse that has not been moved. -/
theorem oneInside_ellipse :
    OneInside (classMethods (· * ·) (Polygon.new ⟨[], 0, 0, 0, 0, fun _ => none, []⟩) fun _ => none)
      ⟨1, .ellipse 0 0 4 2, ∅⟩ := by
  have hpositive : (⟨1, .ellipse 0 0 4 2, ∅⟩ : Selection).Positive := ⟨by decide, by decide⟩
  refine (oneInside_iff hpositive fun p hp => ?_).mpr fun h => ?_
  · exact absurd hp (by simp)
  · exact absurd h (by decide)

/-- A rectangle lists its lower right corner and does not enclose it. -/
theorem not_oneInside :
    ¬ ∀ (mul : ℤ → ℤ → ℤ) (garbage : Polygon) (polygon : Selection → Option Polygon) (s : Selection),
      s.Positive → (∀ p, polygon s = some p → p.Asked mul) →
        s.OneInside (classMethods mul garbage polygon) := by
  intro h
  have hinside := h (· * ·) (Polygon.new ⟨[], 0, 0, 0, 0, fun _ => none, []⟩) (fun _ => none)
    ⟨1, .rectangle ⟨0, 0⟩ ⟨1, 1⟩, ∅⟩ ⟨by decide, by decide⟩ fun p hp => absurd hp (by simp)
  have hcorner := (hinside.agrees ⟨1, 1⟩).mpr (by decide)
  exact absurd hcorner (by decide)

end Selection

end NaoSoccer
