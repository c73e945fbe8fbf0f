import NaoSoccer.Common.AnnotationFrames
import NaoSoccer.Common.EnclosedPoints
import NaoSoccer.Common.Polygon
import NaoSoccer.Tools.ColorTable

/-!
# Statistics of pixels

`AnnotationAnalyzer` compares a color table with annotations.  For a color and a frame it goes
through all pixels and collects those that have the color and that no annotation of the color
encloses.  It goes through the points that such annotations enclose and collects those that have the
color.  The totals concatenate this for all images.

A point that lies to the left of the image or above it is looked up in the memory all the same, and
a point that two annotations enclose, or one in two selections, is collected twice.  The loops over
the images count in 16 bits.
-/

namespace NaoSoccer

open CountedLoop NarrowLoop ColorTableMethods

/-- An image of the log: the memory from `image.data()` on, and the fields of its `ImageParams`. -/
structure LogImage where
  image : ℤ → UInt8
  width : ℤ
  height : ℤ

namespace LogImage

/-- The point is in the image. -/
def Contains (f : LogImage) (q : Point) : Prop :=
  0 ≤ q.x ∧ q.x < f.width ∧ 0 ≤ q.y ∧ q.y < f.height

/-- The pixels in the order of the loops. -/
def pixels (f : LogImage) : List Point := Point.box 0 (f.width - 1) 0 (f.height - 1)

/-- The color that a table gives to a point. -/
def colorAt (f : LogImage) (t : ColorTable) (q : Point) : UInt8 :=
  xy2color f.image t q.x q.y f.width

/-- The loops go through the points of the image. -/
lemma mem_pixels {f : LogImage} {q : Point} : q ∈ f.pixels ↔ f.Contains q := by
  rw [pixels, Point.mem_box, Contains]
  omega

end LogImage

/-- The fields of `AnnotationAnalyzer` that the statistics depend on. -/
structure AnnotationAnalyzer where
  annotations : List NamedAnnotation
  /-- The images of `data_`, each with its parameters. -/
  images : List LogImage
  table : Option ColorTable

namespace AnnotationAnalyzer

variable (methods : SelectionMethods) (query : Color)

/-- The annotations of a color that are in a frame. -/
def present (frame : ℕ) (a : AnnotationAnalyzer) : List NamedAnnotation :=
  a.annotations.filter fun v => v.color = query ∧ v.isInFrame frame = true

/-- The pixels that `falsePositives(query, frame)` collects of the image of the frame. -/
def falsePositives (frame : ℕ) (f : LogImage) (a : AnnotationAnalyzer) : List Point :=
  match a.table with
  | none => []
  | some table => f.pixels.filter fun q =>
    f.colorAt table q = query.value ∧
      ¬ (a.present query frame).any (fun v => v.enclosesPointIn methods q frame) = true

/-- The points whose color `truePositives(query, frame)` looks up in the image of the frame. -/
def lookups (frame : ℕ) (f : LogImage) (a : AnnotationAnalyzer) : List Point :=
  (a.present query frame).flatMap fun v =>
    (v.getEnclosedPointsIn methods frame).filter fun p => ¬ (p.x ≥ f.width ∨ p.y ≥ f.height)

/-- `truePositives(query, frame)` -/
def truePositives (frame : ℕ) (f : LogImage) (a : AnnotationAnalyzer) : List Point :=
  match a.table with
  | none => []
  | some table => (a.lookups methods query frame f).filter fun p => f.colorAt table p = query.value

/-- The loops of `falsePositives(query)` and `truePositives(query)`, which end within the given
number of passes or not at all. -/
def total (points : ℕ → LogImage → List Point) (passes : ℕ) (a : AnnotationAnalyzer) :
    Except Unit (List Point) :=
  forEach 16 () a.images.zipIdx (fun collected image =>
    .ok (collected ++ counted 16 (points image.2 image.1))) passes 0 []

/-- `falsePositives(query)` -/
def allFalsePositives (passes : ℕ) (a : AnnotationAnalyzer) : Except Unit (List Point) :=
  match a.table with
  | none => .ok []
  | some _ => a.total (fun frame f => a.falsePositives methods query frame f) passes

/-- `truePositives(query)` -/
def allTruePositives (passes : ℕ) (a : AnnotationAnalyzer) : Except Unit (List Point) :=
  match a.table with
  | none => .ok []
  | some _ => a.total (fun frame f => a.truePositives methods query frame f) passes

/-! ## What the statistics are for -/

/-- Some annotation of the color that is in the frame encloses the point. -/
def Enclosed (frame : ℕ) (a : AnnotationAnalyzer) (q : Point) : Prop :=
  ∃ v ∈ a.annotations, v.color = query ∧ v.isInFrame frame = true ∧
    v.enclosesPointIn methods q frame = true

/-- The pixels of the color. -/
def colored (table : ColorTable) (f : LogImage) : Set Point :=
  {q | f.Contains q ∧ f.colorAt table q = query.value}

/-- **What one frame should give**: every pixel of the color once, among the true positives exactly
if it is enclosed, and no look outside of the image. -/
structure FrameRight (table : ColorTable) (frame : ℕ) (f : LogImage) (a : AnnotationAnalyzer) :
    Prop where
  once : ∀ q ∈ colored query table f,
    (a.truePositives methods query frame f ++ a.falsePositives methods query frame f).count q = 1
  enclosed : ∀ q ∈ colored query table f,
    q ∈ a.truePositives methods query frame f ↔ a.Enclosed methods query frame q
  inside : ∀ q ∈ f.pixels ++ a.lookups methods query frame f, f.Contains q

/-- **What all frames should give**: in each frame what is right there, and in total the
concatenation. -/
structure CountsOnce (table : ColorTable) (a : AnnotationAnalyzer) : Prop where
  frame : ∀ image ∈ a.images.zipIdx, a.FrameRight methods query table image.2 image.1
  allTruePositives : ∃ passes, a.allTruePositives methods query passes =
    .ok (a.images.zipIdx.flatMap fun image => a.truePositives methods query image.2 image.1)
  allFalsePositives : ∃ passes, a.allFalsePositives methods query passes =
    .ok (a.images.zipIdx.flatMap fun image => a.falsePositives methods query image.2 image.1)

/-- The annotations of a frame can be counted: what they enclose does not lie to the left of the
image or above it, and no pixel of the color is enclosed twice. -/
structure FrameCountable (table : ColorTable) (frame : ℕ) (f : LogImage) (a : AnnotationAnalyzer) :
    Prop where
  nonneg : ∀ v ∈ a.annotations, v.color = query → v.isInFrame frame = true →
    ∀ q ∈ v.getEnclosedPointsIn methods frame, q.x < f.width → q.y < f.height → 0 ≤ q.x ∧ 0 ≤ q.y
  disjoint : ∀ q ∈ colored query table f,
    ((a.present query frame).flatMap fun v => v.getEnclosedPointsIn methods frame).count q ≤ 1

/-- The images and their pixels can be counted in 16 bits. -/
structure Countable (table : ColorTable) (a : AnnotationAnalyzer) : Prop where
  frame : ∀ image ∈ a.images.zipIdx, a.FrameCountable methods query table image.2 image.1
  images : a.images.length < 2 ^ 16
  enclosed : ∀ image ∈ a.images.zipIdx,
    {q ∈ colored query table image.1 | a.Enclosed methods query image.2 q}.ncard < 2 ^ 16
  free : ∀ image ∈ a.images.zipIdx,
    {q ∈ colored query table image.1 | ¬ a.Enclosed methods query image.2 q}.ncard < 2 ^ 16

/-! ## One frame -/

variable {methods : SelectionMethods} {query : Color} {table : ColorTable} {frame : ℕ} {f : LogImage}
  {a : AnnotationAnalyzer}

/-- The annotations of the color that are in the frame. -/
lemma mem_present {v : NamedAnnotation} :
    v ∈ a.present query frame ↔ v ∈ a.annotations ∧ v.color = query ∧ v.isInFrame frame = true := by
  rw [present, List.mem_filter, decide_eq_true_iff]

/-- The search through the annotations finds out whether one of them encloses the point. -/
lemma any_iff_enclosed {q : Point} :
    (a.present query frame).any (fun v => v.enclosesPointIn methods q frame) = true ↔
      a.Enclosed methods query frame q := by
  rw [List.any_eq_true, Enclosed]
  simp only [mem_present, and_assoc]

/-- The questions for points agree with the lists of points. -/
def Agree (methods : SelectionMethods) (a : AnnotationAnalyzer) : Prop :=
  ∀ v ∈ a.annotations, ∀ q frame,
    v.enclosesPointIn methods q frame = true ↔ q ∈ v.getEnclosedPointsIn methods frame

/-- If they do, then what is enclosed is listed. -/
lemma Agree.enclosed_iff (hagree : a.Agree methods) {q : Point} :
    a.Enclosed methods query frame q ↔
      q ∈ (a.present query frame).flatMap fun v => v.getEnclosedPointsIn methods frame := by
  rw [List.mem_flatMap, Enclosed]
  refine exists_congr fun v => ?_
  rw [mem_present, and_assoc, and_assoc]
  refine and_congr_right fun hv => and_congr_right fun _ => and_congr_right fun _ => ?_
  exact hagree v hv q frame

/-- The points that are looked up are those that are listed and not too far to the right or below.
-/
lemma lookups_eq : a.lookups methods query frame f =
    ((a.present query frame).flatMap fun v => v.getEnclosedPointsIn methods frame).filter
      fun p => ¬ (p.x ≥ f.width ∨ p.y ≥ f.height) :=
  List.filter_flatMap.symm

/-- A pixel of the color is a true positive as often as it is listed. -/
lemma count_truePositives (htable : a.table = some table) {q : Point}
    (hq : q ∈ colored query table f) :
    (a.truePositives methods query frame f).count q =
      ((a.present query frame).flatMap fun v => v.getEnclosedPointsIn methods frame).count q := by
  obtain ⟨⟨-, hx, -, hy⟩, hcolor⟩ := hq
  rw [truePositives, htable]
  dsimp only
  have hrange : decide (¬ (q.x ≥ f.width ∨ q.y ≥ f.height)) = true := decide_eq_true (by omega)
  rw [List.count_filter (by simpa using hcolor), lookups_eq, List.count_filter (by simpa using hrange)]

/-- A true positive has the color. -/
lemma colorAt_of_mem_truePositives (htable : a.table = some table) {q : Point}
    (hq : q ∈ a.truePositives methods query frame f) : f.colorAt table q = query.value := by
  rw [truePositives, htable] at hq
  exact of_decide_eq_true (List.mem_filter.mp hq).2

/-- A false positive is a pixel of the color that is not enclosed. -/
lemma mem_falsePositives (htable : a.table = some table) {q : Point} :
    q ∈ a.falsePositives methods query frame f ↔
      q ∈ colored query table f ∧ ¬ a.Enclosed methods query frame q := by
  rw [falsePositives, htable]
  dsimp only
  rw [List.mem_filter, LogImage.mem_pixels, decide_eq_true_iff, any_iff_enclosed, ← and_assoc]
  rfl

/-- No pixel is a false positive twice. -/
lemma nodup_falsePositives : (a.falsePositives methods query frame f).Nodup := by
  rw [falsePositives]
  cases a.table with
  | none => exact List.nodup_nil
  | some table => exact (Point.nodup_box _ _ _ _).filter _

/-- **A frame is right exactly if it can be counted.** -/
lemma frameRight_iff (htable : a.table = some table) (hagree : a.Agree methods) :
    a.FrameRight methods query table frame f ↔ a.FrameCountable methods query table frame f := by
  constructor
  · intro h
    refine ⟨fun v hv hcolor hframe q hq hx hy => ?_, fun q hq => ?_⟩
    · have hlookup : q ∈ a.lookups methods query frame f := by
        refine List.mem_flatMap.mpr ⟨v, mem_present.mpr ⟨hv, hcolor, hframe⟩, ?_⟩
        exact List.mem_filter.mpr ⟨hq, decide_eq_true (by omega)⟩
      obtain ⟨hleft, -, habove, -⟩ := h.inside q (List.mem_append_right _ hlookup)
      exact ⟨hleft, habove⟩
    · have honce := h.once q hq
      rw [List.count_append, count_truePositives htable hq] at honce
      omega
  · intro h
    refine ⟨fun q hq => ?_, fun q hq => ?_, fun q hq => ?_⟩
    · have hcount := h.disjoint q hq
      rw [List.count_append, count_truePositives htable hq]
      by_cases henclosed : a.Enclosed methods query frame q
      · have hpos := List.count_pos_iff.mpr (hagree.enclosed_iff.mp henclosed)
        have hzero : (a.falsePositives methods query frame f).count q = 0 :=
          List.count_eq_zero.mpr fun hmem => ((mem_falsePositives htable).mp hmem).2 henclosed
        omega
      · have hmem := (mem_falsePositives htable).mpr ⟨hq, henclosed⟩
        rw [List.count_eq_zero.mpr fun hlisted => henclosed (hagree.enclosed_iff.mpr hlisted),
          List.count_eq_one_of_mem nodup_falsePositives hmem]
    · rw [← List.count_pos_iff, count_truePositives htable hq, List.count_pos_iff,
        hagree.enclosed_iff]
    · rcases List.mem_append.mp hq with hpixel | hlookup
      · exact LogImage.mem_pixels.mp hpixel
      · obtain ⟨v, hv, hlisted⟩ := List.mem_flatMap.mp hlookup
        obtain ⟨hmem, hrange⟩ := List.mem_filter.mp hlisted
        obtain ⟨hann, hcolor, hframe⟩ := mem_present.mp hv
        have hrange := of_decide_eq_true hrange
        have hnonneg := h.nonneg v hann hcolor hframe q hmem (by omega) (by omega)
        unfold LogImage.Contains
        omega

/-! ## All frames -/

/-- **The total is the concatenation exactly if** the images and the points of each can be counted.
-/
lemma exists_total_iff (points : ℕ → LogImage → List Point) :
    (∃ passes, a.total points passes =
        .ok (a.images.zipIdx.flatMap fun image => points image.2 image.1)) ↔
      a.images.length < 2 ^ 16 ∧
        ∀ image ∈ a.images.zipIdx, (points image.2 image.1).length < 2 ^ 16 := by
  unfold total
  rw [exists_forEach_append_iff, List.length_zipIdx, flatMap_counted_eq_iff_forall]

/-- The true positives of a frame that can be counted are the pixels that are enclosed. -/
lemma length_truePositives (htable : a.table = some table) (hagree : a.Agree methods)
    (h : a.FrameCountable methods query table frame f) :
    (a.truePositives methods query frame f).length =
      {q ∈ colored query table f | a.Enclosed methods query frame q}.ncard := by
  have hright := (frameRight_iff htable hagree).mpr h
  have hcolored : ∀ q ∈ a.truePositives methods query frame f, q ∈ colored query table f := by
    intro q hq
    have hcolor := colorAt_of_mem_truePositives htable hq
    rw [truePositives, htable] at hq
    exact ⟨hright.inside q (List.mem_append_right _ (List.mem_of_mem_filter hq)), hcolor⟩
  refine length_eq_ncard (List.nodup_iff_count_le_one.mpr fun q => ?_) fun q => ?_
  · by_cases hq : q ∈ a.truePositives methods query frame f
    · rw [count_truePositives htable (hcolored q hq)]
      exact h.disjoint q (hcolored q hq)
    · rw [List.count_eq_zero.mpr hq]
      exact Nat.zero_le 1
  · constructor
    · exact fun hq => ⟨hcolored q hq, (hright.enclosed q (hcolored q hq)).mp hq⟩
    · rintro ⟨hq, henclosed⟩
      exact (hright.enclosed q hq).mpr henclosed

/-- The false positives are the pixels that are not. -/
lemma length_falsePositives (htable : a.table = some table) :
    (a.falsePositives methods query frame f).length =
      {q ∈ colored query table f | ¬ a.Enclosed methods query frame q}.ncard :=
  length_eq_ncard nodup_falsePositives fun _ => mem_falsePositives htable

/-- **Statistics count each pixel once exactly if** no annotation of the color encloses a point to
the left of an image or above it, no pixel of the color is enclosed twice, and the images and, in
each, the pixels of the color that are enclosed and those that are not are fewer than `2 ^ 16`. -/
theorem countsOnce_iff (htable : a.table = some table) (hagree : a.Agree methods) :
    a.CountsOnce methods query table ↔ a.Countable methods query table := by
  have htrue : (∃ passes, a.allTruePositives methods query passes = .ok (a.images.zipIdx.flatMap
      fun image => a.truePositives methods query image.2 image.1)) ↔ a.images.length < 2 ^ 16 ∧
        ∀ image ∈ a.images.zipIdx,
          (a.truePositives methods query image.2 image.1).length < 2 ^ 16 := by
    unfold allTruePositives
    rw [htable]
    exact exists_total_iff fun frame f => a.truePositives methods query frame f
  have hfalse : (∃ passes, a.allFalsePositives methods query passes = .ok (a.images.zipIdx.flatMap
      fun image => a.falsePositives methods query image.2 image.1)) ↔ a.images.length < 2 ^ 16 ∧
        ∀ image ∈ a.images.zipIdx,
          (a.falsePositives methods query image.2 image.1).length < 2 ^ 16 := by
    unfold allFalsePositives
    rw [htable]
    exact exists_total_iff fun frame f => a.falsePositives methods query frame f
  constructor
  · intro h
    have hframe := fun image himage => (frameRight_iff htable hagree).mp (h.frame image himage)
    obtain ⟨himages, htruePositives⟩ := htrue.mp h.allTruePositives
    obtain ⟨-, hfalsePositives⟩ := hfalse.mp h.allFalsePositives
    refine ⟨hframe, himages, fun image himage => ?_, fun image himage => ?_⟩
    · rw [← length_truePositives htable hagree (hframe image himage)]
      exact htruePositives image himage
    · rw [← length_falsePositives htable]
      exact hfalsePositives image himage
  · intro h
    refine ⟨fun image himage => (frameRight_iff htable hagree).mpr (h.frame image himage),
      htrue.mpr ⟨h.images, fun image himage => ?_⟩, hfalse.mpr ⟨h.images, fun image himage => ?_⟩⟩
    · rw [length_truePositives htable hagree (h.frame image himage)]
      exact h.enclosed image himage
    · rw [length_falsePositives htable]
      exact h.free image himage

/-- An image of two by two orange pixels, and one annotation. -/
def orangeLog (selections : List Selection) : AnnotationAnalyzer where
  annotations := [⟨⟨selections, ∅⟩, "ball", 0, 0, .c_ORANGE, .top, false⟩]
  images := [⟨fun _ => 0, 2, 2⟩]
  table := some fun _ => 3

/-- Its questions agree with its lists if selections enclose their centers only. -/
lemma agree_orangeLog (selections : List Selection) :
    (orangeLog selections).Agree VisionAnnotation.centerMethods := by
  intro v hv q frame
  obtain rfl := List.mem_singleton.mp hv
  refine VisionAnnotation.enclosesPoint_iff (fun s _ => VisionAnnotation.agrees_centerMethods s)
    (fun s _ => ?_) q
  exact (by decide : 1 < 2 ^ 16)

/-- One selection of one pixel. -/
theorem countsOnce_orangeLog :
    (orangeLog [⟨1, .rectangle ⟨0, 0⟩ ⟨1, 1⟩, ∅⟩]).CountsOnce VisionAnnotation.centerMethods
      .c_ORANGE fun _ => 3 := by
  have hagree := agree_orangeLog [⟨1, .rectangle ⟨0, 0⟩ ⟨1, 1⟩, ∅⟩]
  have hframe : ( orangeLog [⟨1, .rectangle ⟨0, 0⟩ ⟨1, 1⟩, ∅⟩]).FrameCountable
      VisionAnnotation.centerMethods .c_ORANGE (fun _ => 3) 0 ⟨fun _ => 0, 2, 2⟩ := by
    refine ⟨by decide, fun q _ => ?_⟩
    exact List.nodup_iff_count_le_one.mp (by decide) q
  refine (countsOnce_iff rfl hagree).mpr ⟨?_, by decide, ?_, ?_⟩
  · intro image himage
    obtain rfl := List.mem_singleton.mp himage
    exact hframe
  · intro image himage
    obtain rfl := List.mem_singleton.mp himage
    rw [← length_truePositives rfl hagree hframe]
    decide
  · intro image himage
    obtain rfl := List.mem_singleton.mp himage
    rw [← length_falsePositives rfl]
    decide

/-- A pixel in two selections is a true positive twice. -/
theorem not_countsOnce :
    ¬ ∀ (methods : SelectionMethods) (query : Color) (table : ColorTable) (a : AnnotationAnalyzer),
      a.table = some table → a.Agree methods → a.CountsOnce methods query table := by
  intro h
  have hright := (h VisionAnnotation.centerMethods .c_ORANGE (fun _ => 3)
    (orangeLog [⟨1, .rectangle ⟨0, 0⟩ ⟨1, 1⟩, ∅⟩, ⟨2, .ellipse 0 0 1 1, ∅⟩]) rfl
    (agree_orangeLog _)).frame (⟨fun _ => 0, 2, 2⟩, 0) List.mem_cons_self
  have honce := hright.once ⟨0, 0⟩ ⟨⟨by decide, by decide, by decide, by decide⟩, rfl⟩
  exact absurd honce (by decide)

end AnnotationAnalyzer

end NaoSoccer
