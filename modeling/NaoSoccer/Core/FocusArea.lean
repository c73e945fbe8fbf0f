import NaoSoccer.Foundation.GreedyMerge
import NaoSoccer.Foundation.SpacedStops
import Mathlib.Algebra.Order.Ring.Int
import Mathlib.Data.List.Enum
import Mathlib.Data.List.Nodup

/-!
# Merging focus areas

`FocusArea::mergeVertical` sorts areas into 160 columns of the image by their centers.  Around every
column that holds more than `minCount` areas, it merges the areas of the columns up to three to the
left and to the right, and goes on behind the columns to the right.

The columns to the left of the next such column may be columns that have already been merged, and the
first column of the image is never among them.

The functions that merge are written for any kind of boxes, so that a box can carry along the areas
that it has been merged from (`Traced`).
-/

namespace NaoSoccer

/-- `FocusArea` -/
@[ext] structure FocusArea where
  x1 : ℤ
  y1 : ℤ
  x2 : ℤ
  y2 : ℤ
  width : ℤ
  height : ℤ
  cx : ℤ
  cy : ℤ
  area : ℤ

namespace FocusArea

/-- `FocusArea::init` -/
def init (a : FocusArea) : FocusArea :=
  let a := { a with width := a.x2 - a.x1 }
  let a := { a with cx := a.x1 + a.width.tdiv 2 }
  let a := { a with height := a.y2 - a.y1 }
  let a := { a with cy := a.y1 + a.height.tdiv 2 }
  { a with area := a.width * a.height }

/-- The constructor of `FocusArea`. -/
def create (x1 y1 x2 y2 : ℤ) : FocusArea := init ⟨x1, y1, x2, y2, 0, 0, 0, 0, 0⟩

/-- One direction of `FocusArea::distance`. -/
def distanceAlong (p1 p2 q1 q2 : ℤ) : ℤ :=
  if p1 > q1 ∧ p1 < q2 then 0
  else if q1 > p1 ∧ q1 < p2 then 0
  else min (if p1 > q1 then p1 - q1 else q1 - p1) (if p2 > q2 then p2 - q2 else q2 - p2)

/-- `FocusArea::distance` -/
def distance (a other : FocusArea) : ℤ :=
  let xdist := distanceAlong a.x1 a.x2 other.x1 other.x2
  let ydist := distanceAlong a.y1 a.y2 other.y1 other.y2
  xdist + ydist

/-- `FocusArea::merge` of two areas -/
def merge (a other : FocusArea) : FocusArea :=
  init { a with
    x1 := min a.x1 other.x1
    y1 := min a.y1 other.y1
    x2 := max a.x2 other.x2
    y2 := max a.y2 other.y2 }

/-- `FocusArea::MergePredicate` -/
abbrev MergePredicate := FocusArea → FocusArea → Bool

/-- `FocusArea::verticalMergePredicate` -/
def verticalMergePredicate : MergePredicate := fun left right => left.distance right < 100

/-- The other area lies in this one. -/
def Contains (box other : FocusArea) : Prop :=
  box.x1 ≤ other.x1 ∧ box.y1 ≤ other.y1 ∧ other.x2 ≤ box.x2 ∧ other.y2 ≤ box.y2

/-! ## Merging boxes of any kind -/

/-- `binCount` -/
def binCount : ℕ := 160

/-- `width` in `mergeVertical` -/
def windowWidth : ℕ := 3

/-- `minCount` -/
def minCount : ℕ := 10

/-- The bin of an area in an image of this width. -/
def column (imageWidth : ℤ) (a : FocusArea) : ℤ := a.cx.tdiv (imageWidth.tdiv binCount)

/-- What the inner loop over `j` visits, from `std::max(1, i - width)` to
`std::min(binCount - 1, i + width)`. -/
def columnsAround (i : ℕ) : List ℕ :=
  List.range' (max 1 (i - windowWidth))
    (min (binCount - 1) (i + windowWidth) + 1 - max 1 (i - windowWidth))

section Kind

variable {A : Type*} (view : A → FocusArea) (join : A → A → A) (imageWidth : ℤ)

/-- What is merged by the loops of `FocusArea::merge`, and when they break. -/
def mergeRule (predicate : MergePredicate) : GreedyMerge.Rule A where
  join := join
  close left right := predicate (view left) (view right)
  full m := (view m).area > 200 * 200

/-- `FocusArea::merge` of a vector -/
def mergeAll (predicate : MergePredicate) (areas : List A) : List A :=
  if areas.length > 200 ∨ areas.length = 0 then areas
  else GreedyMerge.merge (mergeRule view join predicate) areas
    (List.replicate areas.length false)

/-- The loop that sorts the areas into bins.  A bin that does not exist is `none`. -/
def fillBins : List A → List (List A) → Option (List (List A))
  | [], bins => some bins
  | area :: areas, bins =>
    let n := column imageWidth (view area)
    if imageWidth.tdiv binCount ≠ 0 ∧ 0 ≤ n ∧ n < binCount then
      fillBins areas (bins.modify n.toNat fun bin => bin ++ [area])
    else none

/-- The areas of the bins around a dense one. -/
def window (bins : List (List A)) (i : ℕ) : List A :=
  (columnsAround i).flatMap fun j => bins.getD j []

/-- The loop over the bins. -/
def verticalLoop (bins : List (List A)) (i : ℕ) : List A :=
  if i < binCount then
    if (bins.getD i []).length > minCount then
      mergeAll view join verticalMergePredicate (window bins i) ++
        verticalLoop bins (i + windowWidth + 1)
    else verticalLoop bins (i + 1)
  else []
termination_by binCount - i

/-- `FocusArea::mergeVertical` for boxes of this kind -/
def mergeVerticalOf (areas : List A) : Option (List A) :=
  (fillBins view imageWidth areas (List.replicate binCount [])).map fun bins =>
    verticalLoop view join bins 0

end Kind

/-- `FocusArea::mergeVertical` -/
def mergeVertical (areas : List FocusArea) (imageWidth : ℤ) : Option (List FocusArea) :=
  mergeVerticalOf id merge imageWidth areas

/-! ## Where the loops go -/

section Kind

variable {A : Type*} (view : A → FocusArea) (join : A → A → A) (imageWidth : ℤ)

/-- The areas of one bin. -/
def bin (areas : List A) (j : ℕ) : List A :=
  areas.filter fun a => column imageWidth (view a) = j

/-- A bin that holds more than `minCount` areas. -/
def isDense (areas : List A) (j : ℕ) : Bool :=
  (bin view imageWidth areas j).length > minCount

variable {view join imageWidth}

/-- One more area goes to its bin. -/
lemma bin_concat (done : List A) (a : A) (j : ℕ) :
    bin view imageWidth (done ++ [a]) j =
      bin view imageWidth done j ++ if column imageWidth (view a) = j then [a] else [] := by
  unfold bin
  rw [List.filter_append]
  by_cases h : column imageWidth (view a) = j <;> simp [h]

/-- The bins are filled in the order of the areas. -/
lemma fillBins_eq (hsize : imageWidth.tdiv binCount ≠ 0) (done : List A) {areas : List A}
    (hareas : ∀ a ∈ areas, 0 ≤ column imageWidth (view a) ∧
      column imageWidth (view a) < binCount) :
    fillBins view imageWidth areas ((List.range binCount).map (bin view imageWidth done)) =
      some ((List.range binCount).map (bin view imageWidth (done ++ areas))) := by
  induction areas generalizing done with
  | nil => rw [fillBins, List.append_nil]
  | cons a areas ih =>
    obtain ⟨hlow, hhigh⟩ := hareas a List.mem_cons_self
    have hrest := ih (done ++ [a]) fun b hb => hareas b (List.mem_cons_of_mem a hb)
    have hbins : ((List.range binCount).map (bin view imageWidth done)).modify
        (column imageWidth (view a)).toNat (fun bin => bin ++ [a]) =
          (List.range binCount).map (bin view imageWidth (done ++ [a])) := by
      refine List.ext_getElem? fun j => ?_
      rw [List.getElem?_modify, List.getElem?_map, List.getElem?_map]
      cases hj : (List.range binCount)[j]? with
      | none => rfl
      | some k =>
        obtain ⟨-, rfl⟩ := List.getElem?_eq_some_iff.mp hj
        rw [List.getElem_range, Option.map_some, Option.map_some, bin_concat]
        by_cases heq : column imageWidth (view a) = j
        · rw [if_pos heq]
          exact congrArg some (if_pos (by omega))
        · rw [if_neg heq, List.append_nil]
          exact congrArg some (if_neg (by omega))
    rw [fillBins, if_pos ⟨hsize, hlow, hhigh⟩, hbins, hrest, List.append_assoc]
    rfl

/-- Where the bins stand. -/
lemma getD_bins {areas : List A} (hareas : ∀ a ∈ areas,
    column imageWidth (view a) < binCount) (j : ℕ) :
    ((List.range binCount).map (bin view imageWidth areas)).getD j [] =
      bin view imageWidth areas j := by
  rw [List.getD_eq_getElem?_getD, List.getElem?_map]
  rcases Nat.lt_or_ge j binCount with hlt | hge
  · rw [List.getElem?_range hlt]
    rfl
  · have hempty : bin view imageWidth areas j = [] := by
      refine List.filter_eq_nil_iff.mpr fun a ha => ?_
      have hcolumn := hareas a ha
      rw [decide_eq_true_eq]
      omega
    rw [List.getElem?_eq_none (by simpa using hge), hempty]
    rfl

/-- The loop over the bins stops at dense ones. -/
lemma verticalLoop_eq (bins : List (List A)) (i : ℕ) :
    verticalLoop view join bins i =
      (SpacedStops.stops (fun j => (bins.getD j []).length > minCount) windowWidth binCount
        i).flatMap fun s => mergeAll view join verticalMergePredicate (window bins s) := by
  induction i using verticalLoop.induct bins with
  | case1 i hi hdense ih =>
    rw [verticalLoop, if_pos hi, if_pos hdense, ih,
      SpacedStops.stops_of_chosen hi (decide_eq_true hdense), List.flatMap_cons]
  | case2 i hi hsparse ih =>
    rw [verticalLoop, if_pos hi, if_neg hsparse, ih,
      SpacedStops.stops_of_not_chosen hi (by simpa using hsparse)]
  | case3 i hi =>
    rw [verticalLoop, if_neg hi, SpacedStops.stops_of_le hi, List.flatMap_nil]

variable (view imageWidth) in
/-- The areas around a column. -/
def around (areas : List A) (s : ℕ) : List A :=
  (columnsAround s).flatMap (bin view imageWidth areas)

variable (view imageWidth) in
/-- The columns at which `mergeVertical` merges. -/
def stops (areas : List A) : List ℕ :=
  SpacedStops.stops (isDense view imageWidth areas) windowWidth binCount 0

/-- **What `mergeVertical` does**: it merges the areas around each stop. -/
lemma mergeVerticalOf_eq (hsize : imageWidth.tdiv binCount ≠ 0) {areas : List A}
    (hareas : ∀ a ∈ areas, 0 ≤ column imageWidth (view a) ∧
      column imageWidth (view a) < binCount) :
    mergeVerticalOf view join imageWidth areas =
      some ((stops view imageWidth areas).flatMap fun s =>
        mergeAll view join verticalMergePredicate (around view imageWidth areas s)) := by
  have hempty : List.replicate binCount ([] : List A) =
      (List.range binCount).map (bin view imageWidth []) := by
    show _ = (List.range binCount).map fun _ => []
    rw [List.map_const', List.length_range]
  have hbins := getD_bins fun a ha => (hareas a ha).2
  rw [mergeVerticalOf, hempty, fillBins_eq hsize [] hareas, List.nil_append, Option.map_some,
    verticalLoop_eq]
  unfold stops isDense around window
  simp only [hbins]

end Kind

/-! ## Boxes that know what they have been merged from -/

/-- A box with the places in the input of the areas that have been merged into it. -/
structure Traced where
  area : FocusArea
  members : List ℕ

/-- Merging two boxes. -/
def Traced.join (a other : Traced) : Traced :=
  ⟨a.area.merge other.area, a.members ++ other.members⟩

/-- An area of the input. -/
def Traced.ofInput (entry : FocusArea × ℕ) : Traced := ⟨entry.1, [entry.2]⟩

/-- The areas of the input, each of them merged from itself. -/
def traced (areas : List FocusArea) : List Traced := areas.zipIdx.map Traced.ofInput

/-- The boxes that `mergeVertical` returns, with the areas that have been merged into them. -/
def mergeVerticalTraced (areas : List FocusArea) (imageWidth : ℤ) : Option (List Traced) :=
  mergeVerticalOf Traced.area Traced.join imageWidth (traced areas)

variable {imageWidth : ℤ} {areas : List FocusArea}

/-- The image is cut into columns, and the centers of the areas lie in it. -/
structure InColumns (areas : List FocusArea) (imageWidth : ℤ) : Prop where
  size : imageWidth.tdiv binCount ≠ 0
  column : ∀ a ∈ areas, 0 ≤ column imageWidth a ∧ column imageWidth a < binCount

/-- Centers inside of an image whose width is a multiple of the number of bins. -/
lemma inColumns_of_center (hpos : 0 < imageWidth) (hwidth : (binCount : ℤ) ∣ imageWidth)
    (hcenter : ∀ a ∈ areas, 0 ≤ a.cx ∧ a.cx < imageWidth) : InColumns areas imageWidth := by
  obtain ⟨binSize, rfl⟩ := hwidth
  have hcount : (0 : ℤ) < binCount := by decide
  have hsize : 0 < binSize := (mul_pos_iff_of_pos_left hcount).mp hpos
  have hdiv : ((binCount : ℤ) * binSize).tdiv binCount = binSize :=
    Int.mul_tdiv_cancel_left binSize hcount.ne'
  refine ⟨by rw [hdiv]; exact hsize.ne', fun a ha => ?_⟩
  obtain ⟨hlow, hhigh⟩ := hcenter a ha
  rw [FocusArea.column, hdiv, Int.tdiv_eq_ediv_of_nonneg hlow]
  exact ⟨Int.ediv_nonneg hlow hsize.le, Int.ediv_lt_of_lt_mul hsize hhigh⟩

/-- Without their traces, the boxes are those that are returned. -/
lemma mergeAll_traced (l : List Traced) :
    (mergeAll Traced.area Traced.join verticalMergePredicate l).map Traced.area =
      mergeAll id merge verticalMergePredicate (l.map Traced.area) := by
  unfold mergeAll
  rw [List.length_map]
  split
  · rfl
  · have hmap : GreedyMerge.merge (mergeRule id merge verticalMergePredicate)
        (l.map Traced.area) (List.replicate l.length false) =
          (GreedyMerge.merge (mergeRule Traced.area Traced.join verticalMergePredicate) l
            (List.replicate l.length false)).map Traced.area :=
      GreedyMerge.merge_map Traced.area (fun _ _ => rfl) (fun _ _ => rfl) (fun _ => rfl) _ _
    exact hmap.symm

/-- Merging loses nothing and doubles nothing. -/
lemma mergeAll_members (l : List Traced) :
    ((mergeAll Traced.area Traced.join verticalMergePredicate l).flatMap Traced.members).Perm
      (l.flatMap Traced.members) := by
  unfold mergeAll
  split
  · exact List.Perm.refl _
  · have hjoin : ∀ a b, ((mergeRule Traced.area Traced.join verticalMergePredicate).join a b).members =
        a.members ++ b.members := fun _ _ => rfl
    have hperm := GreedyMerge.flatMap_merge_perm Traced.members hjoin l
      (List.replicate l.length false)
    rwa [GreedyMerge.unmerged_replicate] at hperm

/-- A box contains the areas that have been merged into it. -/
def Traced.Encloses (areas : List FocusArea) (box : Traced) : Prop :=
  ∀ i ∈ box.members, ∃ a, areas[i]? = some a ∧ box.area.Contains a

/-- So does a box merged from two. -/
lemma Traced.Encloses.join {box other : Traced} (h : box.Encloses areas)
    (hother : other.Encloses areas) : (box.join other).Encloses areas := by
  intro i hi
  rcases List.mem_append.mp hi with hleft | hright
  · obtain ⟨a, ha, hx1, hy1, hx2, hy2⟩ := h i hleft
    exact ⟨a, ha, (min_le_left _ _).trans hx1, (min_le_left _ _).trans hy1,
      hx2.trans (le_max_left _ _), hy2.trans (le_max_left _ _)⟩
  · obtain ⟨a, ha, hx1, hy1, hx2, hy2⟩ := hother i hright
    exact ⟨a, ha, (min_le_right _ _).trans hx1, (min_le_right _ _).trans hy1,
      hx2.trans (le_max_right _ _), hy2.trans (le_max_right _ _)⟩

/-- An area of the input contains itself. -/
lemma encloses_traced {t : Traced} (h : t ∈ traced areas) : t.Encloses areas := by
  obtain ⟨⟨a, k⟩, hentry, rfl⟩ := List.mem_map.mp h
  intro i hi
  cases List.mem_singleton.mp hi
  exact ⟨a, List.mem_zipIdx_iff_getElem?.mp hentry, le_refl _, le_refl _, le_refl _, le_refl _⟩

/-- **Every merged box contains what it has been merged from.** -/
lemma mergeAll_encloses {l : List Traced} (h : ∀ t ∈ l, t.Encloses areas) :
    ∀ box ∈ mergeAll Traced.area Traced.join verticalMergePredicate l, box.Encloses areas := by
  unfold mergeAll
  split
  · exact h
  · exact GreedyMerge.merge_invariant (fun _ _ => Traced.Encloses.join) h _

/-! ## Which areas are merged -/

/-- The places of the areas of one bin. -/
def binMembers (areas : List FocusArea) (imageWidth : ℤ) (j : ℕ) : List ℕ :=
  (areas.zipIdx.filter fun entry => column imageWidth entry.1 = j).map Prod.snd

/-- The places of the areas around a column. -/
def membersAround (areas : List FocusArea) (imageWidth : ℤ) (s : ℕ) : List ℕ :=
  (columnsAround s).flatMap (binMembers areas imageWidth)

/-- The traced areas of a bin. -/
lemma bin_traced (j : ℕ) :
    bin Traced.area imageWidth (traced areas) j =
      (areas.zipIdx.filter fun entry => column imageWidth entry.1 = j).map Traced.ofInput := by
  rw [bin, traced, List.filter_map]
  rfl

/-- Their places. -/
lemma flatMap_around (s : ℕ) :
    (around Traced.area imageWidth (traced areas) s).flatMap Traced.members =
      membersAround areas imageWidth s := by
  have hbin : ∀ j, (bin Traced.area imageWidth (traced areas) j).flatMap Traced.members =
      binMembers areas imageWidth j := by
    intro j
    rw [bin_traced, List.flatMap_map]
    exact List.map_eq_flatMap.symm
  rw [around, List.flatMap_assoc, membersAround]
  simp only [hbin]

/-- The bins of the traced areas are as dense as those of the areas. -/
lemma isDense_traced :
    isDense Traced.area imageWidth (traced areas) = isDense id imageWidth areas := by
  funext j
  have hareas : bin id imageWidth areas j =
      (areas.zipIdx.filter fun entry => column imageWidth entry.1 = j).map Prod.fst := by
    conv_lhs => rw [← List.zipIdx_map_fst 0 areas]
    rw [bin, List.filter_map]
    rfl
  rw [isDense, isDense, bin_traced, hareas, List.length_map, List.length_map]

/-- The columns around a stop. -/
lemma mem_columnsAround {s c : ℕ} :
    c ∈ columnsAround s ↔ 1 ≤ c ∧ c < binCount ∧ c ≤ s + windowWidth ∧ s ≤ c + windowWidth := by
  rw [columnsAround, List.mem_range'_1]
  unfold binCount windowWidth
  omega

/-- The area at a place is around a column if its own column is. -/
lemma mem_membersAround {s i : ℕ} :
    i ∈ membersAround areas imageWidth s ↔ ∃ a, areas[i]? = some a ∧
      ∃ c ∈ columnsAround s, column imageWidth a = c := by
  unfold membersAround binMembers
  simp only [List.mem_flatMap, List.mem_map, List.mem_filter, decide_eq_true_eq]
  constructor
  · rintro ⟨c, hc, ⟨a, k⟩, ⟨hentry, hcolumn⟩, rfl⟩
    exact ⟨a, List.mem_zipIdx_iff_getElem?.mp hentry, c, hc, hcolumn⟩
  · rintro ⟨a, ha, c, hc, hcolumn⟩
    exact ⟨c, hc, (a, i), ⟨List.mem_zipIdx_iff_getElem?.mpr ha, hcolumn⟩, rfl⟩

/-- No area is around a column twice. -/
lemma nodup_membersAround (s : ℕ) : (membersAround areas imageWidth s).Nodup := by
  have hplaces : (areas.zipIdx.map Prod.snd).Nodup := by
    rw [List.zipIdx_map_snd]
    exact List.nodup_range'
  refine List.nodup_flatMap.mpr ⟨fun j _ => ?_, ?_⟩
  · exact hplaces.sublist (List.filter_sublist.map Prod.snd)
  · refine List.Nodup.pairwise_of_forall_ne List.nodup_range' fun j _ k _ hne => ?_
    refine List.disjoint_left.mpr fun i hj hk => hne ?_
    obtain ⟨⟨a, p⟩, hleft, rfl⟩ := List.mem_map.mp hj
    obtain ⟨⟨b, q⟩, hright, hplace⟩ := List.mem_map.mp hk
    obtain ⟨hentry, hcolumn⟩ := List.mem_filter.mp hleft
    obtain ⟨hentry', hcolumn'⟩ := List.mem_filter.mp hright
    have ha := List.mem_zipIdx_iff_getElem?.mp hentry
    have hb := List.mem_zipIdx_iff_getElem?.mp hentry'
    have hsame : b = a := by
      dsimp only at hplace ha hb
      rw [hplace, ha] at hb
      exact (Option.some_inj.mp hb).symm
    subst hsame
    rw [decide_eq_true_eq] at hcolumn hcolumn'
    exact_mod_cast hcolumn.symm.trans hcolumn'

/-! ## Nothing lost and nothing duplicated -/

/-- The area at place `i` of the input is merged into the box at place `k` of the result. -/
def MergedInto (areas : List FocusArea) (imageWidth : ℤ) (i k : ℕ) : Prop :=
  ∃ boxes box, mergeVerticalTraced areas imageWidth = some boxes ∧ boxes[k]? = some box ∧
    i ∈ box.members

/-- **Merging loses and duplicates nothing.** -/
structure MergesOnce (areas : List FocusArea) (imageWidth : ℤ) : Prop where
  /-- An area whose bin holds more than `minCount` areas is merged into one box. -/
  dense : ∀ i a, areas[i]? = some a →
    isDense id imageWidth areas (column imageWidth a).toNat = true →
      ∃! k, MergedInto areas imageWidth i k
  /-- A returned box contains the areas that are merged into it. -/
  contained : ∀ i k, MergedInto areas imageWidth i k → ∃ a boxes box, areas[i]? = some a ∧
    mergeVertical areas imageWidth = some boxes ∧ boxes[k]? = some box ∧ box.Contains a
  /-- No area is merged into two boxes. -/
  once : ∀ i k k', MergedInto areas imageWidth i k → MergedInto areas imageWidth i k' → k = k'

/-- A dense column none of whose three predecessors is one. -/
def IsStop (areas : List FocusArea) (imageWidth : ℤ) (s : ℕ) : Prop :=
  SpacedStops.IsStop (isDense id imageWidth areas) windowWidth s

/-- A column, but not the first one, at most three to the left or to the right of a stop. -/
def Reaches (s : ℕ) (c : ℤ) : Prop := 1 ≤ c ∧ c ≤ s + windowWidth ∧ s ≤ c + windowWidth

instance (s : ℕ) (c : ℤ) : Decidable (Reaches s c) := inferInstanceAs (Decidable (_ ∧ _))

/-- The first column is not dense, and no area lies in the reach of two stops. -/
structure StopsApart (areas : List FocusArea) (imageWidth : ℤ) : Prop where
  first : isDense id imageWidth areas 0 = false
  apart : ∀ a ∈ areas, ∀ s s', IsStop areas imageWidth s → IsStop areas imageWidth s' →
    Reaches s (column imageWidth a) → Reaches s' (column imageWidth a) → s = s'

/-- The traced boxes. -/
def boxes (areas : List FocusArea) (imageWidth : ℤ) : List Traced :=
  (stops id imageWidth areas).flatMap fun s =>
    mergeAll Traced.area Traced.join verticalMergePredicate
      (around Traced.area imageWidth (traced areas) s)

/-- Every traced area stands for an area of the input. -/
lemma exists_of_mem_traced {t : Traced} (h : t ∈ traced areas) :
    ∃ i, areas[i]? = some t.area ∧ t = ⟨t.area, [i]⟩ := by
  obtain ⟨⟨a, i⟩, hentry, rfl⟩ := List.mem_map.mp h
  exact ⟨i, List.mem_zipIdx_iff_getElem?.mp hentry, rfl⟩

/-- The traced result. -/
lemma mergeVerticalTraced_eq (h : InColumns areas imageWidth) :
    mergeVerticalTraced areas imageWidth = some (boxes areas imageWidth) := by
  have hcolumn : ∀ t ∈ traced areas, 0 ≤ column imageWidth t.area ∧
      column imageWidth t.area < binCount := by
    intro t ht
    obtain ⟨i, ha, -⟩ := exists_of_mem_traced ht
    exact h.column t.area (List.mem_of_getElem? ha)
  rw [mergeVerticalTraced, mergeVerticalOf_eq h.size hcolumn, stops, isDense_traced]
  rfl

/-- **The traced boxes are those that `mergeVertical` returns.** -/
lemma mergeVertical_eq (h : InColumns areas imageWidth) :
    mergeVertical areas imageWidth = some ((boxes areas imageWidth).map Traced.area) := by
  have haround : ∀ s, around id imageWidth areas s =
      (around Traced.area imageWidth (traced areas) s).map Traced.area := by
    intro s
    rw [around, around, List.map_flatMap]
    congr 1
    funext j
    rw [bin_traced, List.map_map, bin]
    conv_lhs => rw [← List.zipIdx_map_fst 0 areas]
    rw [List.filter_map]
    rfl
  have hcolumn : ∀ a ∈ areas, 0 ≤ column imageWidth (id a) ∧
      column imageWidth (id a) < binCount := h.column
  rw [mergeVertical, mergeVerticalOf_eq h.size hcolumn, boxes, List.map_flatMap]
  simp only [mergeAll_traced, haround]

/-- The result in terms of the boxes. -/
lemma mergedInto_iff (h : InColumns areas imageWidth) {i k : ℕ} :
    MergedInto areas imageWidth i k ↔
      ∃ box, (boxes areas imageWidth)[k]? = some box ∧ i ∈ box.members := by
  unfold MergedInto
  rw [mergeVerticalTraced_eq h]
  constructor
  · rintro ⟨_, box, heq, hk, hi⟩
    cases heq
    exact ⟨box, hk, hi⟩
  · rintro ⟨box, hk, hi⟩
    exact ⟨_, box, rfl, hk, hi⟩

/-- The members of all boxes are the areas around the stops. -/
lemma flatMap_boxes_perm (areas : List FocusArea) (imageWidth : ℤ) :
    ((boxes areas imageWidth).flatMap Traced.members).Perm
      ((stops id imageWidth areas).flatMap (membersAround areas imageWidth)) := by
  rw [boxes, List.flatMap_assoc]
  refine List.Perm.flatMap_left _ fun s _ => ?_
  rw [← flatMap_around]
  exact mergeAll_members _

/-- No box has an area twice. -/
lemma nodup_members {box : Traced} (h : box ∈ boxes areas imageWidth) : box.members.Nodup := by
  obtain ⟨s, -, hbox⟩ := List.mem_flatMap.mp h
  have hnodup : ((mergeAll Traced.area Traced.join verticalMergePredicate
      (around Traced.area imageWidth (traced areas) s)).flatMap Traced.members).Nodup := by
    rw [(mergeAll_members _).nodup_iff, flatMap_around]
    exact nodup_membersAround s
  exact (List.nodup_flatMap.mp hnodup).1 box hbox

/-- An area is around a stop if it is in its reach. -/
lemma mem_membersAround_iff (h : InColumns areas imageWidth) {s i : ℕ} :
    i ∈ membersAround areas imageWidth s ↔
      ∃ a, areas[i]? = some a ∧ Reaches s (column imageWidth a) := by
  rw [mem_membersAround]
  refine exists_congr fun a => and_congr_right fun ha => ?_
  obtain ⟨hlow, hhigh⟩ := h.column a (List.mem_of_getElem? ha)
  unfold Reaches
  constructor
  · rintro ⟨c, hc, hcolumn⟩
    have hreach := mem_columnsAround.mp hc
    omega
  · rintro hreach
    exact ⟨(column imageWidth a).toNat, mem_columnsAround.mpr (by omega), by omega⟩

/-- A dense column holds an area. -/
lemma exists_mem_bin {j : ℕ} (h : isDense id imageWidth areas j = true) :
    ∃ a, a ∈ bin id imageWidth areas j :=
  List.exists_mem_of_length_pos ((Nat.zero_le _).trans_lt (of_decide_eq_true h))

/-- The stops of the loop are those of the columns. -/
lemma mem_stops_iff (h : InColumns areas imageWidth) {s : ℕ} :
    s ∈ stops id imageWidth areas ↔ IsStop areas imageWidth s := by
  rw [stops, SpacedStops.mem_stops_zero]
  refine and_iff_right_of_imp fun hstop => ?_
  obtain ⟨a, ha⟩ := exists_mem_bin (SpacedStops.IsStop.chosen_eq hstop)
  obtain ⟨hmem, hcolumn⟩ := List.mem_filter.mp ha
  have hhigh := (h.column a hmem).2
  have hs : column imageWidth a = s := of_decide_eq_true hcolumn
  omega

/-- **No area is merged twice exactly if none lies in the reach of two stops.** -/
lemma once_iff (h : InColumns areas imageWidth) :
    (∀ i k k', MergedInto areas imageWidth i k → MergedInto areas imageWidth i k' → k = k') ↔
      ∀ a ∈ areas, ∀ s s', IsStop areas imageWidth s → IsStop areas imageWidth s' →
        Reaches s (column imageWidth a) → Reaches s' (column imageWidth a) → s = s' := by
  have hboxes : ((boxes areas imageWidth).flatMap Traced.members).Nodup ↔
      ∀ i k k', MergedInto areas imageWidth i k → MergedInto areas imageWidth i k' → k = k' := by
    rw [GreedyMerge.nodup_flatMap_iff Traced.members fun box hbox => nodup_members hbox]
    simp only [mergedInto_iff h]
    constructor
    · rintro hunique i k k' ⟨box, hk, hi⟩ ⟨box', hk', hi'⟩
      exact hunique i k k' box box' hk hk' hi hi'
    · intro hunique i k k' box box' hk hk' hi hi'
      exact hunique i k k' ⟨box, hk, hi⟩ ⟨box', hk', hi'⟩
  have hstops : (stops id imageWidth areas).Nodup := SpacedStops.nodup_stops 0
  rw [← hboxes, (flatMap_boxes_perm areas imageWidth).nodup_iff,
    GreedyMerge.nodup_flatMap_iff_of_nodup _ hstops fun s _ => nodup_membersAround s]
  simp only [mem_stops_iff h, mem_membersAround_iff h]
  constructor
  · intro hunique a ha s s' hs hs' hreach hreach'
    obtain ⟨i, hi⟩ := List.getElem?_of_mem ha
    exact hunique s hs s' hs' i ⟨a, hi, hreach⟩ ⟨a, hi, hreach'⟩
  · rintro hunique s hs s' hs' i ⟨a, ha, hreach⟩ ⟨a', ha', hreach'⟩
    rw [ha] at ha'
    cases ha'
    exact hunique a (List.mem_of_getElem? ha) s s' hs hs' hreach hreach'

/-- **An area is merged exactly if it lies in the reach of a stop.** -/
lemma exists_mergedInto_iff (h : InColumns areas imageWidth) {i : ℕ} {a : FocusArea}
    (ha : areas[i]? = some a) :
    (∃ k, MergedInto areas imageWidth i k) ↔
      ∃ s, IsStop areas imageWidth s ∧ Reaches s (column imageWidth a) := by
  have hmembers : (∃ k, MergedInto areas imageWidth i k) ↔
      i ∈ (boxes areas imageWidth).flatMap Traced.members := by
    simp only [mergedInto_iff h, List.mem_flatMap]
    constructor
    · rintro ⟨k, box, hk, hi⟩
      exact ⟨box, List.mem_of_getElem? hk, hi⟩
    · rintro ⟨box, hbox, hi⟩
      obtain ⟨k, hk⟩ := List.getElem?_of_mem hbox
      exact ⟨k, box, hk, hi⟩
  rw [hmembers, (flatMap_boxes_perm areas imageWidth).mem_iff, List.mem_flatMap]
  simp only [mem_stops_iff h, mem_membersAround_iff h]
  refine exists_congr fun s => and_congr_right fun _ => ?_
  constructor
  · rintro ⟨a', ha', hreach⟩
    rw [ha] at ha'
    cases ha'
    exact hreach
  · exact fun hreach => ⟨a, ha, hreach⟩

/-- Every box encloses its members. -/
lemma encloses_boxes {box : Traced} (h : box ∈ boxes areas imageWidth) : box.Encloses areas := by
  obtain ⟨s, -, hbox⟩ := List.mem_flatMap.mp h
  refine mergeAll_encloses (fun t ht => encloses_traced ?_) box hbox
  obtain ⟨j, -, hbin⟩ := List.mem_flatMap.mp ht
  exact List.mem_of_mem_filter hbin

/-- **Returned boxes always contain what is merged into them.** -/
lemma contained_of_mergedInto (h : InColumns areas imageWidth) {i k : ℕ}
    (hmerged : MergedInto areas imageWidth i k) : ∃ a boxes box, areas[i]? = some a ∧
      mergeVertical areas imageWidth = some boxes ∧ boxes[k]? = some box ∧ box.Contains a := by
  obtain ⟨box, hk, hi⟩ := (mergedInto_iff h).mp hmerged
  obtain ⟨a, ha, hcontains⟩ := encloses_boxes (List.mem_of_getElem? hk) i hi
  refine ⟨a, _, box.area, ha, mergeVertical_eq h, ?_, hcontains⟩
  rw [List.getElem?_map, hk, Option.map_some]

/-- **An area of a dense column is merged unless it is the first column.** -/
lemma exists_stop_of_isDense (h : InColumns areas imageWidth) {a : FocusArea} (ha : a ∈ areas)
    (hdense : isDense id imageWidth areas (column imageWidth a).toNat = true)
    (hfirst : column imageWidth a ≠ 0) :
    ∃ s, IsStop areas imageWidth s ∧ Reaches s (column imageWidth a) := by
  have hnear : ∃ s, IsStop areas imageWidth s ∧ s ≤ (column imageWidth a).toNat ∧
      (column imageWidth a).toNat ≤ s + windowWidth := SpacedStops.exists_stop hdense
  obtain ⟨s, hstop, hle, hreach⟩ := hnear
  have hlow := (h.column a ha).1
  refine ⟨s, hstop, ?_⟩
  unfold Reaches
  omega

/-- **Nothing is lost and nothing duplicated exactly if the first column is not dense and no area
lies in the reach of two stops.** -/
lemma mergesOnce_iff (h : InColumns areas imageWidth) :
    MergesOnce areas imageWidth ↔ StopsApart areas imageWidth := by
  constructor
  · intro hmerges
    refine ⟨?_, (once_iff h).mp hmerges.once⟩
    by_contra hfirst
    have hdense : isDense id imageWidth areas 0 = true := Bool.eq_true_of_not_eq_false hfirst
    obtain ⟨a, ha⟩ := exists_mem_bin hdense
    obtain ⟨hmem, hcolumn⟩ := List.mem_filter.mp ha
    have hzero : column imageWidth a = 0 := of_decide_eq_true hcolumn
    obtain ⟨i, hi⟩ := List.getElem?_of_mem hmem
    have hmerged := (hmerges.dense i a hi (by rw [hzero]; exact hdense)).exists
    obtain ⟨s, -, hreach⟩ := (exists_mergedInto_iff h hi).mp hmerged
    rw [hzero] at hreach
    exact absurd hreach.1 (by decide)
  · intro hapart
    have honce := (once_iff h).mpr hapart.apart
    refine ⟨fun i a hi hdense => ?_, fun i k => contained_of_mergedInto h, honce⟩
    have hfirst : column imageWidth a ≠ 0 := by
      intro hzero
      rw [hzero] at hdense
      exact absurd (hapart.first.symm.trans hdense) Bool.false_ne_true
    have hstop := exists_stop_of_isDense h (List.mem_of_getElem? hi) hdense hfirst
    obtain ⟨k, hk⟩ := (exists_mergedInto_iff h hi).mpr hstop
    exact ⟨k, hk, fun k' hk' => honce i k' k hk' hk⟩

/-- **`mergeVertical` loses and duplicates nothing exactly if the stops are apart**, for every image
whose width is a multiple of the number of bins and all areas with their centers in it. -/
theorem mergeVertical_mergesOnce_iff (areas : List FocusArea) (imageWidth : ℤ)
    (hpos : 0 < imageWidth) (hwidth : (binCount : ℤ) ∣ imageWidth)
    (hcenter : ∀ a ∈ areas, 0 ≤ a.cx ∧ a.cx < imageWidth) :
    MergesOnce areas imageWidth ↔ StopsApart areas imageWidth :=
  mergesOnce_iff (inColumns_of_center hpos hwidth hcenter)

/-- Areas in the middle of the image. -/
theorem mergeVertical_mergesOnce_middle :
    MergesOnce (List.replicate 11 (create 80 0 80 0)) 160 := by
  refine (mergeVertical_mergesOnce_iff _ 160 (by decide) (by decide) (by decide)).mpr
    ⟨by decide, ?_⟩
  have hstop : ∀ s, IsStop (List.replicate 11 (create 80 0 80 0)) 160 s → s = 80 := by
    intro s hs
    obtain ⟨a, ha⟩ := exists_mem_bin (SpacedStops.IsStop.chosen_eq hs)
    obtain ⟨hmem, hcolumn⟩ := List.mem_filter.mp ha
    rw [List.eq_of_mem_replicate hmem] at hcolumn
    have heq : (80 : ℤ) = s := of_decide_eq_true hcolumn
    omega
  intro _ _ s s' hs hs' _ _
  rw [hstop s hs, hstop s' hs']

/-- Eleven areas in the first column are lost, and the area between two dense columns that are four
apart is merged twice. -/
theorem not_mergeVertical_mergesOnce :
    ¬ MergesOnce (List.replicate 11 (create 0 0 0 0)) 160 ∧
      ¬ MergesOnce (List.replicate 11 (create 10 0 10 0) ++ create 12 0 12 0 ::
        List.replicate 11 (create 14 0 14 0)) 160 := by
  constructor
  · have h : InColumns (List.replicate 11 (create 0 0 0 0)) 160 := ⟨by decide, by decide⟩
    exact fun hmerges => absurd ((mergesOnce_iff h).mp hmerges).first (by decide)
  · have h : InColumns (List.replicate 11 (create 10 0 10 0) ++ create 12 0 12 0 ::
        List.replicate 11 (create 14 0 14 0)) 160 := ⟨by decide, by decide⟩
    intro hmerges
    have hten : IsStop (List.replicate 11 (create 10 0 10 0) ++ create 12 0 12 0 ::
        List.replicate 11 (create 14 0 14 0)) 160 10 :=
      SpacedStops.isStop_of_forall_not_chosen (by decide) (by decide)
    have hfourteen : IsStop (List.replicate 11 (create 10 0 10 0) ++ create 12 0 12 0 ::
        List.replicate 11 (create 14 0 14 0)) 160 14 :=
      SpacedStops.isStop_of_forall_not_chosen (by decide) (by decide)
    have heq := ((mergesOnce_iff h).mp hmerges).apart (create 12 0 12 0) (by simp) 10 14
      hten hfourteen (by decide) (by decide)
    exact absurd heq (by decide)

end FocusArea

end NaoSoccer
