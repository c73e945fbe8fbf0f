import NaoSoccer.Foundation.LabelledRun
import Mathlib.Data.List.AList
import Mathlib.Algebra.Ring.Int.Defs
import Mathlib.Data.Finset.Max

/-!
# Annotations that move

A `VisionAnnotation` is a list of selections, with a center point for every frame in which it has
been dragged.  Each selection keeps the offset of these frames for itself, as a copy of what the
annotation knows: the center point of the frame minus the center of all selections.
`updateSelectionOffsets` writes the copies anew.

`setCenterPoint` and `deserialize` call it.  `addSelection` and `removeSelection`, which move the
center, `remapCenterPoints`, which renames the frames, and `copy`, whose new selections have no
offsets, do not.  `Keeps` says for every operation when the offsets are right afterwards all the
same.

Coordinates and frames are integers.  The loops of the source count selections in 16 bits and do
not end for more.
-/

namespace NaoSoccer

open LabelledRun

/-! ## Selections -/

/-- `Point` -/
structure Point where
  x : ℤ
  y : ℤ
  deriving DecidableEq, Repr

namespace Point

instance : Sub Point := ⟨fun p q => ⟨p.x - q.x, p.y - q.y⟩⟩

/-- `average.x /= size` divides as unsigned integers of 64 bits and keeps the lowest 32. -/
def divSize (x : ℤ) (size : ℕ) : ℤ := (x % 2 ^ 64 / size).bmod (2 ^ 32)

/-- The average of points as the loops over vertices and selections compute it. -/
def average (points : List Point) : Point where
  x := divSize (points.map Point.x).sum points.length
  y := divSize (points.map Point.y).sum points.length

/-- Points that differ from a point by the same are the same. -/
lemma sub_right_injective (p : Point) : Function.Injective fun c : Point => p - c := by
  rintro ⟨cx, cy⟩ ⟨dx, dy⟩ h
  have hx : p.x - cx = p.x - dx := congrArg Point.x h
  have hy : p.y - cy = p.y - dy := congrArg Point.y h
  rw [mk.injEq]
  omega

end Point

/-- `std::map<int,Point>` -/
abbrev FramePoints := AList fun _ : ℤ => Point

/-- The vertices of a polygon.  Its center is not defined if there are none. -/
abbrev Vertices := { vertices : List Point // vertices ≠ [] }

/-- What the classes of selections store. -/
inductive SelectionShape
  | manual (vertices : Vertices)
  | polygon (vertices : Vertices)
  | ellipse (top left width height : ℤ)
  | rectangle (topleft bottomright : Point)
  | square (topleft bottomright : Point)
  deriving DecidableEq

/-- `getCenter` of the classes of selections. -/
def SelectionShape.getCenter : SelectionShape → Point
  | .manual vertices => Point.average vertices
  | .polygon vertices => Point.average vertices
  | .ellipse top left width height => ⟨left + width.tdiv 2, top + height.tdiv 2⟩
  | .rectangle tl br => ⟨(br.x + tl.x).tdiv 2, (br.y + tl.y).tdiv 2⟩
  | .square tl br => ⟨(br.x + tl.x).tdiv 2, (br.y + tl.y).tdiv 2⟩

/-- `Selection`, with its address. -/
structure Selection where
  address : ℕ
  shape : SelectionShape
  /-- `offsets_` -/
  offsets : FramePoints

namespace Selection

/-- `Selection::getCenter` -/
def getCenter (s : Selection) : Point := s.shape.getCenter

/-- `Selection::setOffset` -/
def setOffset (frame : ℤ) (offset : Point) (s : Selection) : Selection :=
  { s with offsets := s.offsets.insert frame offset }

/-- `Selection::clearOffsets` -/
def clearOffsets (s : Selection) : Selection := { s with offsets := ∅ }

/-- `copy` of the classes of selections: a new object without offsets. -/
def copy (address : ℕ) (s : Selection) : Selection := ⟨address, s.shape, ∅⟩

end Selection

/-! ## Annotations -/

/-- A selection in a YAML document.  A type that the source does not know is skipped. -/
inductive SelectionNode
  | manual (vertices : List Point)
  | polygon (vertices : List Point)
  | ellipse (top left width height : ℤ)
  | rectangle (top left right bottom : ℤ)
  | square (top left right bottom : ℤ)
  | unknown

/-- The shape that a selection in a document has.  One without vertices is skipped. -/
def SelectionNode.shape? : SelectionNode → Option SelectionShape
  | .manual vertices => if h : vertices ≠ [] then some (.manual ⟨vertices, h⟩) else none
  | .polygon vertices => if h : vertices ≠ [] then some (.polygon ⟨vertices, h⟩) else none
  | .ellipse top left width height => some (.ellipse top left width height)
  | .rectangle top left right bottom => some (.rectangle ⟨left, top⟩ ⟨right, bottom⟩)
  | .square top left right bottom => some (.square ⟨left, top⟩ ⟨right, bottom⟩)
  | .unknown => none

/-- An entry of `centerPoints` in a YAML document. -/
structure CenterPointNode where
  x : ℤ
  y : ℤ
  frame : ℤ

/-- An annotation in a YAML document, with the addresses of the selections that are created. -/
structure AnnotationNode where
  centerPoints : Option (List CenterPointNode)
  selections : List (ℕ × SelectionNode)

/-- The fields of `VisionAnnotation` that offsets depend on. -/
structure VisionAnnotation where
  /-- `selections_` -/
  selections : List Selection
  /-- `centerPoints_` -/
  centerPoints : FramePoints

/-- A call of an operation of `VisionAnnotation`. -/
inductive AnnotationAct
  | setCenterPoint (x y frame : ℤ)
  | addSelection (selection : Selection)
  | removeSelection (address : ℕ)
  | remapCenterPoints (offset : ℤ)
  | clearCenterPoints
  | copy (address : ℕ → ℕ)
  | deserialize (node : AnnotationNode)

namespace VisionAnnotation

/-- `VisionAnnotation::VisionAnnotation` -/
def empty : VisionAnnotation := ⟨[], ∅⟩

/-- `VisionAnnotation::addSelection` -/
def addSelection (selection : Selection) (v : VisionAnnotation) : VisionAnnotation :=
  { v with selections := v.selections ++ [selection] }

/-- `VisionAnnotation::removeSelection` -/
def removeSelection (address : ℕ) (v : VisionAnnotation) : VisionAnnotation :=
  { v with selections := v.selections.filter fun s => s.address ≠ address }

/-- `VisionAnnotation::getCenter` -/
def getCenter (v : VisionAnnotation) : Point :=
  if v.selections.length = 0 then ⟨0, 0⟩ else Point.average (v.selections.map Selection.getCenter)

/-- The offsets that `updateSelectionOffsets` sets in one selection. -/
def setOffsets (centerPoints : FramePoints) (origCenter : Point) (s : Selection) : Selection :=
  centerPoints.entries.foldl (fun s kvp => s.setOffset kvp.1 (kvp.2 - origCenter)) s

/-- `VisionAnnotation::updateSelectionOffsets` -/
def updateSelectionOffsets (v : VisionAnnotation) : VisionAnnotation :=
  { v with selections := v.selections.map (setOffsets v.centerPoints v.getCenter) }

/-- `VisionAnnotation::setCenterPoint` -/
def setCenterPoint (x y frame : ℤ) (v : VisionAnnotation) : VisionAnnotation :=
  updateSelectionOffsets { v with centerPoints := v.centerPoints.insert frame ⟨x, y⟩ }

/-- `VisionAnnotation::clearCenterPoints` -/
def clearCenterPoints (v : VisionAnnotation) : VisionAnnotation :=
  ⟨v.selections.map Selection.clearOffsets, ∅⟩

/-- The map that `remapCenterPoints` fills. -/
def remap (offset : ℤ) (original : FramePoints) : FramePoints :=
  original.entries.foldl (fun points kvp => points.insert (kvp.1 + offset) kvp.2) ∅

/-- `VisionAnnotation::remapCenterPoints` -/
def remapCenterPoints (offset : ℤ) (v : VisionAnnotation) : VisionAnnotation :=
  { v with centerPoints := remap offset v.centerPoints }

/-- `VisionAnnotation::copy`, with the addresses of the selections that are created. -/
def copy (address : ℕ → ℕ) (v : VisionAnnotation) : VisionAnnotation :=
  { v with selections := v.selections.mapIdx fun i s => s.copy (address i) }

/-- The selections that `VisionAnnotation::deserialize` creates. -/
def createSelections (nodes : List (ℕ × SelectionNode)) : List Selection :=
  nodes.filterMap fun node => node.2.shape?.map fun shape => ⟨node.1, shape, ∅⟩

/-- `VisionAnnotation::deserialize` -/
def deserialize (node : AnnotationNode) (v : VisionAnnotation) : VisionAnnotation :=
  let v := match node.centerPoints with
    | some centerPoints => centerPoints.foldl (fun (v : VisionAnnotation) (p : CenterPointNode) =>
        v.setCenterPoint p.x p.y p.frame) v
    | none => v
  updateSelectionOffsets
    { v with selections := v.selections ++ createSelections node.selections }

/-- One operation. -/
def step : AnnotationAct → VisionAnnotation → VisionAnnotation
  | .setCenterPoint x y frame, v => v.setCenterPoint x y frame
  | .addSelection selection, v => v.addSelection selection
  | .removeSelection address, v => v.removeSelection address
  | .remapCenterPoints offset, v => v.remapCenterPoints offset
  | .clearCenterPoints, v => v.clearCenterPoints
  | .copy address, v => v.copy address
  | .deserialize node, v => v.deserialize node

/-! ## Coherence -/

/-- The selection has an offset exactly for the frames of the center points, and it is the center
point minus the center. -/
def HasOffsets (centerPoints : FramePoints) (center : Point) (s : Selection) : Prop :=
  ∀ frame, s.offsets.lookup frame = (centerPoints.lookup frame).map fun p => p - center

/-- **Offset coherence**: all selections have the offsets that the annotation gives them. -/
def Coherent (v : VisionAnnotation) : Prop :=
  ∀ s ∈ v.selections, HasOffsets v.centerPoints v.getCenter s

/-- The offsets stay right when the center goes from one point to the other: there are no
selections, no center points, or the center is the same. -/
def Unmoved (v : VisionAnnotation) (center : Point) : Prop :=
  v.selections = [] ∨ v.centerPoints = ∅ ∨ center = v.getCenter

/-- When an operation leaves the offsets right. -/
def Keeps : AnnotationAct → VisionAnnotation → Prop
  | .addSelection selection, v =>
    HasOffsets v.centerPoints (v.addSelection selection).getCenter selection ∧
      v.Unmoved (v.addSelection selection).getCenter
  | .removeSelection address, v =>
    (v.removeSelection address).Unmoved v.getCenter
  | .remapCenterPoints offset, v => offset = 0 ∨ v.selections = [] ∨ v.centerPoints = ∅
  | .copy _, v => v.selections = [] ∨ v.centerPoints = ∅
  | _, _ => True

/-! ## Maps of frames -/

/-- A map that is not empty has a point for some frame. -/
lemma exists_lookup {points : FramePoints} (h : points ≠ ∅) :
    ∃ frame p, points.lookup frame = some p := by
  cases hentries : points.entries with
  | nil => exact absurd (AList.ext hentries) h
  | cons kvp rest =>
    refine ⟨kvp.1, kvp.2, AList.mem_lookup_iff.mpr ?_⟩
    rw [hentries]
    exact List.mem_cons_self

/-- A loop that inserts for each entry of a list of distinct keys: the entries of the list come
before what was there. -/
lemma lookup_foldl_insert (key : ℤ → ℤ) (hkey : Function.Injective key) (value : Point → Point)
    {entries : List (Σ _ : ℤ, Point)} (hnodup : entries.NodupKeys) (points : FramePoints)
    (frame : ℤ) :
    (entries.foldl (fun points kvp => points.insert (key kvp.1) (value kvp.2)) points).lookup
        (key frame) =
      match entries.dlookup frame with
      | some p => some (value p)
      | none => points.lookup (key frame) := by
  induction entries generalizing points with
  | nil => rfl
  | cons kvp entries ih =>
    obtain ⟨hfirst, hrest⟩ := List.nodupKeys_cons.mp hnodup
    rw [List.foldl_cons, ih hrest]
    by_cases heq : frame = kvp.1
    · subst heq
      have hnone : entries.dlookup kvp.1 = none := List.dlookup_eq_none.mpr hfirst
      rw [hnone, List.dlookup_cons_eq]
      exact AList.lookup_insert points
    · rw [List.dlookup_cons_ne _ _ heq]
      cases entries.dlookup frame with
      | some p => rfl
      | none => exact AList.lookup_insert_ne fun h => heq (hkey h)

/-- The offsets after `updateSelectionOffsets`: those of the center points, and the ones that a
selection had for other frames. -/
lemma lookup_setOffsets (centerPoints : FramePoints) (center : Point) (s : Selection)
    (frame : ℤ) :
    (setOffsets centerPoints center s).offsets.lookup frame =
      match centerPoints.lookup frame with
      | some p => some (p - center)
      | none => s.offsets.lookup frame := by
  have hoffsets : ∀ (entries : List (Σ _ : ℤ, Point)) (s : Selection),
      (entries.foldl (fun s kvp => s.setOffset kvp.1 (kvp.2 - center)) s).offsets =
        entries.foldl (fun points kvp => points.insert kvp.1 (kvp.2 - center)) s.offsets := by
    intro entries
    induction entries with
    | nil => exact fun s => rfl
    | cons kvp entries ih => exact fun s => ih (s.setOffset kvp.1 (kvp.2 - center))
  rw [setOffsets, hoffsets]
  exact lookup_foldl_insert id Function.injective_id (fun p => p - center)
    centerPoints.nodupKeys s.offsets frame

/-- The center points after `remapCenterPoints`. -/
lemma lookup_remap (offset : ℤ) (original : FramePoints) (frame : ℤ) :
    (remap offset original).lookup (frame + offset) = original.lookup frame := by
  have hlookup := lookup_foldl_insert (· + offset) (fun a b (h : a + offset = b + offset) => by omega)
    id
    original.nodupKeys ∅ frame
  rw [remap]
  refine hlookup.trans ?_
  change _ = original.entries.dlookup frame
  cases original.entries.dlookup frame with
  | some p => rfl
  | none => exact AList.lookup_empty _

/-- A map that has a point for a frame if and only if it has one for the frame shifted by an offset
is empty, or the offset is zero. -/
lemma eq_zero_or_empty_of_shift {offset : ℤ} {points : FramePoints}
    (h : ∀ frame, (points.lookup (frame + offset)).isSome = (points.lookup frame).isSome) :
    offset = 0 ∨ points = ∅ := by
  by_contra hne
  push Not at hne
  obtain ⟨hoffset, hpoints⟩ := hne
  obtain ⟨first, p, hfirst⟩ := exists_lookup hpoints
  have hmem (frame : ℤ) : frame ∈ points.keys.toFinset ↔ (points.lookup frame).isSome := by
    rw [List.mem_toFinset, ← AList.mem_keys, AList.lookup_isSome]
  have hnonempty : points.keys.toFinset.Nonempty := ⟨first, (hmem first).mpr (by rw [hfirst]; rfl)⟩
  -- the last frame and the first one cannot both be shifted
  have hlast := (hmem _).mp (Finset.max'_mem _ hnonempty)
  have hleast := (hmem _).mp (Finset.min'_mem _ hnonempty)
  rw [← h] at hlast hleast
  have hmax := Finset.le_max' _ _ ((hmem _).mpr hlast)
  have hmin := Finset.min'_le _ _ ((hmem _).mpr hleast)
  omega

/-! ## What each operation does to the offsets -/

variable {v : VisionAnnotation}

/-- The center depends on the shapes only. -/
lemma getCenter_map (f : Selection → Selection) (hf : ∀ s, (f s).shape = s.shape)
    (selections : List Selection) (centerPoints centerPoints' : FramePoints) :
    getCenter ⟨selections.map f, centerPoints⟩ = getCenter ⟨selections, centerPoints'⟩ := by
  have hcenter : Selection.getCenter ∘ f = Selection.getCenter :=
    funext fun s => congrArg SelectionShape.getCenter (hf s)
  simp only [getCenter, List.length_map, List.map_map, hcenter]

/-- `updateSelectionOffsets` leaves the shapes alone. -/
lemma shape_setOffsets (centerPoints : FramePoints) (center : Point) (s : Selection) :
    (setOffsets centerPoints center s).shape = s.shape := by
  rw [setOffsets]
  induction centerPoints.entries generalizing s with
  | nil => rfl
  | cons kvp entries ih => exact ih (s.setOffset kvp.1 (kvp.2 - center))

/-- No selection has an offset for a frame without a center point. -/
def NoStale (v : VisionAnnotation) : Prop :=
  ∀ s ∈ v.selections, ∀ frame, v.centerPoints.lookup frame = none → s.offsets.lookup frame = none

/-- A coherent annotation has no stale offsets. -/
lemma Coherent.noStale (h : v.Coherent) : v.NoStale := by
  intro s hs frame hnone
  rw [h s hs frame, hnone]
  rfl

/-- **The spec of `updateSelectionOffsets`**: without stale offsets, all offsets are right
afterwards. -/
lemma coherent_updateSelectionOffsets (h : v.NoStale) : v.updateSelectionOffsets.Coherent := by
  intro s hs frame
  obtain ⟨t, ht, rfl⟩ := List.mem_map.mp hs
  rw [lookup_setOffsets, updateSelectionOffsets, getCenter_map _ (shape_setOffsets _ _)]
  cases hlookup : v.centerPoints.lookup frame with
  | some p => rfl
  | none => exact h t ht frame hlookup

/-- `setCenterPoint` keeps the offsets right. -/
lemma Coherent.setCenterPoint (h : v.Coherent) (x y frame : ℤ) :
    (v.setCenterPoint x y frame).Coherent := by
  apply coherent_updateSelectionOffsets
  intro s hs f hnone
  obtain ⟨-, hnone⟩ := AList.lookup_insert_eq_none.mp hnone
  exact h.noStale s hs f hnone

/-- `clearCenterPoints` makes the offsets right. -/
lemma coherent_clearCenterPoints (v : VisionAnnotation) : v.clearCenterPoints.Coherent := by
  intro s hs frame
  obtain ⟨t, -, rfl⟩ := List.mem_map.mp hs
  rfl

/-- `deserialize` keeps the offsets right: its new selections have none before the update. -/
lemma Coherent.deserialize (h : v.Coherent) (node : AnnotationNode) :
    (v.deserialize node).Coherent := by
  have hpoints : ∀ (points : List CenterPointNode) (v : VisionAnnotation), v.Coherent →
      (points.foldl (fun (v : VisionAnnotation) (p : CenterPointNode) =>
        v.setCenterPoint p.x p.y p.frame) v).Coherent := by
    intro points
    induction points with
    | nil => exact fun v h => h
    | cons p points ih => exact fun v h => ih _ (h.setCenterPoint p.x p.y p.frame)
  have hafter : ∀ w : VisionAnnotation, w.Coherent →
      NoStale { w with selections := w.selections ++ createSelections node.selections } := by
    intro w hw s hs frame hnone
    rcases List.mem_append.mp hs with hs | hs
    · exact hw.noStale s hs frame hnone
    · obtain ⟨entry, -, hentry⟩ := List.mem_filterMap.mp hs
      obtain ⟨shape, -, rfl⟩ := Option.map_eq_some_iff.mp hentry
      exact AList.lookup_empty frame
  rw [ VisionAnnotation.deserialize]
  cases node.centerPoints with
  | none => exact coherent_updateSelectionOffsets (hafter v h)
  | some points => exact coherent_updateSelectionOffsets (hafter _ (hpoints points v h))

/-- **When the center moves**: the offsets are right for the new center too if and only if nothing
moves, or there is nothing to move. -/
lemma hasOffsets_iff_unmoved (h : v.Coherent) (center : Point) :
    (∀ s ∈ v.selections, HasOffsets v.centerPoints center s) ↔ v.Unmoved center := by
  constructor
  · intro hcenter
    rw [Unmoved]
    by_contra hne
    push Not at hne
    obtain ⟨hselections, hpoints, hmoved⟩ := hne
    obtain ⟨s, hs⟩ := List.exists_mem_of_ne_nil _ hselections
    obtain ⟨frame, p, hp⟩ := exists_lookup hpoints
    have hnew := hcenter s hs frame
    have hold := h s hs frame
    rw [hnew, hp] at hold
    exact hmoved (p.sub_right_injective (Option.some.inj hold))
  · rintro (hselections | hpoints | hsame) s hs
    · rw [hselections] at hs
      exact absurd hs List.not_mem_nil
    · intro frame
      rw [h s hs frame, hpoints]
      rfl
    · rw [hsame]
      exact h s hs

/-- `addSelection` keeps the offsets right exactly if the new selection brings its own and the
center does not move. -/
lemma Coherent.addSelection_iff (h : v.Coherent) (selection : Selection) :
    (v.addSelection selection).Coherent ↔ Keeps (.addSelection selection) v := by
  rw [Keeps, ← hasOffsets_iff_unmoved h]
  constructor
  · intro hadded
    exact ⟨hadded selection (List.mem_append_right _ List.mem_cons_self),
      fun s hs => hadded s (List.mem_append_left _ hs)⟩
  · rintro ⟨hnew, hold⟩ s hs
    rcases List.mem_append.mp hs with hs | hs
    · exact hold s hs
    · rw [List.mem_singleton.mp hs]
      exact hnew

/-- `removeSelection` keeps the offsets right exactly if the center does not move. -/
lemma Coherent.removeSelection_iff (h : v.Coherent) (address : ℕ) :
    (v.removeSelection address).Coherent ↔ Keeps (.removeSelection address) v := by
  have hsub : ∀ s ∈ (v.removeSelection address).selections, s ∈ v.selections :=
    fun s hs => (List.mem_filter.mp hs).1
  rw [Keeps]
  constructor
  · intro hremoved
    rw [← hasOffsets_iff_unmoved hremoved]
    exact fun s hs => h s (hsub s hs)
  · rintro (hselections | hpoints | hsame) s hs
    · rw [hselections] at hs
      exact absurd hs List.not_mem_nil
    · intro frame
      have hpoints : v.centerPoints = ∅ := hpoints
      have hold := h s (hsub s hs) frame
      rw [hpoints] at hold
      change _ = (v.centerPoints.lookup frame).map _
      rw [hpoints]
      exact hold
    · rw [← hsame]
      exact h s (hsub s hs)

/-- `remapCenterPoints` keeps the offsets right exactly if it renames no frame, or there are no
offsets. -/
lemma Coherent.remapCenterPoints_iff (h : v.Coherent) (offset : ℤ) :
    (v.remapCenterPoints offset).Coherent ↔ Keeps (.remapCenterPoints offset) v := by
  rw [Keeps]
  constructor
  · intro hremapped
    by_cases hselections : v.selections = []
    · exact Or.inr (Or.inl hselections)
    · obtain ⟨s, hs⟩ := List.exists_mem_of_ne_nil _ hselections
      have hshift : ∀ frame, (v.centerPoints.lookup (frame + offset)).isSome =
          (v.centerPoints.lookup frame).isSome := by
        intro frame
        have hold := congrArg Option.isSome (h s hs (frame + offset))
        have hnew := congrArg Option.isSome (hremapped s hs (frame + offset))
        rw [remapCenterPoints, lookup_remap] at hnew
        rw [Option.isSome_map] at hold hnew
        exact hold.symm.trans hnew
      rcases eq_zero_or_empty_of_shift hshift with hzero | hempty
      · exact Or.inl hzero
      · exact Or.inr (Or.inr hempty)
  · rintro (rfl | hselections | hpoints) s hs
    · intro frame
      have hremap := lookup_remap 0 v.centerPoints frame
      rw [Int.add_zero] at hremap
      change _ = ((remap 0 v.centerPoints).lookup frame).map _
      rw [hremap]
      exact h s hs frame
    · have hs : s ∈ v.selections := hs
      rw [hselections] at hs
      exact absurd hs List.not_mem_nil
    · intro frame
      have hold := h s hs frame
      change _ = ((remap offset v.centerPoints).lookup frame).map _
      rw [hpoints] at hold ⊢
      exact hold

/-- `copy` keeps the offsets right exactly if there are none. -/
lemma copy_coherent_iff (address : ℕ → ℕ) (v : VisionAnnotation) :
    (v.copy address).Coherent ↔ Keeps (.copy address) v := by
  rw [Keeps]
  constructor
  · intro hcopy
    by_contra hne
    push Not at hne
    obtain ⟨hselections, hpoints⟩ := hne
    obtain ⟨s, rest, hcons⟩ := List.exists_cons_of_ne_nil hselections
    obtain ⟨frame, p, hp⟩ := exists_lookup hpoints
    have hmem : s.copy (address 0) ∈ (v.copy address).selections := by
      rw [copy, hcons, List.mapIdx_cons]
      exact List.mem_cons_self
    have hcopied := hcopy _ hmem frame
    change none = (v.centerPoints.lookup frame).map _ at hcopied
    rw [hp] at hcopied
    exact absurd hcopied nofun
  · intro hnone s hs frame
    obtain ⟨i, hi, rfl⟩ := List.mem_mapIdx.mp hs
    rcases hnone with hselections | hpoints
    · rw [hselections] at hi
      exact absurd hi (Nat.not_lt_zero i)
    · change none = (v.centerPoints.lookup frame).map _
      rw [hpoints]
      rfl

/-- **The step lemma**: an operation leaves the offsets of a coherent annotation right exactly if
`Keeps` says so. -/
lemma coherent_step_iff (a : AnnotationAct) (v : VisionAnnotation) (h : v.Coherent) :
    (step a v).Coherent ↔ Keeps a v := by
  cases a with
  | setCenterPoint x y frame => exact iff_of_true (h.setCenterPoint x y frame) trivial
  | addSelection selection => exact h.addSelection_iff selection
  | removeSelection address => exact h.removeSelection_iff address
  | remapCenterPoints offset => exact h.remapCenterPoints_iff offset
  | clearCenterPoints => exact iff_of_true (coherent_clearCenterPoints v) trivial
  | copy address => exact copy_coherent_iff address v
  | deserialize node => exact iff_of_true (h.deserialize node) trivial

/-- An annotation without selections is coherent. -/
lemma coherent_empty : empty.Coherent := fun _ hs => absurd hs List.not_mem_nil

end VisionAnnotation

open VisionAnnotation

/-- **Offset coherence along a run**: the annotation is coherent after every operation exactly if
no selection is added or removed, no center point is remapped and nothing is copied in a way that
`Keeps` excludes. -/
theorem annotation_coherent_iff (acts : List AnnotationAct) :
    (∀ pre, pre <+: acts → (run step empty pre).Coherent) ↔ Guarded step Keeps empty acts :=
  forall_prefix_iff_guarded coherent_step_iff coherent_empty

/-- A selection that is added to an annotation that has been dragged has no offset. -/
theorem annotation_not_coherent :
    ¬ (run step empty [.setCenterPoint 60 40 7,
      .addSelection ⟨1, .rectangle ⟨10, 10⟩ ⟨20, 20⟩, ∅⟩]).Coherent := by
  intro h
  have hoffset := h ⟨1, .rectangle ⟨10, 10⟩ ⟨20, 20⟩, ∅⟩ List.mem_cons_self 7
  exact absurd hoffset (by decide)

end NaoSoccer
