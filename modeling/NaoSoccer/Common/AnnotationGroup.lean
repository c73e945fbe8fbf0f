import Mathlib
import NaoSoccer.Common.AnnotationFile

/-!
# Saving and loading a group of annotations

`AnnotationGroup::serialize` writes all annotations into a document and `deserialize` makes new ones
of it.  The selections get new addresses, and their offsets are not in the document but computed
when all of them are there.

The loops over annotations, selections and center points count in 16 bits, and so does the one that
writes the vertices of a polygon, although `copy` and `getPolygon` count them as integers.
-/

namespace NaoSoccer

open NarrowLoop

/-! ## Annotations with their names -/

/-- The fields of `VisionAnnotation`. -/
structure NamedAnnotation extends VisionAnnotation where
  /-- `name_` -/
  name : String
  /-- `minFrame_` -/
  minFrame : ℤ
  /-- `maxFrame_` -/
  maxFrame : ℤ
  /-- `color_` -/
  color : Color
  /-- `camera_` -/
  camera : CameraType
  /-- `isSample_` -/
  isSample : Bool

/-- `LocalizationAnnotation` -/
structure LocalizationAnnotation (φ : Type) where
  x : φ
  y : φ
  t : φ
  frame : ℤ

/-- `AnnotationGroup` -/
structure AnnotationGroup (φ : Type) where
  /-- `vannotations_` -/
  vannotations : List NamedAnnotation
  /-- `lannotations_` -/
  lannotations : List ( LocalizationAnnotation φ)

variable {S φ : Type} (c : Scalars S φ) (passes : ℕ)

/-- The entries of a map in the order of its iterators. -/
def sortedEntries (points : FramePoints) : List (Σ _ : ℤ, Point) :=
  points.entries.mergeSort fun a b => a.1 ≤ b.1

/-- An entry of `centerPoints` as it is written. -/
def centerPointDocument (kvp : Σ _ : ℤ, Point) : YamlNode S :=
  .map (("frame", c.int kvp.1) :: kvp.2.entries c)

/-- The body of the loop over `centerPoints` in `VisionAnnotation::deserialize`. -/
def CenterPointNode.deserialize (centerPoint : YamlNode S) : Except YamlFault CenterPointNode := do
  let x ← Scalars.scanAt c.readInt "x" centerPoint
  let y ← Scalars.scanAt c.readInt "y" centerPoint
  let frame ← Scalars.scanAt c.readInt "frame" centerPoint
  return ⟨x, y, frame⟩

namespace NamedAnnotation

/-- A map with the fields of an annotation and with selections that are written already. -/
def documentOf (v : NamedAnnotation) (selections : List (YamlNode S)) : YamlNode S :=
  .map [("name", c.string v.name), ("minFrame", c.int v.minFrame), ("maxFrame", c.int v.maxFrame),
    ("color", c.string v.color.getName), ("camera", c.string v.camera.c_str),
    ("isSample", .scalar (c.emitBool v.isSample)),
    ("centerPoints", .seq ((sortedEntries v.centerPoints).map (centerPointDocument c))),
    ("selections", .seq selections)]

/-- `VisionAnnotation::serialize` -/
def serialize (v : NamedAnnotation) : Except YamlFault (YamlNode S) := do
  let selections ← forEach 16 .endless v.selections
    (appending fun _ s => s.shape.serialize c passes) passes 0 []
  return v.documentOf c selections

/-- `new VisionAnnotation()`: the fields without a default hold anything. -/
def new (garbage : NamedAnnotation) : NamedAnnotation :=
  { garbage with toVisionAnnotation := VisionAnnotation.empty }

/-- `VisionAnnotation::deserialize`, with the addresses of the selections that are created. -/
def deserialize (address : ℕ → ℕ) (node : YamlNode S) (v : NamedAnnotation) :
    Except YamlFault NamedAnnotation := do
  let name ← Scalars.scanAt c.readString "name" node
  let minFrame ← Scalars.scanAt c.readInt "minFrame" node
  let maxFrame ← Scalars.scanAt c.readInt "maxFrame" node
  let color ← Scalars.scanAt c.readString "color" node >>= Color.fromString
  let camera ← Scalars.scanAt c.readString "camera" node >>= CameraType.fromString
  let isSample ← match node.findValue "isSample" with
    | some pSample => Scalars.scan c.readBool pSample
    | none => .ok v.isSample
  let centerPoints ← match node.findValue "centerPoints" with
    | some pCenterPoints => do
      let items ← pCenterPoints.elements
      let points ← forEach 16 .endless items
        (appending fun _ item => CenterPointNode.deserialize c item) passes 0 []
      .ok (some points)
    | none => .ok none
  let selections ← node.get "selections"
  let items ← selections.elements
  let nodes ← forEach 16 .endless items
    (appending fun _ item => SelectionNode.deserialize c passes item) passes 0 []
  let vision := v.toVisionAnnotation.deserialize
    ⟨centerPoints, nodes.mapIdx fun i node => (address i, node)⟩
  return ⟨vision, name, minFrame, maxFrame, color, camera, isSample⟩

end NamedAnnotation

namespace LocalizationAnnotation

/-- `LocalizationAnnotation::serialize` -/
def serialize (a : LocalizationAnnotation φ) : YamlNode S :=
  .map [("pose", .map [("x", .scalar (c.emitFloat a.x)), ("y", .scalar (c.emitFloat a.y)),
    ("t", .scalar (c.emitFloat a.t))]), ("frame", c.int a.frame)]

/-- `LocalizationAnnotation::deserialize` -/
def deserialize (node : YamlNode S) : Except YamlFault ( LocalizationAnnotation φ) := do
  let pose ← node.get "pose"
  let x ← Scalars.scanAt c.readFloat "x" pose
  let y ← Scalars.scanAt c.readFloat "y" pose
  let t ← Scalars.scanAt c.readFloat "t" pose
  let frame ← Scalars.scanAt c.readInt "frame" node
  return ⟨x, y, t, frame⟩

end LocalizationAnnotation

namespace AnnotationGroup

/-- `AnnotationGroup::AnnotationGroup` -/
def empty : AnnotationGroup φ := ⟨[], []⟩

/-- `AnnotationGroup::serialize` -/
def serialize (g : AnnotationGroup φ) : Except YamlFault (YamlNode S) := do
  let vitems ← g.vannotations.foldlM (appending fun _ a => a.serialize c passes) []
  let litems := g.lannotations.map fun a => a.serialize c
  return .map [("vision_annotations", .seq vitems), ("localization_annotations", .seq litems)]

/-- `AnnotationGroup::deserialize`; an annotation that becomes the `n`-th has its selections at
the addresses `address n`. -/
def deserialize (address : ℕ → ℕ → ℕ) (garbage : NamedAnnotation) (node : YamlNode S)
    (g : AnnotationGroup φ) : Except YamlFault (AnnotationGroup φ) := do
  let vnode ← node.get "vision_annotations"
  let vitems ← vnode.elements
  let vannotations ← forEach 16 .endless vitems (appending fun annotations item =>
    NamedAnnotation.deserialize c passes (address annotations.length) item
      ( NamedAnnotation.new garbage)) passes 0 g.vannotations
  let lnode ← node.get "localization_annotations"
  let litems ← lnode.elements
  let lannotations ← forEach 16 .endless litems
    (appending fun _ item => LocalizationAnnotation.deserialize c item) passes 0 g.lannotations
  return ⟨vannotations, lannotations⟩

end AnnotationGroup

/-! ## What is kept -/

/-- Two annotations with the same fields and the same shapes of selections, in order. -/
structure SameAnnotation (v w : NamedAnnotation) : Prop where
  name : w.name = v.name
  minFrame : w.minFrame = v.minFrame
  maxFrame : w.maxFrame = v.maxFrame
  color : w.color = v.color
  camera : w.camera = v.camera
  isSample : w.isSample = v.isSample
  centerPoints : ∀ frame, w.centerPoints.lookup frame = v.centerPoints.lookup frame
  selections : w.selections.map Selection.shape = v.selections.map Selection.shape

/-- The loops over the group and over each annotation can count. -/
structure AnnotationGroup.Bounded (g : AnnotationGroup φ) : Prop where
  vannotations : g.vannotations.length < 2 ^ 16
  lannotations : g.lannotations.length < 2 ^ 16
  selections : ∀ v ∈ g.vannotations, v.selections.length < 2 ^ 16
  centerPoints : ∀ v ∈ g.vannotations, v.centerPoints.entries.length < 2 ^ 16

/-- The vertices of all selections can be counted. -/
def NamedAnnotation.ShortPolygons (v : NamedAnnotation) : Prop :=
  ∀ s ∈ v.selections, s.shape.vertices.length < 2 ^ 16

/-! ## Names of colors and cameras -/

/-- A color is read from its name. -/
lemma Color.fromString_getName (color : Color) : Color.fromString color.getName = .ok color := by
  cases color <;> decide +kernel

/-- A camera is read from its name. -/
lemma CameraType.fromString_c_str (camera : CameraType) :
    CameraType.fromString camera.c_str = .ok camera := by
  cases camera <;> decide +kernel

/-! ## Center points -/

/-- The node of a center point. -/
def centerPointNode (kvp : Σ _ : ℤ, Point) : CenterPointNode := ⟨kvp.2.x, kvp.2.y, kvp.1⟩

variable {c} {passes}

/-- A center point is read again. -/
lemma CenterPointNode.deserialize_document (hc : c.RoundTrips) (kvp : Σ _ : ℤ, Point) :
    CenterPointNode.deserialize c (centerPointDocument c kvp) = .ok (centerPointNode kvp) := by
  set node : YamlNode S := centerPointDocument c kvp
  have hx : Scalars.scanAt c.readInt "x" node = .ok kvp.2.x :=
    Scalars.scanAt_of_lookup rfl (hc.scan_int _)
  have hy : Scalars.scanAt c.readInt "y" node = .ok kvp.2.y :=
    Scalars.scanAt_of_lookup rfl (hc.scan_int _)
  have hframe : Scalars.scanAt c.readInt "frame" node = .ok kvp.1 :=
    Scalars.scanAt_of_lookup rfl (hc.scan_int _)
  rw [CenterPointNode.deserialize, hx, hy, hframe]
  rfl

/-- The loop over center points fills the map. -/
lemma centerPoints_foldl (entries : List (Σ _ : ℤ, Point)) (v : VisionAnnotation) :
    ((entries.map centerPointNode).foldl (fun (v : VisionAnnotation) (p : CenterPointNode) =>
        v.setCenterPoint p.x p.y p.frame) v).centerPoints =
      entries.foldl (fun points kvp => points.insert kvp.1 kvp.2) v.centerPoints := by
  induction entries generalizing v with
  | nil => rfl
  | cons kvp entries ih => exact ih (v.setCenterPoint kvp.2.x kvp.2.y kvp.1)

/-- The loop over center points adds no selection. -/
lemma selections_foldl (points : List CenterPointNode) (v : VisionAnnotation)
    (hv : v.selections = []) :
    (points.foldl (fun (v : VisionAnnotation) (p : CenterPointNode) =>
        v.setCenterPoint p.x p.y p.frame) v).selections = [] := by
  induction points generalizing v with
  | nil => exact hv
  | cons p points ih =>
    refine ih _ ?_
    show v.selections.map _ = []
    rw [hv]
    rfl

/-- Filling an empty map with the entries of a map in any order gives that map. -/
lemma lookup_foldl_sortedEntries (points : FramePoints) (frame : ℤ) :
    ((sortedEntries points).foldl (fun points kvp => points.insert kvp.1 kvp.2)
      (∅ : FramePoints)).lookup frame = points.lookup frame := by
  have hperm : (sortedEntries points).Perm points.entries := List.mergeSort_perm _ _
  have hnodup : (sortedEntries points).NodupKeys :=
    (List.perm_nodupKeys hperm).mpr points.nodupKeys
  have hlookup := VisionAnnotation.lookup_foldl_insert id Function.injective_id id hnodup ∅ frame
  refine hlookup.trans ?_
  rw [List.perm_dlookup frame hnodup hperm]
  change _ = points.entries.dlookup frame
  cases points.entries.dlookup frame with
  | some p => rfl
  | none => exact AList.lookup_empty _

/-! ## Selections -/

/-- Numbers in front of the elements of a list do not change the elements. -/
lemma map_snd_mapIdx {α : Type} (address : ℕ → ℕ) (l : List α) :
    (l.mapIdx fun i a => (address i, a)).map Prod.snd = l := by
  refine List.ext_getElem (by rw [List.length_map, List.length_mapIdx]) fun i h h' => ?_
  rw [List.getElem_map, List.getElem_mapIdx]

/-- The selections that are made of the nodes of shapes have these shapes. -/
lemma shape_createSelections {nodes : List (ℕ × SelectionNode)} {shapes : List SelectionShape}
    (h : nodes.map Prod.snd = shapes.map SelectionShape.toNode) :
    ( VisionAnnotation.createSelections nodes).map Selection.shape = shapes := by
  induction nodes generalizing shapes with
  | nil => exact (List.map_eq_nil_iff.mp h.symm).symm
  | cons node nodes ih =>
    obtain ⟨shape, shapes, rfl, hnode, hrest⟩ := List.map_eq_cons_iff.mp h.symm
    have hhead : node.2.shape? = some shape := hnode ▸ shape.shape?_toNode
    rw [ VisionAnnotation.createSelections, List.filterMap_cons, hhead]
    exact congrArg (shape :: ·) (ih hrest.symm)

namespace VisionAnnotation

/-- What an empty annotation holds after it has read the nodes of center points and shapes. -/
lemma deserialize_empty (entries : List (Σ _ : ℤ, Point)) {nodes : List (ℕ × SelectionNode)}
    {shapes : List SelectionShape} (h : nodes.map Prod.snd = shapes.map SelectionShape.toNode) :
    (empty.deserialize ⟨some (entries.map centerPointNode), nodes⟩).selections.map
        Selection.shape = shapes ∧
      (empty.deserialize ⟨some (entries.map centerPointNode), nodes⟩).centerPoints =
        entries.foldl (fun points kvp => points.insert kvp.1 kvp.2) ∅ := by
  have hselections := selections_foldl (entries.map centerPointNode) empty rfl
  refine ⟨?_, centerPoints_foldl entries empty⟩
  rw [deserialize]
  show (List.map _ (_ ++ createSelections nodes)).map Selection.shape = shapes
  rw [hselections, List.nil_append, List.map_map]
  refine Eq.trans (congrArg (List.map · _) (funext fun s => ?_)) (shape_createSelections h)
  exact shape_setOffsets _ _ s

end VisionAnnotation

/-! ## Annotations -/

namespace NamedAnnotation

/-- The document of an annotation. -/
def document (c : Scalars S φ) (v : NamedAnnotation) : YamlNode S :=
  v.documentOf c (v.selections.map fun s => s.shape.document c)

/-- An annotation with short polygons is written as its document. -/
lemma serialize_eq {v : NamedAnnotation} (hselections : v.selections.length < 2 ^ 16)
    (hshort : v.ShortPolygons) (hpasses : 2 ^ 16 ≤ passes) :
    v.serialize c passes = .ok (v.document c) := by
  have hloop := forEach_appending_map (w := 16) YamlFault.endless (g := id)
    (f := fun _ (s : Selection) => s.shape.serialize c passes)
    (k := fun s => s.shape.document c) hselections
    (fun s hs _ => SelectionShape.serialize_eq (hshort s hs)
      (Nat.lt_of_lt_of_le (hshort s hs) hpasses)) (Nat.lt_of_lt_of_le hselections hpasses)
  rw [List.map_id] at hloop
  rw [serialize, hloop]
  rfl

/-- An annotation that is written has short polygons. -/
lemma shortPolygons_of_serialize {v : NamedAnnotation} {node : YamlNode S}
    (h : v.serialize c passes = .ok node) : v.ShortPolygons := by
  intro s hs
  obtain ⟨items, hloop, -⟩ := Outcome.bind_eq_ok_iff.mp h
  obtain ⟨-, item, hitem⟩ := body_of_foldlM_appending (foldlM_of_forEach_ok hloop).2 s hs
  exact SelectionShape.length_of_serialize hitem

/-- The fields at the keys of the document of an annotation. -/
lemma findValue_document (v : NamedAnnotation) :
    (v.document c).findValue "isSample" = some (.scalar (c.emitBool v.isSample)) ∧
      (v.document c).findValue "centerPoints" =
        some (.seq ((sortedEntries v.centerPoints).map (centerPointDocument c))) ∧
      (v.document c).get "selections" =
        .ok (.seq (v.selections.map fun s => s.shape.document c)) :=
  ⟨rfl, rfl, rfl⟩

/-- The annotation that is made of a document. -/
def reloaded (address : ℕ → ℕ) (v : NamedAnnotation) : NamedAnnotation where
  toVisionAnnotation := VisionAnnotation.empty.deserialize
    ⟨some ((sortedEntries v.centerPoints).map centerPointNode),
      (v.selections.map fun s => s.shape.toNode).mapIdx fun i node => (address i, node)⟩
  name := v.name
  minFrame := v.minFrame
  maxFrame := v.maxFrame
  color := v.color
  camera := v.camera
  isSample := v.isSample

/-- **An annotation is read as it was written.** -/
lemma deserialize_document (hc : c.RoundTrips) {v : NamedAnnotation}
    (hselections : v.selections.length < 2 ^ 16)
    (hpoints : v.centerPoints.entries.length < 2 ^ 16) (hshort : v.ShortPolygons)
    (hpasses : 2 ^ 16 ≤ passes) (address : ℕ → ℕ) (garbage : NamedAnnotation) :
    deserialize c passes address (v.document c) (new garbage) = .ok (v.reloaded address) := by
  obtain ⟨hisSample, hcenterPoints, hget⟩ := v.findValue_document (c := c)
  have hsorted : (sortedEntries v.centerPoints).length < 2 ^ 16 := by
    rw [sortedEntries, List.length_mergeSort]
    exact hpoints
  have hpointsLoop := forEach_appending_map (w := 16) YamlFault.endless
    (g := centerPointDocument c) (k := centerPointNode)
    (f := fun _ item => CenterPointNode.deserialize c item) hsorted
    (fun kvp _ _ => CenterPointNode.deserialize_document hc kvp)
    (Nat.lt_of_lt_of_le hsorted hpasses)
  have hselectionsLoop := forEach_appending_map (w := 16) YamlFault.endless
    (g := fun s : Selection => s.shape.document c) (k := fun s => s.shape.toNode)
    (f := fun _ item => SelectionNode.deserialize c passes item) hselections
    (fun s hs _ => SelectionNode.deserialize_document hc (hshort s hs)
      (Nat.lt_of_lt_of_le (hshort s hs) hpasses)) (Nat.lt_of_lt_of_le hselections hpasses)
  have hname : Scalars.scanAt c.readString "name" (v.document c) = .ok v.name :=
    Scalars.scanAt_of_lookup rfl (hc.scan_string _)
  have hminFrame : Scalars.scanAt c.readInt "minFrame" (v.document c) = .ok v.minFrame :=
    Scalars.scanAt_of_lookup rfl (hc.scan_int _)
  have hmaxFrame : Scalars.scanAt c.readInt "maxFrame" (v.document c) = .ok v.maxFrame :=
    Scalars.scanAt_of_lookup rfl (hc.scan_int _)
  have hcolor : Scalars.scanAt c.readString "color" (v.document c) = .ok v.color.getName :=
    Scalars.scanAt_of_lookup rfl (hc.scan_string _)
  have hcamera : Scalars.scanAt c.readString "camera" (v.document c) = .ok v.camera.c_str :=
    Scalars.scanAt_of_lookup rfl (hc.scan_string _)
  have hbool : Scalars.scan c.readBool (.scalar (c.emitBool v.isSample)) = .ok v.isSample := by
    rw [Scalars.scan, hc.bool]
  rw [deserialize, hname, hminFrame, hmaxFrame, hcolor, hcamera]
  simp only [Outcome.ok_bind, Color.fromString_getName, CameraType.fromString_c_str, hisSample,
    hcenterPoints, hget, YamlNode.elements, hbool, hpointsLoop, hselectionsLoop]
  rfl

/-- The annotation that is made of the document of an annotation is the same. -/
lemma sameAnnotation_reloaded (address : ℕ → ℕ) (v : NamedAnnotation) :
    SameAnnotation v (v.reloaded address) := by
  have hnodes : ((v.selections.map fun s => s.shape.toNode).mapIdx
      fun i node => (address i, node)).map Prod.snd =
        (v.selections.map Selection.shape).map SelectionShape.toNode := by
    rw [map_snd_mapIdx, List.map_map]
    rfl
  obtain ⟨hshapes, hpoints⟩ := VisionAnnotation.deserialize_empty
    (sortedEntries v.centerPoints) hnodes
  exact {
    name := rfl
    minFrame := rfl
    maxFrame := rfl
    color := rfl
    camera := rfl
    isSample := rfl
    centerPoints := fun frame => by
      rw [reloaded, hpoints]
      exact lookup_foldl_sortedEntries v.centerPoints frame
    selections := hshapes }

/-- The annotation that is made of a document has the right offsets. -/
lemma coherent_reloaded (address : ℕ → ℕ) (v : NamedAnnotation) :
    VisionAnnotation.Coherent <| NamedAnnotation.toVisionAnnotation <| v.reloaded address := by
  have hcoherent := VisionAnnotation.coherent_empty.deserialize
    ⟨some ((sortedEntries v.centerPoints).map centerPointNode),
      (v.selections.map fun s => s.shape.toNode).mapIdx fun i node => (address i, node)⟩
  simpa only [reloaded] using hcoherent

end NamedAnnotation

/-- A localization annotation is read again, if with other numbers. -/
lemma LocalizationAnnotation.exists_deserialize (hc : c.RoundTrips)
    (a : LocalizationAnnotation φ) : ∃ b, deserialize c (a.serialize c) = .ok b := by
  have hfloat : ∀ z, ∃ z', Scalars.scan c.readFloat (.scalar (c.emitFloat z)) = .ok z' := by
    intro z
    obtain ⟨z', hz'⟩ := Option.isSome_iff_exists.mp (hc.float z)
    exact ⟨z', by rw [Scalars.scan, hz']⟩
  obtain ⟨x, hx⟩ := hfloat a.x
  obtain ⟨y, hy⟩ := hfloat a.y
  obtain ⟨t, ht⟩ := hfloat a.t
  set pose : YamlNode S := .map [("x", .scalar (c.emitFloat a.x)),
    ("y", .scalar (c.emitFloat a.y)), ("t", .scalar (c.emitFloat a.t))] with hpose
  have hget : (a.serialize c).get "pose" = .ok pose := rfl
  have hxpose : Scalars.scanAt c.readFloat "x" pose = .ok x := Scalars.scanAt_of_lookup rfl hx
  have hypose : Scalars.scanAt c.readFloat "y" pose = .ok y := Scalars.scanAt_of_lookup rfl hy
  have htpose : Scalars.scanAt c.readFloat "t" pose = .ok t := Scalars.scanAt_of_lookup rfl ht
  have hframe : Scalars.scanAt c.readInt "frame" (a.serialize c) = .ok a.frame :=
    Scalars.scanAt_of_lookup rfl (hc.scan_int _)
  refine ⟨⟨x, y, t, a.frame⟩, ?_⟩
  rw [deserialize, hget, Outcome.ok_bind, hxpose, hypose, htpose, hframe]
  rfl

/-! ## Groups -/

namespace AnnotationGroup

/-- The document of a group. -/
def document (c : Scalars S φ) (g : AnnotationGroup φ) : YamlNode S :=
  .map [("vision_annotations", .seq (g.vannotations.map fun v => v.document c)),
    ("localization_annotations", .seq (g.lannotations.map fun a => a.serialize c))]

/-- A group with short polygons is written as its document. -/
lemma serialize_eq {g : AnnotationGroup φ} (hg : g.Bounded)
    (hshort : ∀ v ∈ g.vannotations, v.ShortPolygons) (hpasses : 2 ^ 16 ≤ passes) :
    g.serialize c passes = .ok (g.document c) := by
  have hloop := foldlM_appending_map (g := id) (k := fun v : NamedAnnotation => v.document c)
    (f := fun _ (v : NamedAnnotation) => v.serialize c passes)
    (fun v (hv : v ∈ g.vannotations) _ =>
      NamedAnnotation.serialize_eq (hg.selections v hv) (hshort v hv) hpasses) []
  rw [List.map_id] at hloop
  rw [serialize, hloop]
  rfl

/-- A group that is written has short polygons. -/
lemma shortPolygons_of_serialize {g : AnnotationGroup φ} {node : YamlNode S}
    (h : g.serialize c passes = .ok node) : ∀ v ∈ g.vannotations, v.ShortPolygons := by
  intro v hv
  obtain ⟨items, hloop, -⟩ := Outcome.bind_eq_ok_iff.mp h
  obtain ⟨-, item, hitem⟩ := body_of_foldlM_appending hloop v hv
  exact NamedAnnotation.shortPolygons_of_serialize hitem

/-- **A group is read as it was written**: the annotations are the same, in order, and the offsets
of their selections are right. -/
lemma exists_deserialize (hc : c.RoundTrips) {g : AnnotationGroup φ} (hg : g.Bounded)
    (hshort : ∀ v ∈ g.vannotations, v.ShortPolygons) (hpasses : 2 ^ 16 ≤ passes)
    (address : ℕ → ℕ → ℕ) (garbage : NamedAnnotation) :
    ∃ g', deserialize c passes address garbage (g.document c) empty = .ok g' ∧
      List.Forall₂ (fun v w => SameAnnotation v w ∧ w.toVisionAnnotation.Coherent) g.vannotations
        g'.vannotations := by
  obtain ⟨ws, hws, hsame⟩ := forEach_appending (w := 16) YamlFault.endless
    (g := fun v : NamedAnnotation => v.document c)
    (f := fun annotations item => NamedAnnotation.deserialize c passes
      (address annotations.length) item ( NamedAnnotation.new garbage))
    (R := fun v w => SameAnnotation v w ∧ w.toVisionAnnotation.Coherent) hg.vannotations
    (fun v hv ys => ⟨v.reloaded (address ys.length),
      NamedAnnotation.deserialize_document hc (hg.selections v hv) (hg.centerPoints v hv)
        (hshort v hv) hpasses _ garbage,
      v.sameAnnotation_reloaded _, v.coherent_reloaded _⟩)
    (Nat.lt_of_lt_of_le hg.vannotations hpasses)
  obtain ⟨ls, hls, -⟩ := forEach_appending (w := 16) YamlFault.endless
    (g := fun a : LocalizationAnnotation φ => a.serialize c)
    (f := fun _ item => LocalizationAnnotation.deserialize c item) (R := fun _ _ => True)
    hg.lannotations
    (fun a _ _ => (a.exists_deserialize hc).imp fun b hb => ⟨hb, trivial⟩)
    (Nat.lt_of_lt_of_le hg.lannotations hpasses)
  have hvnode : (g.document c).get "vision_annotations" =
      .ok (.seq (g.vannotations.map fun v => v.document c)) := rfl
  have hlnode : (g.document c).get "localization_annotations" =
      .ok (.seq (g.lannotations.map fun a => a.serialize c)) := rfl
  refine ⟨⟨ws, ls⟩, ?_, hsame⟩
  rw [deserialize, hvnode, hlnode]
  simp only [Outcome.ok_bind, YamlNode.elements, empty, hws, hls]
  rfl

end AnnotationGroup

/-- **Annotation files round-trip exactly if no polygon has too many vertices to be written**: what
`serialize` writes of a group, `deserialize` loads with the same vision annotations, in order, and
the offsets of all their selections are the center points minus the center. -/
theorem annotationGroup_roundTrip_iff (hc : c.RoundTrips) (address : ℕ → ℕ → ℕ)
    (garbage : NamedAnnotation) {g : AnnotationGroup φ} (hg : g.Bounded) :
    (∃ passes document g', g.serialize c passes = .ok document ∧
        AnnotationGroup.deserialize c passes address garbage document AnnotationGroup.empty =
          .ok g' ∧
        List.Forall₂ (fun v w => SameAnnotation v w ∧ w.toVisionAnnotation.Coherent)
          g.vannotations g'.vannotations) ↔
      ∀ v ∈ g.vannotations, ∀ s ∈ v.selections, s.shape.vertices.length < 2 ^ 16 := by
  constructor
  · rintro ⟨passes, document, g', hdocument, -, -⟩
    exact AnnotationGroup.shortPolygons_of_serialize hdocument
  · intro hshort
    obtain ⟨passes, hpasses⟩ : ∃ passes, 2 ^ 16 ≤ passes := ⟨_, Nat.le_refl _⟩
    obtain ⟨g', hg', hsame⟩ :=
      AnnotationGroup.exists_deserialize hc hg hshort hpasses address garbage
    exact ⟨passes, g.document c, g', AnnotationGroup.serialize_eq hg hshort hpasses, hg', hsame⟩

/-! ## A group that is loaded and one that is not written -/

/-- Scalars as plain text. -/
def plainScalars : Scalars String ℤ where
  emitInt := Int.repr
  readInt := String.toInt?
  emitBool := fun b => if b then "true" else "false"
  readBool := fun s => if s = "true" then some true else if s = "false" then some false else none
  emitString := id
  readString := some
  emitFloat := Int.repr
  readFloat := String.toInt?

/-- Plain text is read as it was written. -/
lemma plainScalars_roundTrips : plainScalars.RoundTrips where
  int := Int.toInt?_repr
  bool := by decide
  string := fun _ => rfl
  float := fun x => by
    show (x.repr.toInt?).isSome = true
    rw [Int.toInt?_repr]
    rfl

/-- An annotation of the ball that has been dragged in one frame. -/
def annotatedBall (shape : SelectionShape) : NamedAnnotation where
  selections := [⟨1, shape, ∅⟩, ⟨2, .rectangle ⟨10, 10⟩ ⟨20, 20⟩, ∅⟩]
  centerPoints := AList.singleton 5 ⟨60, 40⟩
  name := "ball"
  minFrame := 3
  maxFrame := 9
  color := .c_ORANGE
  camera := .top
  isSample := true

/-- A group with this annotation. -/
def ballGroup (shape : SelectionShape) : AnnotationGroup ℤ := ⟨[annotatedBall shape], []⟩

/-- The loops over this group can count. -/
lemma ballGroup_bounded (shape : SelectionShape) : (ballGroup shape).Bounded where
  vannotations := (by decide : 1 < 2 ^ 16)
  lannotations := (by decide : 0 < 2 ^ 16)
  selections := fun v hv => by
    rw [List.mem_singleton.mp hv]
    exact (by decide : 2 < 2 ^ 16)
  centerPoints := fun v hv => by
    rw [List.mem_singleton.mp hv]
    exact (by decide : 1 < 2 ^ 16)

/-- A polygon that goes around one point. -/
def pointPolygon (n : ℕ) : SelectionShape :=
  .polygon ⟨List.replicate (n + 1) ⟨0, 0⟩, List.cons_ne_nil _ _⟩

/-- The vertices of this polygon. -/
lemma length_vertices_pointPolygon (n : ℕ) : (pointPolygon n).vertices.length = n + 1 :=
  List.length_replicate

/-- The annotation of the ball with a triangle is loaded. -/
theorem annotationGroup_roundTrip_ball :
    ∃ passes document g', (ballGroup (pointPolygon 2)).serialize plainScalars passes =
        .ok document ∧
      AnnotationGroup.deserialize plainScalars passes (fun n i => 100 * n + i)
        (annotatedBall (pointPolygon 0)) document AnnotationGroup.empty = .ok g' ∧
      List.Forall₂ (fun v w => SameAnnotation v w ∧ w.toVisionAnnotation.Coherent)
        (ballGroup (pointPolygon 2)).vannotations g'.vannotations :=
  (annotationGroup_roundTrip_iff plainScalars_roundTrips (fun n i => 100 * n + i)
    (annotatedBall (pointPolygon 0)) (ballGroup_bounded (pointPolygon 2))).mpr (by
      intro v hv s hs
      rw [List.mem_singleton.mp hv] at hs
      rcases List.mem_cons.mp hs with rfl | hs
      · exact (by decide : 3 < 2 ^ 16)
      · rw [List.mem_singleton.mp hs]
        exact (by decide : 0 < 2 ^ 16))

/-- With a polygon of 65536 vertices the group is never written. -/
theorem not_annotationGroup_roundTrip :
    (ballGroup (pointPolygon 65535)).Bounded ∧
      ¬ ∃ passes document g', (ballGroup (pointPolygon 65535)).serialize plainScalars passes =
          .ok document ∧
        AnnotationGroup.deserialize plainScalars passes (fun n i => 100 * n + i)
          (annotatedBall (pointPolygon 0)) document AnnotationGroup.empty = .ok g' ∧
        List.Forall₂ (fun v w => SameAnnotation v w ∧ w.toVisionAnnotation.Coherent)
          (ballGroup (pointPolygon 65535)).vannotations g'.vannotations := by
  refine ⟨ballGroup_bounded _, ?_⟩
  rintro ⟨passes, document, g', hdocument, -, -⟩
  have hshort := AnnotationGroup.shortPolygons_of_serialize hdocument _ List.mem_cons_self _
    List.mem_cons_self
  rw [length_vertices_pointPolygon] at hshort
  exact absurd hshort (by decide)

end NaoSoccer
