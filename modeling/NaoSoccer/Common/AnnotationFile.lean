import NaoSoccer.Common.Camera
import NaoSoccer.Common.VisionAnnotation
import NaoSoccer.Foundation.NarrowLoop

/-!
# Annotation files

An `AnnotationGroup` is saved as a YAML document: a map with a sequence of annotations of each kind,
and in each annotation of the vision a sequence of selections, which tell by a `type` what they are.

The YAML library is not modelled.  A document is the tree that is emitted and parsed, and how the
library writes and reads the scalars in it is a parameter, `Scalars`.  The loops of the source that
count in 16 bits are the loops of `NarrowLoop` with `w = 16`, each with the same number of passes
at most.
-/

namespace NaoSoccer

open NarrowLoop

/-! ## Documents -/

/-- What keeps a document from being written or read. -/
inductive YamlFault
  | endless
  | keyNotFound
  | invalidScalar
  | badSubscript
  | invalidColor
  | invalidCamera
  deriving DecidableEq, Repr

/-- A YAML document with scalars of a type. -/
inductive YamlNode (S : Type)
  | scalar (s : S)
  | seq (items : List (YamlNode S))
  | map (entries : List (String × YamlNode S))

namespace YamlNode

variable {S : Type}

/-- `node.FindValue(key)` -/
def findValue (key : String) : YamlNode S → Option (YamlNode S)
  | .map entries => entries.lookup key
  | _ => none

/-- `node[key]` -/
def get (key : String) (node : YamlNode S) : Except YamlFault (YamlNode S) :=
  match node.findValue key with
  | some value => .ok value
  | none => .error .keyNotFound

/-- The nodes `node[i]` for `i < node.size()`. -/
def elements : YamlNode S → Except YamlFault (List (YamlNode S))
  | .scalar _ => .ok []
  | .seq items => .ok items
  | .map [] => .ok []
  | .map _ => .error .badSubscript

end YamlNode

/-- How scalars are written and read; `φ` is the type of floating-point numbers. -/
structure Scalars (S φ : Type) where
  emitInt : ℤ → S
  readInt : S → Option ℤ
  emitBool : Bool → S
  readBool : S → Option Bool
  emitString : String → S
  readString : S → Option String
  emitFloat : φ → S
  readFloat : S → Option φ

namespace Scalars

variable {S φ : Type}

/-- What is written is read again.  A float need not be the same afterwards. -/
structure RoundTrips (c : Scalars S φ) : Prop where
  int : ∀ n, c.readInt (c.emitInt n) = some n
  bool : ∀ b, c.readBool (c.emitBool b) = some b
  string : ∀ s, c.readString (c.emitString s) = some s
  float : ∀ x, (c.readFloat (c.emitFloat x)).isSome

/-- `node >> x` for the type that is read. -/
def scan {α : Type} (read : S → Option α) : YamlNode S → Except YamlFault α
  | .scalar s =>
    match read s with
    | some x => .ok x
    | none => .error .invalidScalar
  | _ => .error .invalidScalar

/-- `node[key] >> x` -/
def scanAt {α : Type} (read : S → Option α) (key : String) (node : YamlNode S) :
    Except YamlFault α :=
  node.get key >>= scan read

variable (c : Scalars S φ)

/-- `emitter << n` -/
def int (n : ℤ) : YamlNode S := .scalar (c.emitInt n)

/-- `emitter << s` -/
def string (s : String) : YamlNode S := .scalar (c.emitString s)

end Scalars

/-! ## Enumerations -/

/-- `SelectionType` -/
inductive SelectionType
  | Rectangle | Ellipse | Square | Polygon | Manual
  deriving DecidableEq, Repr

/-- `SelectionTypeMethods::getName` -/
def SelectionType.getName : SelectionType → String
  | Rectangle => "Rectangle"
  | Ellipse => "Ellipse"
  | Square => "Square"
  | Polygon => "Polygon"
  | Manual => "Manual"

/-- `Color` -/
inductive Color
  | c_UNDEFINED | c_FIELD_GREEN | c_WHITE | c_ORANGE | c_PINK | c_BLUE | c_YELLOW | c_ROBOT_WHITE
  deriving DecidableEq, Repr

namespace Color

/-- The colors in the order of their values. -/
def all : List Color :=
  [c_UNDEFINED, c_FIELD_GREEN, c_WHITE, c_ORANGE, c_PINK, c_BLUE, c_YELLOW, c_ROBOT_WHITE]

/-- `getName` -/
def getName : Color → String
  | c_UNDEFINED => "c_UNDEFINED"
  | c_FIELD_GREEN => "c_FIELD_GREEN"
  | c_WHITE => "c_WHITE"
  | c_ORANGE => "c_ORANGE"
  | c_PINK => "c_PINK"
  | c_BLUE => "c_BLUE"
  | c_YELLOW => "c_YELLOW"
  | c_ROBOT_WHITE => "c_ROBOT_WHITE"

/-- The test for a legacy numeric color in `operator>>`. -/
def isNumber (s : String) : Bool := !s.toList.isEmpty && s.toList.all Char.isDigit

/-- The number that a row of digits stands for. -/
def number (s : String) : ℕ := s.toList.foldl (fun n d => 10 * n + (d.toNat - '0'.toNat)) 0

/-- What `operator>>` makes of a string.  A number that is no color is taken as a fault. -/
def fromString (s : String) : Except YamlFault Color :=
  let color := if isNumber s then all[number s]? else all.find? fun color => color.getName = s
  match color with
  | some color => .ok color
  | none => .error .invalidColor

end Color

/-- What `operator>>` makes of a string. -/
def CameraType.fromString (s : String) : Except YamlFault CameraType :=
  if s = "Top" ∨ s = "TOP" ∨ s = "0" then .ok top
  else if s = "Bottom" ∨ s = "BOTTOM" ∨ s = "1" then .ok bottom
  else .error .invalidCamera

/-! ## Selections -/

variable {S φ : Type} (c : Scalars S φ) (passes : ℕ)

/-- The position of a point, as vertices and center points are written. -/
def Point.entries (p : Point) : List (String × YamlNode S) := [("x", c.int p.x), ("y", c.int p.y)]

namespace SelectionShape

/-- `getSelectionType` of the classes of selections. -/
def getSelectionType : SelectionShape → SelectionType
  | .manual _ => .Manual
  | .polygon _ => .Polygon
  | .ellipse .. => .Ellipse
  | .rectangle .. => .Rectangle
  | .square .. => .Square

/-- `PolygonSelection::serialize` -/
def serializePolygon (type : SelectionType) (vertices : List Point) :
    Except YamlFault (YamlNode S) := do
  let items ← forEach 16 .endless vertices
    (appending fun _ p => .ok (.map (p.entries c))) passes 0 []
  return .map [("type", c.string type.getName), ("vertices", .seq items)]

/-- `RectangleSelection::serialize` -/
def serializeRectangle (type : SelectionType) (topleft bottomright : Point) : YamlNode S :=
  .map [("type", c.string type.getName), ("top", c.int topleft.y), ("left", c.int topleft.x),
    ("bottom", c.int bottomright.y), ("right", c.int bottomright.x)]

/-- `serialize` of the classes of selections. -/
def serialize : SelectionShape → Except YamlFault (YamlNode S)
  | .manual vertices => serializePolygon c passes .Manual vertices
  | .polygon vertices => serializePolygon c passes .Polygon vertices
  | .ellipse top left width height =>
    .ok (.map [("type", c.string "Ellipse"), ("top", c.int top), ("left", c.int left),
      ("width", c.int width), ("height", c.int height)])
  | .rectangle topleft bottomright => .ok (serializeRectangle c .Rectangle topleft bottomright)
  | .square topleft bottomright => .ok (serializeRectangle c .Square topleft bottomright)

end SelectionShape

namespace SelectionNode

/-- `PolygonSelection::deserialize` into a selection without vertices. -/
def deserializePolygon (node : YamlNode S) : Except YamlFault (List Point) := do
  let v ← node.get "vertices"
  let items ← v.elements
  forEach 16 .endless items (appending fun _ vertex => do
    let x ← Scalars.scanAt c.readInt "x" vertex
    let y ← Scalars.scanAt c.readInt "y" vertex
    return ⟨x, y⟩) passes 0 []

/-- `EllipseSelection::deserialize` -/
def deserializeEllipse (node : YamlNode S) : Except YamlFault SelectionNode := do
  let top ← Scalars.scanAt c.readInt "top" node
  let left ← Scalars.scanAt c.readInt "left" node
  let width ← Scalars.scanAt c.readInt "width" node
  let height ← Scalars.scanAt c.readInt "height" node
  return .ellipse top left width height

/-- `RectangleSelection::deserialize`; `make` makes the selection of its four sides. -/
def deserializeRectangle (make : ℤ → ℤ → ℤ → ℤ → SelectionNode) (node : YamlNode S) :
    Except YamlFault SelectionNode := do
  let top ← Scalars.scanAt c.readInt "top" node
  let left ← Scalars.scanAt c.readInt "left" node
  let right ← Scalars.scanAt c.readInt "right" node
  let bottom ← Scalars.scanAt c.readInt "bottom" node
  return make top left right bottom

/-- The body of the loop over the selections in `VisionAnnotation::deserialize`. -/
def deserialize (selection : YamlNode S) : Except YamlFault SelectionNode := do
  let type ← Scalars.scanAt c.readString "type" selection
  if type = "Manual" then return .manual (← deserializePolygon c passes selection)
  else if type = "Polygon" then return .polygon (← deserializePolygon c passes selection)
  else if type = "Ellipse" then deserializeEllipse c selection
  else if type = "Rectangle" then deserializeRectangle c .rectangle selection
  else if type = "Square" then deserializeRectangle c .square selection
  else return .unknown

end SelectionNode

/-! ## What is read of what is written -/

namespace Scalars

variable {c}

/-- A value is read from the node at its key. -/
lemma scanAt_of_lookup {α : Type} {read : S → Option α} {key : String}
    {entries : List (String × YamlNode S)} {node : YamlNode S} {x : α}
    (h : entries.lookup key = some node) (hx : scan read node = .ok x) :
    scanAt read key (.map entries) = .ok x := by
  rw [scanAt, YamlNode.get, YamlNode.findValue, h]
  exact hx

/-- An integer is read again. -/
lemma RoundTrips.scan_int (hc : c.RoundTrips) (n : ℤ) : scan c.readInt (c.int n) = .ok n := by
  rw [Scalars.int, scan, hc.int]

/-- A string is read again. -/
lemma RoundTrips.scan_string (hc : c.RoundTrips) (s : String) :
    scan c.readString (c.string s) = .ok s := by
  rw [Scalars.string, scan, hc.string]

end Scalars

namespace SelectionShape

/-- The vertices of a selection that has some. -/
def vertices : SelectionShape → List Point
  | .manual vertices => vertices
  | .polygon vertices => vertices
  | _ => []

/-- The document of a polygon. -/
def polygonDocument (type : SelectionType) (vertices : List Point) : YamlNode S :=
  .map [("type", c.string type.getName),
    ("vertices", .seq (vertices.map fun p => .map (p.entries c)))]

/-- The document of a selection. -/
def document : SelectionShape → YamlNode S
  | .manual vertices => polygonDocument c .Manual vertices
  | .polygon vertices => polygonDocument c .Polygon vertices
  | .ellipse top left width height =>
    .map [("type", c.string "Ellipse"), ("top", c.int top), ("left", c.int left),
      ("width", c.int width), ("height", c.int height)]
  | .rectangle topleft bottomright => serializeRectangle c .Rectangle topleft bottomright
  | .square topleft bottomright => serializeRectangle c .Square topleft bottomright

/-- What the document of a selection says. -/
def toNode : SelectionShape → SelectionNode
  | .manual vertices => .manual vertices
  | .polygon vertices => .polygon vertices
  | .ellipse top left width height => .ellipse top left width height
  | .rectangle topleft bottomright =>
    .rectangle topleft.y topleft.x bottomright.x bottomright.y
  | .square topleft bottomright => .square topleft.y topleft.x bottomright.x bottomright.y

/-- The node of a shape has that shape. -/
lemma shape?_toNode (shape : SelectionShape) : shape.toNode.shape? = some shape := by
  cases shape with
  | manual vertices => exact dif_pos vertices.property
  | polygon vertices => exact dif_pos vertices.property
  | ellipse => rfl
  | rectangle => rfl
  | square => rfl

variable {c} {passes}

/-- A short polygon is written as its document. -/
lemma serializePolygon_eq {vertices : List Point} (hshort : vertices.length < 2 ^ 16)
    (hpasses : vertices.length < passes) (type : SelectionType) :
    serializePolygon c passes type vertices = .ok (polygonDocument c type vertices) := by
  have hloop := forEach_appending_map (w := 16) YamlFault.endless (g := id)
    (f := fun _ p => .ok (.map (p.entries c))) (k := fun p => YamlNode.map (p.entries c)) hshort
    (fun _ _ _ => rfl) hpasses
  rw [List.map_id] at hloop
  rw [serializePolygon, hloop]
  rfl

/-- A polygon that is written is short. -/
lemma length_of_serializePolygon {vertices : List Point} {type : SelectionType} {node : YamlNode S}
    (h : serializePolygon c passes type vertices = .ok node) : vertices.length < 2 ^ 16 := by
  obtain ⟨items, hloop, -⟩ := Outcome.bind_eq_ok_iff.mp h
  exact (foldlM_of_forEach_ok hloop).1

/-- **A selection is written exactly if its vertices are few.** -/
lemma serialize_eq {shape : SelectionShape} (hshort : shape.vertices.length < 2 ^ 16)
    (hpasses : shape.vertices.length < passes) :
    shape.serialize c passes = .ok (shape.document c) := by
  cases shape with
  | manual vertices => exact serializePolygon_eq hshort hpasses _
  | polygon vertices => exact serializePolygon_eq hshort hpasses _
  | ellipse => rfl
  | rectangle => rfl
  | square => rfl

/-- A selection that is written has few vertices. -/
lemma length_of_serialize {shape : SelectionShape} {node : YamlNode S}
    (h : shape.serialize c passes = .ok node) : shape.vertices.length < 2 ^ 16 := by
  cases shape with
  | manual vertices => exact length_of_serializePolygon h
  | polygon vertices => exact length_of_serializePolygon h
  | ellipse => exact Nat.two_pow_pos 16
  | rectangle => exact Nat.two_pow_pos 16
  | square => exact Nat.two_pow_pos 16

end SelectionShape

namespace SelectionNode

open SelectionShape

variable {c} {passes}

/-- The vertices are read again. -/
lemma deserializePolygon_document (hc : c.RoundTrips) {vertices : List Point}
    (hshort : vertices.length < 2 ^ 16) (hpasses : vertices.length < passes)
    (type : SelectionType) :
    deserializePolygon c passes (polygonDocument c type vertices) = .ok vertices := by
  have hloop := forEach_appending_map (w := 16) YamlFault.endless
    (g := fun p : Point => YamlNode.map (p.entries c)) (k := id)
    (f := fun _ vertex => do
      let x ← Scalars.scanAt c.readInt "x" vertex
      let y ← Scalars.scanAt c.readInt "y" vertex
      return (⟨x, y⟩ : Point)) hshort
    (fun p _ _ => by
      have hx : Scalars.scanAt c.readInt "x" (.map (p.entries c)) = .ok p.x :=
        Scalars.scanAt_of_lookup rfl (hc.scan_int p.x)
      have hy : Scalars.scanAt c.readInt "y" (.map (p.entries c)) = .ok p.y :=
        Scalars.scanAt_of_lookup rfl (hc.scan_int p.y)
      rw [hx, hy]
      rfl) hpasses
  rw [List.map_id] at hloop
  have hvertices : (polygonDocument c type vertices).get "vertices" =
      .ok (.seq (vertices.map fun p => .map (p.entries c))) := rfl
  rw [deserializePolygon, hvertices]
  simp only [Outcome.ok_bind, YamlNode.elements]
  exact hloop

/-- The type of a rectangle or a square is read again. -/
lemma scanAt_type_rectangle (hc : c.RoundTrips) {type : SelectionType}
    {topleft bottomright : Point} :
    Scalars.scanAt c.readString "type" (serializeRectangle c type topleft bottomright) =
      .ok type.getName :=
  Scalars.scanAt_of_lookup rfl (hc.scan_string _)

/-- The corners of a rectangle or a square are read again. -/
lemma deserializeRectangle_document (hc : c.RoundTrips)
    (make : ℤ → ℤ → ℤ → ℤ → SelectionNode) (type : SelectionType) (topleft bottomright : Point) :
    deserializeRectangle c make (serializeRectangle c type topleft bottomright) =
      .ok (make topleft.y topleft.x bottomright.x bottomright.y) := by
  set node : YamlNode S := serializeRectangle c type topleft bottomright
  have htop : Scalars.scanAt c.readInt "top" node = .ok topleft.y :=
    Scalars.scanAt_of_lookup rfl (hc.scan_int _)
  have hleft : Scalars.scanAt c.readInt "left" node = .ok topleft.x :=
    Scalars.scanAt_of_lookup rfl (hc.scan_int _)
  have hright : Scalars.scanAt c.readInt "right" node = .ok bottomright.x :=
    Scalars.scanAt_of_lookup rfl (hc.scan_int _)
  have hbottom : Scalars.scanAt c.readInt "bottom" node = .ok bottomright.y :=
    Scalars.scanAt_of_lookup rfl (hc.scan_int _)
  rw [deserializeRectangle, htop, hleft, hright, hbottom]
  rfl

/-- **A selection is read as it was written.** -/
lemma deserialize_document (hc : c.RoundTrips) {shape : SelectionShape}
    (hshort : shape.vertices.length < 2 ^ 16) (hpasses : shape.vertices.length < passes) :
    deserialize c passes (shape.document c) = .ok shape.toNode := by
  cases shape with
  | manual vertices =>
    have htype : Scalars.scanAt c.readString "type" (polygonDocument c .Manual vertices) =
        .ok "Manual" := Scalars.scanAt_of_lookup rfl (hc.scan_string "Manual")
    have hvertices := deserializePolygon_document hc hshort hpasses .Manual
    rw [deserialize, document, htype, Outcome.ok_bind, if_pos rfl]
    exact congrArg (· >>= fun vertices => .ok (manual vertices)) hvertices
  | polygon vertices =>
    have htype : Scalars.scanAt c.readString "type" (polygonDocument c .Polygon vertices) =
        .ok "Polygon" := Scalars.scanAt_of_lookup rfl (hc.scan_string "Polygon")
    have hvertices := deserializePolygon_document hc hshort hpasses .Polygon
    rw [deserialize, document, htype, Outcome.ok_bind, if_neg (by decide), if_pos rfl]
    exact congrArg (· >>= fun vertices => .ok (polygon vertices)) hvertices
  | ellipse top left width height =>
    set node : YamlNode S := document c (.ellipse top left width height) with hnode
    have htype : Scalars.scanAt c.readString "type" node = .ok "Ellipse" :=
      Scalars.scanAt_of_lookup rfl (hc.scan_string "Ellipse")
    have htop : Scalars.scanAt c.readInt "top" node = .ok top :=
      Scalars.scanAt_of_lookup rfl (hc.scan_int top)
    have hleft : Scalars.scanAt c.readInt "left" node = .ok left :=
      Scalars.scanAt_of_lookup rfl (hc.scan_int left)
    have hwidth : Scalars.scanAt c.readInt "width" node = .ok width :=
      Scalars.scanAt_of_lookup rfl (hc.scan_int width)
    have hheight : Scalars.scanAt c.readInt "height" node = .ok height :=
      Scalars.scanAt_of_lookup rfl (hc.scan_int height)
    rw [deserialize, htype, Outcome.ok_bind, if_neg (by decide), if_neg (by decide), if_pos rfl,
      deserializeEllipse, htop, hleft, hwidth, hheight]
    rfl
  | rectangle topleft bottomright =>
    rw [deserialize, document, scanAt_type_rectangle hc, Outcome.ok_bind, if_neg (by decide),
      if_neg (by decide), if_neg (by decide),
      if_pos (show SelectionType.Rectangle.getName = "Rectangle" from rfl)]
    exact deserializeRectangle_document hc .rectangle .Rectangle topleft bottomright
  | square topleft bottomright =>
    rw [deserialize, document, scanAt_type_rectangle hc, Outcome.ok_bind, if_neg (by decide),
      if_neg (by decide), if_neg (by decide), if_neg (by decide),
      if_pos (show SelectionType.Square.getName = "Square" from rfl)]
    exact deserializeRectangle_document hc .square .Square topleft bottomright

end SelectionNode

end NaoSoccer
