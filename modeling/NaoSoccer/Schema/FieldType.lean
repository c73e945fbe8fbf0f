import NaoSoccer.Foundation.Outcome
import NaoSoccer.Foundation.Text

/-!
# The types of schema fields

The schema generator is given the fields of a class as C++ types.  A type is modelled by its
structure, a qualified identifier with template arguments, from which its spelling follows.  What
`type_parser.parse` finds in a spelling is the outer identifier and, as the only subtype, the outer
identifier of the first template argument: its lookup of `TemplateArg` stops at the first level of
the parse tree that has one, and the later arguments lie deeper.

A type is a string, a container, a primitive (also an enumeration), or a class that the type
database lists as internal or external.  The methods that decide this go through
`get_schema_type`, which fails for a container without a subtype.
-/

namespace NaoSoccer

/-- A C++ type: a qualified identifier and template arguments, of which there may be none. -/
inductive CppType
  | mk (name : List Text) (args : List CppType)

namespace CppType

/-- The parts of the outer identifier. -/
def name : CppType → List Text
  | mk name _ => name

/-- The template arguments. -/
def args : CppType → List CppType
  | mk _ args => args

/-- A qualified identifier as it is spelled. -/
def nameText (name : List Text) : Text := List.intercalate "::".toList name

mutual

/-- A type as it is spelled. -/
def text : CppType → Text
  | mk name [] => nameText name
  | mk name (arg :: args) => nameText name ++ ('<' :: (arg.text ++ argsText args)) ++ ['>']

/-- The template arguments behind the first one. -/
def argsText : List CppType → Text
  | [] => []
  | arg :: args => ',' :: (arg.text ++ argsText args)

end

end CppType

/-! ## The interface to flatbuffers -/

namespace API

/-- `CONTAINERS` -/
def containers : List Text :=
  ["std::array".toList, "std::list".toList, "std::vector".toList, "std::set".toList]

/-- `MAPPING` -/
def mapping : List (Text × Text) :=
  [("int8_t".toList, "byte".toList), ("uint8_t".toList, "ubyte".toList),
    ("int16_t".toList, "short".toList), ("uint16_t".toList, "ushort".toList),
    ("int32_t".toList, "int".toList), ("uint32_t".toList, "uint".toList),
    ("int64_t".toList, "long".toList), ("uint64_t".toList, "ulong".toList),
    ("bool".toList, "bool".toList), ("char".toList, "byte".toList),
    ("short".toList, "short".toList), ("int".toList, "int".toList),
    ("float".toList, "float".toList), ("double".toList, "double".toList)]

/-- `NUMERICS` -/
def numerics : List Text := mapping.map Prod.snd

/-- `PRIMITIVES`: the union of a set with a string adds the letters of the string. -/
def primitives : List Text := numerics ++ "string".toList.map fun c => [c]

end API

/-! ## Types of the generator -/

/-- The ways in which the generator raises. -/
inductive GeneratorError
  | indexError
  | assertionError
  | exception (message : String)
  deriving DecidableEq, Repr

/-- The type database: the types that have a schema, each with its designation as external. -/
structure TypeDB where
  types : List (CppType × Bool)

/-- The part behind the last `::` that something other than a colon follows, if there is one. -/
def afterQualifier : Text → Option Text
  | [] => none
  | c :: cs =>
    match afterQualifier cs with
    | some rest => some rest
    | none =>
      match c, cs with
      | ':', ':' :: d :: rest => if d = ':' then none else some (d :: rest)
      | _, _ => none

/-- `unqualified` -/
def unqualified (t : Text) : Text := (afterQualifier t).getD t

/-- `replace("::", ".")` -/
def dotted : Text → Text
  | ':' :: ':' :: cs => '.' :: dotted cs
  | c :: cs => c :: dotted cs
  | [] => []

/-- A type as the generator spells it in a schema, before the mapping. -/
def schemaSpelling (t : Text) : Text :=
  ((dotted t).map fun c => if c = '<' ∨ c = '>' ∨ c = ',' then '_' else c).filter (· ≠ ' ')

/-- A type of the generator. -/
structure SchemaType where
  t : CppType
  external : Bool
  fromDatabase : Bool
  subtypes : List SchemaType

namespace SchemaType

/-- `outer_type` -/
def outerType (st : SchemaType) : Text := CppType.nameText st.t.name

/-- `schema_type`: what is not mapped is the name of a class in the database, and an enumeration,
that is an `int`, elsewhere. -/
def schemaType (st : SchemaType) : Text :=
  match API.mapping.lookup (schemaSpelling st.t.text) with
  | some mapped => mapped
  | none => if st.fromDatabase then schemaSpelling st.t.text else "int".toList

/-- `enum` -/
def enum (st : SchemaType) : Bool :=
  (API.mapping.lookup (schemaSpelling st.t.text)).isNone && !st.fromDatabase

/-- `is_container` -/
def isContainer (st : SchemaType) : Bool := API.containers.contains st.outerType

/-- `is_vector` -/
def isVector (st : SchemaType) : Bool := st.outerType = "std::vector".toList

/-- `is_external` -/
def isExternal (st : SchemaType) : Bool := st.external

/-- `is_internal` -/
def isInternal (st : SchemaType) : Bool := st.fromDatabase && !st.external

/-- `qualifier`: the outer identifier up to its last `::`. -/
def qualifier (st : SchemaType) : Text :=
  if st.t.name.length ≤ 1 then []
  else CppType.nameText st.t.name.dropLast ++ "::".toList

/-- `get_schema_type` -/
def getSchemaType : SchemaType → Except GeneratorError Text
  | ⟨t, external, fromDatabase, []⟩ =>
    if unqualified t.text = "string".toList then .ok "string".toList
    else if isContainer ⟨t, external, fromDatabase, []⟩ then .error .indexError
    else .ok (schemaType ⟨t, external, fromDatabase, []⟩)
  | ⟨t, external, fromDatabase, sub :: subtypes⟩ =>
    if unqualified t.text = "string".toList then .ok "string".toList
    else if isContainer ⟨t, external, fromDatabase, sub :: subtypes⟩ then do
      let s ← sub.getSchemaType
      .ok ('[' :: s ++ [']'])
    else .ok (schemaType ⟨t, external, fromDatabase, sub :: subtypes⟩)

/-- `is_string` -/
def isString (st : SchemaType) : Except GeneratorError Bool := do
  let s ← st.getSchemaType
  .ok (s = "string".toList)

/-- `is_primitive` -/
def isPrimitive (st : SchemaType) : Except GeneratorError Bool := do
  let s ← st.getSchemaType
  .ok (API.primitives.contains s)

/-- `is_numeric` -/
def isNumeric (st : SchemaType) : Except GeneratorError Bool := do
  let s ← st.getSchemaType
  .ok (API.numerics.contains s)

/-- `subtypes[0]` -/
def firstSubtype (st : SchemaType) : Except GeneratorError SchemaType :=
  match st.subtypes with
  | [] => .error .indexError
  | sub :: _ => .ok sub

/-- `is_primitive_container` -/
def isPrimitiveContainer (st : SchemaType) : Except GeneratorError Bool :=
  if st.isContainer then do
    let sub ← st.firstSubtype
    sub.isPrimitive
  else .ok false

end SchemaType

/-- `Type.load` of a name without template arguments. -/
def TypeDB.loadName (db : TypeDB) (name : List Text) : SchemaType :=
  match db.types.find? fun entry => entry.1.text = CppType.nameText name with
  | some entry => ⟨.mk name [], entry.2, true, []⟩
  | none => ⟨.mk name [], false, false, []⟩

/-- `Type.load`: the entry of the database, or else a new type; the subtype is loaded by the name
that the type parser gives it. -/
def TypeDB.load (db : TypeDB) (t : CppType) : SchemaType :=
  let subtypes := (t.args.take 1).map fun arg => db.loadName arg.name
  match db.types.find? fun entry => entry.1.text = t.text with
  | some entry => ⟨t, entry.2, true, subtypes⟩
  | none => ⟨t, false, false, subtypes⟩

end NaoSoccer
