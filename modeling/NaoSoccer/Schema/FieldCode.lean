import NaoSoccer.Schema.FieldType

/-!
# The code that is generated for a field

`allocate_field_value` and `write_value` generate the code that writes a field into a flatbuffer,
`read_value` the code that reads it back.  Each return statement of the source is a constructor
here, with the parts that are filled into its template; `text` fills them in.
-/

namespace NaoSoccer

/-! ## Code that writes -/

/-- What `allocate_field_value` generates. -/
inductive AllocCode
  | createString (allocName source : String)
  | createVector (allocName source : String)
  | createVectorData (allocName source : String)
  | compositeVector (vecName aptype itemName source : String) (suballoc : AllocCode)
    (subvarName varName : String)
  | externalSerialize (allocName qualifier source : String)
  | memberSerialize (allocName source : String)

/-- The code as it is written. -/
def AllocCode.text : AllocCode → String
  | createString allocName source =>
    "auto " ++ allocName ++ " = __serializer__->CreateString(" ++ source ++ ");"
  | createVector allocName source =>
    "auto " ++ allocName ++ " = __serializer__->CreateVector(" ++ source ++ ");"
  | createVectorData allocName source =>
    "auto " ++ allocName ++ " = __serializer__->CreateVector(" ++ source ++ ".data(), " ++ source ++
      ".size());"
  | compositeVector vecName aptype itemName source suballoc subvarName varName =>
    "\n  auto " ++ vecName ++ " = std::vector<" ++ aptype ++ ">();\n  for(const auto& " ++
      itemName ++ " : " ++ source ++ ") \x7b\n    " ++ suballoc.text ++ "\n    " ++ vecName ++
      ".push_back(" ++ subvarName ++ ");\n  \x7d\n  auto " ++ varName ++
      " = __serializer__->CreateVector(" ++ vecName ++ ");\n"
  | externalSerialize allocName qualifier source =>
    "auto " ++ allocName ++ " = schema::" ++ qualifier ++ "serialize(__serializer__, " ++ source ++
      ");"
  | memberSerialize allocName source =>
    "auto " ++ allocName ++ " = " ++ source ++ ".serialize(__serializer__);"

/-- What `write_value` generates. -/
inductive AddCode
  | addAlloc (name : String)
  | addValue (name : String)

/-- The code as it is written. -/
def AddCode.text : AddCode → String
  | addAlloc name => "__builder__.add_" ++ name ++ "(" ++ name ++ "_alloc);"
  | addValue name => "__builder__.add_" ++ name ++ "(__source_object__." ++ name ++ ");"

/-- `"%02i" % depth` -/
def twoDigits (depth : ℕ) : String := if depth < 10 then "0" ++ toString depth else toString depth

namespace SchemaType

/-- `get_allocation_pointer_type` -/
def getAllocationPointerType : SchemaType → Except GeneratorError String
  | ⟨t, external, fromDatabase, []⟩ =>
    if isContainer ⟨t, external, fromDatabase, []⟩ then .error .assertionError
    else .ok ("flatbuffers::Offset<schema::" ++ String.ofList t.text ++ ">")
  | ⟨t, external, fromDatabase, sub :: subtypes⟩ =>
    if isContainer ⟨t, external, fromDatabase, sub :: subtypes⟩ then do
      let s ← sub.getAllocationPointerType
      .ok ("flatbuffers::Offset<flatbuffers::Vector<" ++ s ++ ">>")
    else .ok ("flatbuffers::Offset<schema::" ++ String.ofList t.text ++ ">")

/-- `allocate_composite_container`, with the code that is generated for the subtype. -/
def allocateCompositeContainer (aptype : String) (suballoc : AllocCode) (name source : String)
    (depth : ℕ) : AllocCode :=
  .compositeVector (name ++ twoDigits depth ++ "_vec") aptype (name ++ twoDigits depth ++ "_item")
    source suballoc (name ++ twoDigits (depth + 1) ++ "_alloc")
    (if depth > 0 then name ++ twoDigits depth ++ "_alloc" else name ++ "_alloc")

/-- `alloc_name` -/
def allocName (name : String) (depth : ℕ) : String :=
  name ++ (if depth > 0 then twoDigits depth else "") ++ "_alloc"

/-- `allocate_field_value` for a type that is neither a string nor a container. -/
def allocateObject (st : SchemaType) (name source : String) (depth : ℕ) : AllocCode :=
  if st.isExternal then
    .externalSerialize (allocName name depth) (String.ofList st.qualifier) source
  else .memberSerialize (allocName name depth) source

/-- `allocate_field_value` -/
def allocateFieldValue (name : String) :
    SchemaType → (source : String) → (depth : ℕ) → Except GeneratorError AllocCode
  | ⟨t, external, fromDatabase, []⟩, source, depth => do
    let st : SchemaType := ⟨t, external, fromDatabase, []⟩
    if ← st.isString then .ok (.createString (allocName name depth) source)
    else if st.isContainer then .error .indexError
    else .ok (st.allocateObject name source depth)
  | ⟨t, external, fromDatabase, sub :: subtypes⟩, source, depth => do
    let st : SchemaType := ⟨t, external, fromDatabase, sub :: subtypes⟩
    if ← st.isString then .ok (.createString (allocName name depth) source)
    else if st.isContainer then
      if ← st.isPrimitiveContainer then
        if st.isVector then .ok (.createVector (allocName name depth) source)
        else .ok (.createVectorData (allocName name depth) source)
      else do
        let aptype ← sub.getAllocationPointerType
        let suballoc ← sub.allocateFieldValue name (name ++ twoDigits depth ++ "_item") (depth + 1)
        .ok (allocateCompositeContainer aptype suballoc name source depth)
    else .ok (st.allocateObject name source depth)

end SchemaType

/-! ## Code that reads -/

/-- What `read_value` generates. -/
inductive ReadCode
  | readString (name : String)
  | readEnum (name type : String)
  | readValue (name : String)
  | compositeExternal (qualifier name : String)
  | compositeInternal (qualifier name : String)
  | memberDeserialize (name : String)
  | containerDeserialize (qualifier name : String)
  | externalDeserialize (qualifier name : String)

/-- The code as it is written. -/
def ReadCode.text : ReadCode → String
  | readString name => "__target_object__." ++ name ++ " = data->" ++ name ++ "()->str();"
  | readEnum name type =>
    "__target_object__." ++ name ++ " = static_cast<" ++ type ++ ">(data->" ++ name ++ "());"
  | readValue name => "__target_object__." ++ name ++ " = data->" ++ name ++ "();"
  | compositeExternal qualifier name =>
    "schema::" ++ qualifier ++ "deserialize_composite_external(data->" ++ name ++
      "(), __target_object__." ++ name ++ ");"
  | compositeInternal qualifier name =>
    "schema::" ++ qualifier ++ "deserialize_composite_internal(data->" ++ name ++
      "(), __target_object__." ++ name ++ ");"
  | memberDeserialize name => "__target_object__." ++ name ++ ".deserialize(data->" ++ name ++ "());"
  | containerDeserialize qualifier name =>
    "schema::" ++ qualifier ++ "deserialize(data->" ++ name ++ "(), __target_object__." ++ name ++
      ");"
  | externalDeserialize qualifier name =>
    "schema::" ++ qualifier ++ "deserialize(data->" ++ name ++ "(), __target_object__." ++ name ++
      ");"

/-- A field of a schema. -/
structure SchemaField where
  name : String
  type : SchemaType

namespace SchemaField

/-- `Field.__init__` -/
def create (db : TypeDB) (t : CppType) (name : String) : SchemaField := ⟨name, db.load t⟩

/-- `allocate_field_value` -/
def allocateFieldValue (f : SchemaField) : Except GeneratorError AllocCode :=
  f.type.allocateFieldValue f.name ("__source_object__." ++ f.name) 0

/-- `is_composite` -/
def isComposite (f : SchemaField) : Except GeneratorError Bool := do
  let primitive ← f.type.isPrimitive
  .ok !primitive

/-- `is_allocated` -/
def isAllocated (f : SchemaField) : Except GeneratorError Bool := do
  if ← f.type.isString then .ok true
  else if ← f.isComposite then .ok true
  else .ok f.type.isContainer

/-- `write_value` -/
def writeValue (f : SchemaField) : Except GeneratorError AddCode := do
  if ← f.isAllocated then .ok (.addAlloc f.name)
  else if ← f.type.isPrimitive then .ok (.addValue f.name)
  else .error .assertionError

/-- `read_value` -/
def readValue (f : SchemaField) : Except GeneratorError ReadCode := do
  if ← f.type.isPrimitive then
    if ← f.type.isString then .ok (.readString f.name)
    else if f.type.enum then .ok (.readEnum f.name (String.ofList f.type.t.text))
    else .ok (.readValue f.name)
  else if f.type.isContainer then do
    let sub ← f.type.firstSubtype
    if sub.isExternal then
      .ok (.compositeExternal (String.ofList f.type.qualifier) f.name)
    else if sub.isInternal then
      .ok (.compositeInternal (String.ofList f.type.qualifier) f.name)
    else if f.type.isInternal then .ok (.memberDeserialize f.name)
    else if ← sub.isNumeric then
      .ok (.containerDeserialize (String.ofList f.type.qualifier) f.name)
    else if f.type.isExternal then
      .ok (.externalDeserialize (String.ofList f.type.qualifier) f.name)
    else .error (.exception "Error generating deserialization method call")
  else if f.type.isInternal then .ok (.memberDeserialize f.name)
  else if f.type.isExternal then
    .ok (.externalDeserialize (String.ofList f.type.qualifier) f.name)
  else .error (.exception "Error generating deserialization method call")

/-- The code that writes a field: the allocation, which is made for allocated fields only, and the
call of the builder. -/
def writeCode (f : SchemaField) : Except GeneratorError (Option AllocCode × AddCode) := do
  let add ← f.writeValue
  if ← f.isAllocated then do
    let alloc ← f.allocateFieldValue
    .ok (some alloc, add)
  else .ok (none, add)

end SchemaField

/-! ## What is written and what is read -/

/-- What a field of a flatbuffer holds. -/
inductive FieldLayout
  | value
  | string
  | internalTable
  | externalTable (qualifier : String)
  | vector (item : FieldLayout)

/-- What allocation code puts into the flatbuffer. -/
def AllocCode.layout : AllocCode → FieldLayout
  | createString _ _ => .string
  | createVector _ _ => .vector .value
  | createVectorData _ _ => .vector .value
  | compositeVector _ _ _ _ suballoc _ _ => .vector suballoc.layout
  | externalSerialize _ qualifier _ => .externalTable qualifier
  | memberSerialize _ _ => .internalTable

/-- What the code for a field puts into the flatbuffer, and under which name. -/
def writtenLayout : Option AllocCode × AddCode → Option (String × FieldLayout)
  | (some alloc, .addAlloc name) => some (name, alloc.layout)
  | (none, .addValue name) => some (name, .value)
  | _ => none

/-- The code reads a field of this name and layout.  A composite container is read item by item,
with the `deserialize` of an external or an internal class. -/
inductive ReadCode.Reads : ReadCode → String × FieldLayout → Prop
  | readString (name : String) : Reads (.readString name) (name, .string)
  | readEnum (name type : String) : Reads (.readEnum name type) (name, .value)
  | readValue (name : String) : Reads (.readValue name) (name, .value)
  | compositeExternal (qualifier name itemQualifier : String) :
    Reads (.compositeExternal qualifier name) (name, .vector (.externalTable itemQualifier))
  | compositeInternal (qualifier name : String) :
    Reads (.compositeInternal qualifier name) (name, .vector .internalTable)
  | memberDeserialize (name : String) : Reads (.memberDeserialize name) (name, .internalTable)
  | containerDeserialize (qualifier name : String) :
    Reads (.containerDeserialize qualifier name) (name, .vector .value)
  | externalDeserialize (qualifier name : String) :
    Reads (.externalDeserialize qualifier name) (name, .externalTable qualifier)

end NaoSoccer
