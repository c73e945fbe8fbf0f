import NaoSoccer.Schema.FieldCode
import Mathlib.Tactic.Common

/-!
# What is written is read

The generator decides by one chain of predicates how a field is written and by another how it is
read.  The two agree on every type but those that involve strings, since `PRIMITIVES` has the
letters of `"string"` in place of the word, and containers of classes whose name in the schema is
the name of a primitive.
-/

namespace NaoSoccer

/-! ## Names in the schema -/

/-- What `unqualified` keeps of a qualified name is a nonempty end of it. -/
lemma afterQualifier_suffix {t rest : Text} (h : afterQualifier t = some rest) :
    rest <:+ t ∧ rest ≠ [] := by
  fun_induction afterQualifier t with
  | case1 => exact nomatch h
  | case2 c cs rest' hrest' ih =>
    obtain rfl := Option.some.inj h
    obtain ⟨hsuffix, hne⟩ := ih hrest'
    exact ⟨hsuffix.trans (List.suffix_cons c cs), hne⟩
  | case3 => exact nomatch h
  | case4 d rest' =>
    obtain rfl := Option.some.inj h
    exact ⟨⟨[':', ':'], rfl⟩, List.cons_ne_nil _ _⟩
  | case5 => exact nomatch h

/-- The last character of a name is that of its unqualified form. -/
lemma getLast?_unqualified (t : Text) : (unqualified t).getLast? = t.getLast? := by
  unfold unqualified
  cases h : afterQualifier t with
  | none => rfl
  | some rest =>
    obtain ⟨⟨front, rfl⟩, hne⟩ := afterQualifier_suffix h
    rw [Option.getD_some, List.getLast?_append_of_ne_nil _ hne]

/-- A type with template arguments is not a string. -/
lemma unqualified_ne_string {t : CppType} (h : t.args ≠ []) :
    unqualified t.text ≠ "string".toList := by
  obtain ⟨name, args⟩ := t
  cases args with
  | nil => exact absurd rfl h
  | cons arg args =>
    intro heq
    have hlast := getLast?_unqualified (CppType.mk name (arg :: args)).text
    rw [heq, CppType.text, List.getLast?_concat] at hlast
    exact absurd hlast (by decide)

/-- No container is called `string`. -/
lemma unqualified_containers : ∀ name ∈ API.containers, unqualified name ≠ "string".toList := by
  decide

/-- `PRIMITIVES` lacks `"string"`. -/
lemma string_notMem_primitives : API.primitives.contains "string".toList = false := by decide

/-- The schema types of containers are not primitive. -/
lemma bracket_notMem_primitives (s : Text) : API.primitives.contains ('[' :: s) = false := by
  have hheads : ∀ p ∈ API.primitives, p.head? ≠ some '[' := by decide
  rw [Bool.eq_false_iff]
  intro h
  exact hheads _ (List.contains_iff_mem.mp h) rfl

/-- The schema types of containers are no strings. -/
lemma bracket_ne_string (s : Text) : '[' :: s ≠ "string".toList := by simp

/-- Numeric types are primitive. -/
lemma mem_primitives_of_numerics {s : Text} (h : s ∈ API.numerics) :
    API.primitives.contains s = true :=
  List.contains_iff_mem.mpr (List.mem_append_left _ h)

namespace SchemaType

/-- The schema type of a type that is not in the database is numeric. -/
lemma schemaType_mem_numerics {st : SchemaType} (h : st.fromDatabase = false) :
    st.schemaType ∈ API.numerics := by
  unfold schemaType
  cases hmapped : API.mapping.lookup (schemaSpelling st.t.text) with
  | some mapped =>
    obtain ⟨front, back, hsplit, -⟩ := List.lookup_eq_some_iff.mp hmapped
    refine List.mem_map.mpr ⟨(schemaSpelling st.t.text, mapped), ?_, rfl⟩
    rw [hsplit]
    simp
  | none =>
    rw [h]
    exact (by decide : "int".toList ∈ API.numerics)

/-! ## The schema type of each kind of type -/

/-- What is not a container is a string or has its own schema type. -/
lemma getSchemaType_of_not_container {st : SchemaType} (h : st.isContainer = false) :
    st.getSchemaType = .ok (if unqualified st.t.text = "string".toList then "string".toList
      else st.schemaType) := by
  obtain ⟨t, external, fromDatabase, subtypes⟩ := st
  cases subtypes with
  | nil =>
    rw [getSchemaType, h]
    split <;> rfl
  | cons sub subtypes =>
    rw [getSchemaType, h]
    split <;> rfl

/-- A container without a subtype has no schema type. -/
lemma getSchemaType_of_no_subtype {st : SchemaType} (h : st.isContainer = true)
    (hsub : st.subtypes = []) (hne : unqualified st.t.text ≠ "string".toList) :
    st.getSchemaType = .error .indexError := by
  obtain ⟨t, external, fromDatabase, subtypes⟩ := st
  obtain rfl : subtypes = [] := hsub
  rw [getSchemaType, if_neg hne, if_pos h]

/-- The schema type of a container is made from that of its subtype. -/
lemma getSchemaType_of_container {st sub : SchemaType} {subtypes : List SchemaType}
    (h : st.isContainer = true) (hsub : st.subtypes = sub :: subtypes)
    (hne : unqualified st.t.text ≠ "string".toList) :
    st.getSchemaType = (do
      let s ← sub.getSchemaType
      .ok ('[' :: s ++ [']'])) := by
  obtain ⟨t, external, fromDatabase, subtypes'⟩ := st
  obtain rfl : subtypes' = sub :: subtypes := hsub
  rw [getSchemaType, if_neg hne, if_pos h]

/-- A type outside of the database that is no container and no string is numeric. -/
lemma numeric_of_not_fromDatabase {st : SchemaType} {s : Text} (hs : st.getSchemaType = .ok s)
    (hcontainer : st.isContainer = false) (hstring : s ≠ "string".toList)
    (hdb : st.fromDatabase = false) : s ∈ API.numerics := by
  rw [getSchemaType_of_not_container hcontainer] at hs
  split at hs
  · exact absurd (Except.ok.inj hs).symm hstring
  · obtain rfl := Except.ok.inj hs
    exact schemaType_mem_numerics hdb

/-- What is allocated for a type that is not a container. -/
lemma allocateFieldValue_of_not_container {st : SchemaType} {s : Text}
    (hs : st.getSchemaType = .ok s) (hcontainer : st.isContainer = false) (name source : String)
    (depth : ℕ) :
    st.allocateFieldValue name source depth =
      .ok (if s = "string".toList then .createString (allocName name depth) source
        else st.allocateObject name source depth) := by
  obtain ⟨t, external, fromDatabase, subtypes⟩ := st
  by_cases hstring : s = "string".toList
  · cases subtypes <;>
      simp only [allocateFieldValue, isString, hs, Outcome.ok_bind, hstring, decide_true, if_true]
  · cases subtypes <;>
      simp only [allocateFieldValue, isString, hs, Outcome.ok_bind, decide_eq_true_eq, hstring,
        if_false, hcontainer, Bool.false_eq_true]

/-- What is allocated for a container of a primitive subtype. -/
lemma allocateFieldValue_of_primitive {st sub : SchemaType} {subtypes : List SchemaType} {s : Text}
    (hs : st.getSchemaType = .ok s) (hstring : s ≠ "string".toList)
    (hcontainer : st.isContainer = true) (hsub : st.subtypes = sub :: subtypes)
    (hprimitive : sub.isPrimitive = .ok true) (name source : String) (depth : ℕ) :
    ∃ alloc, st.allocateFieldValue name source depth = .ok alloc ∧
      alloc.layout = .vector .value := by
  obtain ⟨t, external, fromDatabase, subtypes'⟩ := st
  obtain rfl : subtypes' = sub :: subtypes := hsub
  simp only [allocateFieldValue, isString, hs, Outcome.ok_bind, decide_eq_true_eq, hstring,
    if_false, hcontainer, if_true, isPrimitiveContainer, firstSubtype, hprimitive]
  split
  · exact ⟨_, rfl, rfl⟩
  · exact ⟨_, rfl, rfl⟩

/-- What is allocated for a container of another subtype. -/
lemma allocateFieldValue_of_composite {st sub : SchemaType} {subtypes : List SchemaType} {s : Text}
    (hs : st.getSchemaType = .ok s) (hstring : s ≠ "string".toList)
    (hcontainer : st.isContainer = true) (hsub : st.subtypes = sub :: subtypes)
    (hprimitive : sub.isPrimitive = .ok false) {name source : String} {depth : ℕ}
    {alloc : AllocCode} (halloc : st.allocateFieldValue name source depth = .ok alloc) :
    ∃ item suballoc, sub.allocateFieldValue name item (depth + 1) = .ok suballoc ∧
      alloc.layout = .vector suballoc.layout := by
  obtain ⟨t, external, fromDatabase, subtypes'⟩ := st
  obtain rfl : subtypes' = sub :: subtypes := hsub
  simp only [allocateFieldValue, isString, hs, Outcome.ok_bind, decide_eq_true_eq, hstring,
    if_false, hcontainer, if_true, isPrimitiveContainer, firstSubtype, hprimitive,
    Bool.false_eq_true, Outcome.bind_eq_ok_iff] at halloc
  obtain ⟨aptype, -, suballoc, hsuballoc, heq⟩ := halloc
  obtain rfl := Except.ok.inj heq
  exact ⟨_, suballoc, hsuballoc, rfl⟩

end SchemaType

/-! ## Loaded types -/

/-- A type that is loaded by a name has no subtypes, and is external only in the database. -/
lemma TypeDB.loadName_spec (db : TypeDB) (name : List Text) :
    (db.loadName name).t = .mk name [] ∧ (db.loadName name).subtypes = [] ∧
      ((db.loadName name).external = true → (db.loadName name).fromDatabase = true) := by
  unfold loadName
  split
  · exact ⟨rfl, rfl, fun _ => rfl⟩
  · exact ⟨rfl, rfl, id⟩

/-- A type that is loaded has the subtype that the type parser finds, and is external only in the
database. -/
lemma TypeDB.load_spec (db : TypeDB) (t : CppType) :
    (db.load t).t = t ∧
      (db.load t).subtypes = (t.args.take 1).map (fun arg => db.loadName arg.name) ∧
      ((db.load t).external = true → (db.load t).fromDatabase = true) := by
  unfold load
  split
  · exact ⟨rfl, rfl, fun _ => rfl⟩
  · exact ⟨rfl, rfl, id⟩

/-- A loaded name with a schema type is not a container. -/
lemma TypeDB.isContainer_loadName {db : TypeDB} {name : List Text} {s : Text}
    (hs : (db.loadName name).getSchemaType = .ok s) : (db.loadName name).isContainer = false := by
  obtain ⟨ht, hsub, -⟩ := db.loadName_spec name
  by_contra hcontainer
  rw [Bool.not_eq_false] at hcontainer
  have hname : (db.loadName name).outerType = (db.loadName name).t.text := by
    rw [SchemaType.outerType, ht, CppType.name, CppType.text]
  have hne : unqualified (db.loadName name).t.text ≠ "string".toList := by
    rw [← hname]
    exact unqualified_containers _ (List.contains_iff_mem.mp hcontainer)
  rw [SchemaType.getSchemaType_of_no_subtype hcontainer hsub hne] at hs
  exact nomatch hs

/-- A loaded container with a schema type has a subtype with one. -/
lemma TypeDB.load_container {db : TypeDB} {t : CppType} {s : Text}
    (hs : (db.load t).getSchemaType = .ok s) (hcontainer : (db.load t).isContainer = true) :
    ∃ name s', (db.load t).subtypes = [db.loadName name] ∧
      (db.loadName name).getSchemaType = .ok s' ∧ s = '[' :: s' ++ [']'] := by
  obtain ⟨ht, hsub, -⟩ := db.load_spec t
  cases hargs : t.args with
  | nil =>
    rw [hargs] at hsub
    have hname : (db.load t).outerType = (db.load t).t.text := by
      obtain ⟨name, args⟩ := t
      obtain rfl : args = [] := hargs
      rw [SchemaType.outerType, ht, CppType.name, CppType.text]
    have hne : unqualified (db.load t).t.text ≠ "string".toList := by
      rw [← hname]
      exact unqualified_containers _ (List.contains_iff_mem.mp hcontainer)
    rw [SchemaType.getSchemaType_of_no_subtype hcontainer hsub hne] at hs
    exact nomatch hs
  | cons arg args =>
    rw [hargs] at hsub
    have hne : unqualified (db.load t).t.text ≠ "string".toList := by
      rw [ht]
      exact unqualified_ne_string (by rw [hargs]; exact List.cons_ne_nil _ _)
    rw [SchemaType.getSchemaType_of_container hcontainer hsub hne] at hs
    obtain ⟨s', hs', heq⟩ := Outcome.bind_eq_ok_iff.mp hs
    exact ⟨arg.name, s', hsub, hs', (Except.ok.inj heq).symm⟩

namespace SchemaField

/-! ## What a field is written as -/

/-- A field of a primitive type is written as a value. -/
lemma writeCode_of_primitive {f : SchemaField} {s : Text} (hs : f.type.getSchemaType = .ok s)
    (hstring : s ≠ "string".toList) (hprimitive : API.primitives.contains s = true)
    (hcontainer : f.type.isContainer = false) :
    f.writeCode = .ok (none, .addValue f.name) := by
  simp only [writeCode, writeValue, isAllocated, isComposite, SchemaType.isString,
    SchemaType.isPrimitive, hs, Outcome.ok_bind, decide_eq_true_eq, hstring, if_false, hprimitive,
    Bool.not_true, Bool.false_eq_true, hcontainer, if_true]

/-- A string, a container or a class is allocated first. -/
lemma writeCode_of_allocated {f : SchemaField} {s : Text} (hs : f.type.getSchemaType = .ok s)
    (h : s = "string".toList ∨ API.primitives.contains s = false) :
    f.writeCode = (do
      let alloc ← f.allocateFieldValue
      .ok (some alloc, .addAlloc f.name)) := by
  have hallocated : f.isAllocated = .ok true := by
    rcases h with hstring | hprimitive
    · simp only [isAllocated, SchemaType.isString, hs, Outcome.ok_bind, hstring, decide_true,
        if_true]
    · simp only [isAllocated, isComposite, SchemaType.isString, SchemaType.isPrimitive, hs,
        Outcome.ok_bind, hprimitive, Bool.not_false, if_true, ite_self]
  simp only [writeCode, writeValue, hallocated, Outcome.ok_bind, if_true]

/-- Code is only generated for types with a schema type. -/
lemma exists_schemaType {f : SchemaField} {code : Option AllocCode × AddCode}
    (hw : f.writeCode = .ok code) : ∃ s, f.type.getSchemaType = .ok s := by
  cases hs : f.type.getSchemaType with
  | ok s => exact ⟨s, rfl⟩
  | error e =>
    simp only [writeCode, writeValue, isAllocated, SchemaType.isString, hs,
      Outcome.error_bind] at hw
    exact nomatch hw

/-! ## What a field is read as -/

/-- The code that reads the field reads what the other code has written. -/
def ReadsBack (f : SchemaField) (code : Option AllocCode × AddCode) : Prop :=
  ∃ read layout, f.readValue = .ok read ∧ writtenLayout code = some layout ∧ read.Reads layout

/-- The types that are read as they are written: no string and, for a container, no strings in it
and no items that are primitive by their name in the schema only. -/
def Covered (f : SchemaField) : Prop :=
  f.type.isString = .ok false ∧
    (f.type.isContainer = true → ∀ item, f.type.firstSubtype = .ok item →
      item.isString = .ok false ∧
        (item.isPrimitive = .ok true →
          item.fromDatabase = false ∧ f.type.isInternal = false))

/-- What is read for a type that is neither primitive nor a container. -/
lemma readValue_of_object {f : SchemaField} {s : Text} (hs : f.type.getSchemaType = .ok s)
    (hprimitive : API.primitives.contains s = false) (hcontainer : f.type.isContainer = false) :
    f.readValue =
      if f.type.isInternal then .ok (.memberDeserialize f.name)
      else if f.type.isExternal then
        .ok (.externalDeserialize (String.ofList f.type.qualifier) f.name)
      else .error (.exception "Error generating deserialization method call") := by
  simp only [readValue, SchemaType.isPrimitive, hs, Outcome.ok_bind, hprimitive,
    Bool.false_eq_true, if_false, hcontainer]

/-- What is read for a container. -/
lemma readValue_of_container {f : SchemaField} {s s' : Text} {sub : SchemaType}
    (hs : f.type.getSchemaType = .ok s) (hprimitive : API.primitives.contains s = false)
    (hcontainer : f.type.isContainer = true) (hsub : f.type.subtypes = [sub])
    (hs' : sub.getSchemaType = .ok s') :
    f.readValue =
      if sub.isExternal then .ok (.compositeExternal (String.ofList f.type.qualifier) f.name)
      else if sub.isInternal then .ok (.compositeInternal (String.ofList f.type.qualifier) f.name)
      else if f.type.isInternal then .ok (.memberDeserialize f.name)
      else if API.numerics.contains s' then
        .ok (.containerDeserialize (String.ofList f.type.qualifier) f.name)
      else if f.type.isExternal then
        .ok (.externalDeserialize (String.ofList f.type.qualifier) f.name)
      else .error (.exception "Error generating deserialization method call") := by
  have hfirst : f.type.firstSubtype = .ok sub := by rw [SchemaType.firstSubtype, hsub]
  simp only [readValue, SchemaType.isPrimitive, hs, Outcome.ok_bind, hprimitive,
    Bool.false_eq_true, if_false, hcontainer, if_true, hfirst, SchemaType.isNumeric, hs']

/-- No branch of the reader reads a string. -/
lemma not_readsBack_string {f : SchemaField} (hcontainer : f.type.isContainer = false)
    (hs : f.type.getSchemaType = .ok "string".toList) {code : Option AllocCode × AddCode}
    (hw : f.writeCode = .ok code) : ¬ f.ReadsBack code := by
  have halloc := SchemaType.allocateFieldValue_of_not_container hs hcontainer f.name
    ("__source_object__." ++ f.name) 0
  rw [writeCode_of_allocated hs (.inl rfl), SchemaField.allocateFieldValue, halloc,
    if_pos rfl, Outcome.ok_bind] at hw
  obtain rfl := Except.ok.inj hw
  rintro ⟨read, layout, hread, hlayout, hreads⟩
  obtain rfl := Option.some.inj hlayout
  rw [readValue_of_object hs string_notMem_primitives hcontainer] at hread
  split at hread
  · obtain rfl := Except.ok.inj hread
    exact nomatch hreads
  · split at hread
    · obtain rfl := Except.ok.inj hread
      exact nomatch hreads
    · exact nomatch hread

/-- A primitive type is read as the value that it is written as. -/
lemma readsBack_primitive {f : SchemaField} {s : Text} (hs : f.type.getSchemaType = .ok s)
    (hcontainer : f.type.isContainer = false) (hstring : s ≠ "string".toList)
    (hprimitive : API.primitives.contains s = true) {code : Option AllocCode × AddCode}
    (hw : f.writeCode = .ok code) : f.ReadsBack code := by
  rw [writeCode_of_primitive hs hstring hprimitive hcontainer] at hw
  obtain rfl := Except.ok.inj hw
  simp only [ReadsBack, readValue, SchemaType.isPrimitive, SchemaType.isString, hs,
    Outcome.ok_bind, hprimitive, if_true, decide_eq_true_eq, hstring, if_false]
  split
  · exact ⟨_, _, rfl, rfl, .readEnum _ _⟩
  · exact ⟨_, _, rfl, rfl, .readValue _⟩

/-- A class of the database is read as it is written. -/
lemma readsBack_object {f : SchemaField} {s : Text} (hs : f.type.getSchemaType = .ok s)
    (hcontainer : f.type.isContainer = false) (hstring : s ≠ "string".toList)
    (hprimitive : API.primitives.contains s = false) {code : Option AllocCode × AddCode}
    (hw : f.writeCode = .ok code) : f.ReadsBack code := by
  have hdb : f.type.fromDatabase = true := by
    by_contra hdb
    rw [mem_primitives_of_numerics (SchemaType.numeric_of_not_fromDatabase hs hcontainer hstring
      (by simpa using hdb))] at hprimitive
    exact nomatch hprimitive
  have halloc := SchemaType.allocateFieldValue_of_not_container hs hcontainer f.name
    ("__source_object__." ++ f.name) 0
  rw [writeCode_of_allocated hs (.inr hprimitive), SchemaField.allocateFieldValue, halloc,
    if_neg hstring, Outcome.ok_bind] at hw
  obtain rfl := Except.ok.inj hw
  have hread := readValue_of_object hs hprimitive hcontainer
  by_cases hext : f.type.external = true
  · simp only [SchemaType.isInternal, hdb, hext, SchemaType.isExternal, Bool.not_true,
      Bool.and_false, Bool.false_eq_true, if_false, if_true] at hread
    refine ⟨_, (f.name, .externalTable (String.ofList f.type.qualifier)), hread, ?_,
      .externalDeserialize _ _⟩
    simp only [writtenLayout, SchemaType.allocateObject, SchemaType.isExternal, hext, if_true,
      AllocCode.layout]
  · simp only [SchemaType.isInternal, hdb, hext, Bool.not_false, Bool.and_self,
      if_true] at hread
    refine ⟨_, (f.name, .internalTable), hread, ?_, .memberDeserialize _⟩
    simp only [writtenLayout, SchemaType.allocateObject, SchemaType.isExternal, hext,
      Bool.false_eq_true, if_false, AllocCode.layout]

/-- A container of primitives is read as it is written unless the item, or the container itself as
an internal type, is in the database. -/
lemma readsBack_container_primitive {f : SchemaField} {s s' : Text} {sub : SchemaType}
    (hs : f.type.getSchemaType = .ok ('[' :: s)) (hcontainer : f.type.isContainer = true)
    (hsub : f.type.subtypes = [sub]) (hs' : sub.getSchemaType = .ok s')
    (hsubContainer : sub.isContainer = false)
    (hexternal : sub.external = true → sub.fromDatabase = true)
    (hprimitive : API.primitives.contains s' = true) {code : Option AllocCode × AddCode}
    (hw : f.writeCode = .ok code) :
    f.ReadsBack code ↔ sub.fromDatabase = false ∧ f.type.isInternal = false := by
  have hsubPrimitive : sub.isPrimitive = .ok true := by
    rw [SchemaType.isPrimitive, hs', Outcome.ok_bind, hprimitive]
  obtain ⟨alloc, halloc, hlayout⟩ := SchemaType.allocateFieldValue_of_primitive hs
    (bracket_ne_string s) hcontainer hsub hsubPrimitive f.name ("__source_object__." ++ f.name) 0
  rw [writeCode_of_allocated hs (.inr (bracket_notMem_primitives s)),
    SchemaField.allocateFieldValue, halloc, Outcome.ok_bind] at hw
  obtain rfl := Except.ok.inj hw
  have hread := readValue_of_container hs (bracket_notMem_primitives s) hcontainer hsub hs'
  constructor
  · rintro ⟨read, layout, hread', hwritten, hreads⟩
    rw [writtenLayout, hlayout] at hwritten
    obtain rfl := Option.some.inj hwritten
    rw [hread] at hread'
    by_cases hext : sub.isExternal = true
    · rw [if_pos hext] at hread'
      obtain rfl := Except.ok.inj hread'
      exact nomatch hreads
    · rw [if_neg hext] at hread'
      by_cases hint : sub.isInternal = true
      · rw [if_pos hint] at hread'
        obtain rfl := Except.ok.inj hread'
        exact nomatch hreads
      · rw [if_neg hint] at hread'
        by_cases hself : f.type.isInternal = true
        · rw [if_pos hself] at hread'
          obtain rfl := Except.ok.inj hread'
          exact nomatch hreads
        · rw [SchemaType.isExternal, Bool.not_eq_true] at hext
          rw [SchemaType.isInternal, hext, Bool.not_false, Bool.and_true, Bool.not_eq_true] at hint
          exact ⟨hint, by simpa using hself⟩
  · rintro ⟨hdb, hself⟩
    have hext : sub.isExternal = false := by
      by_contra hext
      rw [hexternal (by simpa [SchemaType.isExternal] using hext)] at hdb
      exact nomatch hdb
    have hstring : s' ≠ "string".toList := by
      rintro rfl
      rw [string_notMem_primitives] at hprimitive
      exact nomatch hprimitive
    have hnumeric := List.contains_iff_mem.mpr
      (SchemaType.numeric_of_not_fromDatabase hs' hsubContainer hstring hdb)
    have hint : sub.isInternal = false := by
      rw [SchemaType.isInternal, hdb, Bool.false_and]
    simp only [hext, hint, hself, hnumeric, Bool.false_eq_true, if_false, if_true] at hread
    refine ⟨_, (f.name, alloc.layout), hread, rfl, ?_⟩
    rw [hlayout]
    exact .containerDeserialize _ _

/-- A container of other items is read as it is written unless they are strings. -/
lemma readsBack_container_composite {f : SchemaField} {s s' : Text} {sub : SchemaType}
    (hs : f.type.getSchemaType = .ok ('[' :: s)) (hcontainer : f.type.isContainer = true)
    (hsub : f.type.subtypes = [sub]) (hs' : sub.getSchemaType = .ok s')
    (hsubContainer : sub.isContainer = false)
    (hprimitive : API.primitives.contains s' = false) {code : Option AllocCode × AddCode}
    (hw : f.writeCode = .ok code) : f.ReadsBack code ↔ s' ≠ "string".toList := by
  have hsubPrimitive : sub.isPrimitive = .ok false := by
    rw [SchemaType.isPrimitive, hs', Outcome.ok_bind, hprimitive]
  rw [writeCode_of_allocated hs (.inr (bracket_notMem_primitives s)),
    Outcome.bind_eq_ok_iff] at hw
  obtain ⟨alloc, halloc, hcode⟩ := hw
  obtain rfl := Except.ok.inj hcode
  obtain ⟨item, suballoc, hsuballoc, hlayout⟩ :=
    SchemaType.allocateFieldValue_of_composite hs (bracket_ne_string s) hcontainer hsub
      hsubPrimitive halloc
  rw [SchemaType.allocateFieldValue_of_not_container hs' hsubContainer] at hsuballoc
  obtain rfl := Except.ok.inj hsuballoc
  have hread := readValue_of_container hs (bracket_notMem_primitives s) hcontainer hsub hs'
  by_cases hstring : s' = "string".toList
  · refine iff_of_false ?_ (fun h => h hstring)
    rintro ⟨read, layout, hread', hwritten, hreads⟩
    rw [writtenLayout, hlayout, if_pos hstring] at hwritten
    obtain rfl := Option.some.inj hwritten
    rw [hread] at hread'
    have hnumeric : API.numerics.contains s' = false := by
      rw [Bool.eq_false_iff]
      intro hmem
      rw [mem_primitives_of_numerics (List.contains_iff_mem.mp hmem)] at hprimitive
      exact nomatch hprimitive
    rw [hnumeric] at hread'
    repeat'
      split at hread'
    all_goals
      first
      | (obtain rfl := Except.ok.inj hread'; exact nomatch hreads)
      | exact nomatch hread'
  · refine iff_of_true ?_ hstring
    have hdb : sub.fromDatabase = true := by
      by_contra hdb
      rw [mem_primitives_of_numerics (SchemaType.numeric_of_not_fromDatabase hs' hsubContainer
        hstring (by simpa using hdb))] at hprimitive
      exact nomatch hprimitive
    rw [if_neg hstring, SchemaType.allocateObject] at hlayout
    by_cases hext : sub.isExternal = true
    · rw [if_pos hext] at hread hlayout
      refine ⟨_, (f.name, alloc.layout), hread, rfl, ?_⟩
      rw [hlayout]
      exact .compositeExternal _ _ _
    · have hint : sub.isInternal = true := by
        rw [SchemaType.isExternal, Bool.not_eq_true] at hext
        rw [SchemaType.isInternal, hdb, hext]
        rfl
      rw [if_neg hext, if_pos hint] at hread
      rw [if_neg hext] at hlayout
      refine ⟨_, (f.name, alloc.layout), hread, rfl, ?_⟩
      rw [hlayout]
      exact .compositeInternal _ _

/-- Which containers are covered. -/
lemma covered_iff_of_container {f : SchemaField} {s s' : Text} {sub : SchemaType}
    (hs : f.type.getSchemaType = .ok ('[' :: s)) (hcontainer : f.type.isContainer = true)
    (hsub : f.type.subtypes = [sub]) (hs' : sub.getSchemaType = .ok s') :
    f.Covered ↔ s' ≠ "string".toList ∧ (API.primitives.contains s' = true →
      sub.fromDatabase = false ∧ f.type.isInternal = false) := by
  have hfirst : f.type.firstSubtype = .ok sub := by rw [SchemaType.firstSubtype, hsub]
  have hne : '[' :: s ≠ "string".toList := bracket_ne_string s
  simp only [Covered, hcontainer, forall_const, hfirst, Except.ok.injEq, forall_eq',
    SchemaType.isString, SchemaType.isPrimitive, hs, hs', Outcome.ok_bind,
    decide_eq_false_iff_not, hne, not_false_eq_true, true_and, ne_eq]

/-- Which other types are covered. -/
lemma covered_iff_of_not_container {f : SchemaField} {s : Text}
    (hs : f.type.getSchemaType = .ok s) (hcontainer : f.type.isContainer = false) :
    f.Covered ↔ s ≠ "string".toList := by
  simp only [Covered, SchemaType.isString, hs, Outcome.ok_bind, Except.ok.injEq,
    decide_eq_false_iff_not, hcontainer, Bool.false_eq_true, IsEmpty.forall_iff, and_true, ne_eq]

end SchemaField

/-- **A field is read as it is written exactly if its type is covered.** -/
theorem generated_readsBack_iff (db : TypeDB) (t : CppType) (name : String)
    {code : Option AllocCode × AddCode} (hw : (SchemaField.create db t name).writeCode = .ok code) :
    (SchemaField.create db t name).ReadsBack code ↔ (SchemaField.create db t name).Covered := by
  obtain ⟨s, hs⟩ := SchemaField.exists_schemaType hw
  cases hcontainer : (SchemaField.create db t name).type.isContainer with
  | true =>
    obtain ⟨item, s', hsub, hs', rfl⟩ := TypeDB.load_container hs hcontainer
    obtain ⟨-, -, hexternal⟩ := db.loadName_spec item
    have hsubContainer := TypeDB.isContainer_loadName hs'
    rw [SchemaField.covered_iff_of_container hs hcontainer hsub hs']
    cases hmem : API.primitives.contains s' with
    | true =>
      have hne : s' ≠ "string".toList := by
        rintro rfl
        rw [string_notMem_primitives] at hmem
        exact nomatch hmem
      rw [SchemaField.readsBack_container_primitive hs hcontainer hsub hs' hsubContainer hexternal
        hmem hw, and_iff_right hne, imp_iff_right rfl]
    | false =>
      rw [SchemaField.readsBack_container_composite hs hcontainer hsub hs' hsubContainer hmem hw,
        and_iff_left fun h => nomatch h]
  | false =>
    rw [SchemaField.covered_iff_of_not_container hs hcontainer]
    by_cases hne : s = "string".toList
    · subst hne
      exact iff_of_false (SchemaField.not_readsBack_string hcontainer hs hw) fun h => h rfl
    · refine iff_of_true ?_ hne
      cases hprimitive : API.primitives.contains s with
      | true => exact SchemaField.readsBack_primitive hs hcontainer hne hprimitive hw
      | false => exact SchemaField.readsBack_object hs hcontainer hne hprimitive hw

/-- `std::array<WorldObject,NUM_WORLD_OBJS>` -/
def worldObjects : CppType :=
  .mk ["std".toList, "array".toList]
    [.mk ["WorldObject".toList] [], .mk ["NUM_WORLD_OBJS".toList] []]

/-- An array of a class of the database is read as it is written. -/
theorem generated_readsBack_array : ∃ code,
    (SchemaField.create ⟨[(.mk ["WorldObject".toList] [], false)]⟩ worldObjects
      "objects_").writeCode = .ok code ∧
    (SchemaField.create ⟨[(.mk ["WorldObject".toList] [], false)]⟩ worldObjects
      "objects_").ReadsBack code := by
  refine ⟨_, rfl, (generated_readsBack_iff ⟨[(.mk ["WorldObject".toList] [], false)]⟩
    worldObjects "objects_" rfl).mpr ⟨rfl, fun _ item hitem => ?_⟩⟩
  obtain rfl := Except.ok.inj hitem
  exact ⟨rfl, fun h => absurd (Except.ok.inj h) (by decide)⟩

/-- **Code is generated that writes a string, but none that reads it.** -/
theorem generated_string_not_read : ∃ code,
    (SchemaField.create ⟨[]⟩ (.mk ["std".toList, "string".toList] []) "label").writeCode =
      .ok code ∧
    (SchemaField.create ⟨[]⟩ (.mk ["std".toList, "string".toList] []) "label").readValue =
      .error (.exception "Error generating deserialization method call") ∧
    ¬ (SchemaField.create ⟨[]⟩ (.mk ["std".toList, "string".toList] []) "label").ReadsBack
      code := by
  refine ⟨_, rfl, rfl, ?_⟩
  rintro ⟨read, layout, hread, -⟩
  exact nomatch hread

end NaoSoccer
