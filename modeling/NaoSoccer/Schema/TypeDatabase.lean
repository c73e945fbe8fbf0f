import NaoSoccer.Foundation.Dictionary
import NaoSoccer.Schema.Tokenizer
import Mathlib.Data.List.DropRight

/-!
# The file of the type database

The generator keeps the types that have a schema in a file, one line for each: the name, a comma,
and whether the type is external.  `Type.write_db` leaves a file as it is when it lists the same
types, and `TypeDB.__eq__` compares dictionaries of types, which are equal when their names are.  So
a type that has changed from internal to external, or back, keeps its old designation.

The file is read line by line.  A name with a comma, such as that of a type with two template
arguments, makes `split(',')` return three fields, and `read` raises a `ValueError`; so does one
with a newline.  White space in front of a name is stripped.

Of a type only the name and the designation matter here, and that its constructor has returned: it
parses the name, and loads the subtypes that it finds in it from the database or constructs them.
The names of the subtypes are a parameter, and so is the order of the values of a dictionary.
-/

namespace NaoSoccer

namespace TypeDatabase

open Dictionary
open SchemaTokenizer (isSpaceChar)
open scoped List

/-! ## The source's operations -/

/-- `TypeDB.types`: for every name whether the type is external. -/
abbrev Database := AList fun _ : Text => Bool

section Constructor

-- `type_parser.parse`: the names of the subtypes, or nothing if it finds no type
variable (subtypeNames : Text → Option (List Text))

/-- `Type.__init__` returns, with this many nested calls and the given names in `Type.db`. -/
def constructs : ℕ → (Text → Bool) → Text → Bool
  | 0, _, _ => false
  | depth + 1, loaded, t =>
    match subtypeNames t with
    | none => false
    -- `Type.load`
    | some names => names.all fun name => loaded name || constructs depth loaded name

variable (depth : ℕ)

/-- A `Type` that the generator has constructed; its database is empty when it builds one. -/
structure NamedType where
  /-- The full name. -/
  t : Text
  /-- The designation. -/
  external : Bool
  /-- The constructor has returned. -/
  constructed : constructs subtypeNames depth (fun _ => false) t = true

end Constructor

/-- The order in which a dictionary lists its values. -/
structure DictOrder where
  /-- `values` -/
  values : Database → List (Text × Bool)
  /-- Each value is listed once. -/
  perm : ∀ db, values db ~ db.entries.map fun entry => (entry.1, entry.2)

/-- The designation in a file. -/
def designation (external : Bool) : Text :=
  if external then "external".toList else "internal".toList

/-- A line of a file without the newline. -/
def line (entry : Text × Bool) : Text := entry.1 ++ ',' :: designation entry.2

/-- `TypeDB.write` -/
def write (order : DictOrder) (db : Database) : Text :=
  (order.values db).flatMap fun entry => line entry ++ ['\n']

/-- `strip` -/
def strip (s : Text) : Text := (s.dropWhile isSpaceChar).rdropWhile isSpaceChar

/-- `split(',')`, where two fields are expected. -/
def fields (s : Text) : Option (Text × Text) :=
  match s.dropWhile (· ≠ ',') with
  | [] => none
  | _ :: rest => if ',' ∈ rest then none else some (s.takeWhile (· ≠ ','), rest)

/-- The entry of a line. -/
def entryOf (s : Text) : Option (Text × Bool) :=
  (fields (strip s)).map fun entry => (entry.1, entry.2 == "external".toList)

section Read

variable (subtypeNames : Text → Option (List Text)) (depth : ℕ)

/-- The body of the loop in `TypeDB.read`; `typeDb` is `Type.db` then. -/
def readLine (typeDb : Database → Database) (db : Database) (s : Text) : Option Database :=
  (entryOf s).bind fun entry =>
    if constructs subtypeNames depth (fun name => ((typeDb db).lookup name).isSome) entry.1 then
      some (db.insert entry.1 entry.2)
    else none

/-- `TypeDB.read` of a file, into an empty database. -/
def read (typeDb : Database → Database) (content : Text) : Option Database :=
  (split content '\n').foldlM (readLine subtypeNames depth typeDb) ∅

/-- `TypeDB.init` of an empty database. -/
def init (types : List (NamedType subtypeNames depth)) : Database :=
  store ∅ (types.map fun t => (t.t, t.external))

/-- `Type.write_db`: what the file holds then, unless it raises; without a file, `read` raises an
`IOError`, which is caught. -/
def writeDb (order : DictOrder) (types : List (NamedType subtypeNames depth)) :
    Option Text → Option Text
  | none => some (write order (init subtypeNames depth types))
  | some content =>
    (read subtypeNames depth (fun _ => init subtypeNames depth types) content).map fun db =>
      if SameKeys db (init subtypeNames depth types) then content
      else write order (init subtypeNames depth types)

/-- `Type.read_db` of a file, with an empty `Type.db`: the database is the one that is read. -/
def readDb (content : Text) : Option Database := read subtypeNames depth id content

end Read

/-! ## Lines -/

/-- A name can stand in a line: it has no comma and no newline, and no white space in front. -/
structure Clean (t : Text) : Prop where
  comma : ',' ∉ t
  newline : '\n' ∉ t
  head : ∀ c, t.head? = some c → isSpaceChar c = false

/-- Two fields are those in front of the only comma and behind it. -/
lemma fields_eq_some_iff {s t rest : Text} :
    fields s = some (t, rest) ↔ s = t ++ ',' :: rest ∧ ',' ∉ t ∧ ',' ∉ rest := by
  have hsplit := List.takeWhile_append_dropWhile (p := (· ≠ ',')) (l := s)
  constructor
  · intro h
    rw [fields] at h
    split at h
    · exact absurd h (by simp)
    next c rest' hdrop =>
      obtain rfl : c = ',' := by
        have hne : s.dropWhile (· ≠ ',') ≠ [] := hdrop ▸ List.cons_ne_nil _ _
        have hnot := List.head_dropWhile_not (· ≠ ',') hne
        simp only [hdrop, List.head_cons] at hnot
        simpa using hnot
      split at h
      · exact absurd h (by simp)
      next hrest =>
        obtain ⟨rfl, rfl⟩ := Prod.mk.inj (Option.some.inj h)
        refine ⟨?_, fun hmem => ?_, hrest⟩
        · rw [← hdrop, hsplit]
        · exact absurd (List.mem_takeWhile_imp hmem) (by simp)
  · rintro ⟨rfl, ht, hrest⟩
    have hall : ∀ c ∈ t, decide (c ≠ ',') = true := fun c hc =>
      decide_eq_true fun heq => ht (heq ▸ hc)
    have hdrop : (t ++ ',' :: rest).dropWhile (· ≠ ',') = ',' :: rest := by
      rw [List.dropWhile_append_of_pos hall, List.dropWhile_cons_of_neg (by simp)]
    have htake : (t ++ ',' :: rest).takeWhile (· ≠ ',') = t := by
      rw [List.takeWhile_append_of_pos hall, List.takeWhile_cons_of_neg (by simp), List.append_nil]
    rw [fields, hdrop, htake]
    exact if_neg hrest

/-- What is left of a stripped text has no white space in front. -/
lemma not_isSpaceChar_of_strip {s : Text} {c : Char} (h : (strip s).head? = some c) :
    isSpaceChar c = false := by
  obtain ⟨rest, hrest⟩ := List.rdropWhile_prefix isSpaceChar (s.dropWhile isSpaceChar)
  have hhead : (s.dropWhile isSpaceChar).head? = some c := by
    rw [← hrest, List.head?_append, ← strip, h]
    rfl
  have hne : s.dropWhile isSpaceChar ≠ [] := fun hnil => by
    rw [hnil] at hhead
    exact absurd hhead (by simp)
  have hnot := List.head_dropWhile_not isSpaceChar hne
  rw [List.head?_eq_some_head hne, Option.some_inj] at hhead
  rwa [hhead] at hnot

/-- Stripping leaves characters of the text. -/
lemma mem_of_mem_strip {s : Text} {c : Char} (h : c ∈ strip s) : c ∈ s :=
  (List.dropWhile_sublist isSpaceChar).subset ((List.rdropWhile_prefix _ _).subset h)

/-- A line with a clean name is not stripped. -/
lemma strip_line {entry : Text × Bool} (h : Clean entry.1) : strip (line entry) = line entry := by
  have hfront : (line entry).dropWhile isSpaceChar = line entry := by
    rw [line]
    rcases hname : entry.1 with _ | ⟨c, t⟩
    · rfl
    · have hc : isSpaceChar c = false := h.head c (by rw [hname]; rfl)
      rw [List.cons_append, List.dropWhile_cons_of_neg (by rw [hc]; exact Bool.false_ne_true)]
  obtain ⟨body, hbody⟩ : ∃ body, line entry = body ++ ['l'] := by
    rcases entry with ⟨t, _ | _⟩
    · exact ⟨t ++ ',' :: "interna".toList, by simp [line, designation]⟩
    · exact ⟨t ++ ',' :: "externa".toList, by simp [line, designation]⟩
  rw [strip, hfront, hbody, List.rdropWhile_concat_neg _ _ _ (by decide)]

/-- **A line with a clean name is read as it was written.** -/
lemma entryOf_line {entry : Text × Bool} (h : Clean entry.1) :
    entryOf (line entry) = some entry := by
  have hcomma : ',' ∉ designation entry.2 := by
    cases entry.2 <;> decide
  have hvalue : (designation entry.2 == "external".toList) = entry.2 := by
    cases entry.2 <;> decide
  have hfields : fields (line entry) = some (entry.1, designation entry.2) :=
    fields_eq_some_iff.mpr ⟨rfl, h.comma, hcomma⟩
  rw [entryOf, strip_line h, hfields, Option.map_some, hvalue]

/-- The name that is read in a line is clean. -/
lemma clean_of_entryOf {s : Text} {entry : Text × Bool} (hs : '\n' ∉ s)
    (h : entryOf s = some entry) : Clean entry.1 := by
  obtain ⟨⟨t, rest⟩, hfields, rfl⟩ := Option.map_eq_some_iff.mp h
  obtain ⟨hstrip, hcomma, -⟩ := fields_eq_some_iff.mp hfields
  refine ⟨hcomma, fun hmem => hs (mem_of_mem_strip ?_), fun c hc => ?_⟩
  · rw [hstrip]
    exact List.mem_append_left _ hmem
  · refine not_isSpaceChar_of_strip (s := s) ?_
    rw [hstrip, List.head?_append, hc]
    rfl

/-! ## Files -/

/-- The entries of a file, if every line has one. -/
def listing (content : Text) : Option (List (Text × Bool)) := (split content '\n').mapM entryOf

/-- **What is written is listed**, if all names are clean. -/
lemma listing_write (order : DictOrder) {db : Database} (h : ∀ name ∈ db, Clean name) :
    listing (write order db) = some (order.values db) := by
  have hclean : ∀ entry ∈ order.values db, Clean entry.1 := by
    intro entry hentry
    obtain ⟨stored, hstored, rfl⟩ := List.mem_map.mp ((order.perm db).mem_iff.mp hentry)
    exact h stored.1 (AList.mem_keys.mpr (List.mem_map_of_mem hstored))
  rw [write]
  generalize order.values db = entries at hclean
  induction entries with
  | nil => rfl
  | cons entry entries ih =>
    obtain ⟨hentry, hentries⟩ := List.forall_mem_cons.mp hclean
    have hnewline : '\n' ∉ line entry := by
      rw [line, List.mem_append, not_or]
      refine ⟨hentry.newline, ?_⟩
      cases entry.2 <;> decide
    rw [listing, List.flatMap_cons, List.append_assoc, List.cons_append, List.nil_append,
      split_append hnewline, List.mapM_cons, entryOf_line hentry]
    have hrest := ih hentries
    rw [listing] at hrest
    rw [hrest]
    rfl

/-- The names in a file are clean. -/
lemma clean_of_listing {content : Text} {entries : List (Text × Bool)}
    (h : listing content = some entries) : ∀ entry ∈ entries, Clean entry.1 := by
  have hlines : ∀ s ∈ split content '\n', '\n' ∉ s := delim_notMem_of_mem_split
  rw [listing] at h
  generalize split content '\n' = lines at h hlines
  induction lines generalizing entries with
  | nil =>
    obtain rfl := Option.some.inj h
    exact fun entry hentry => absurd hentry List.not_mem_nil
  | cons s lines ih =>
    rw [List.mapM_cons] at h
    obtain ⟨entry, hentry, h⟩ := Option.bind_eq_some_iff.mp h
    obtain ⟨rest, hrest, h⟩ := Option.bind_eq_some_iff.mp h
    obtain rfl := Option.some.inj h
    obtain ⟨hs, hlines⟩ := List.forall_mem_cons.mp hlines
    exact List.forall_mem_cons.mpr ⟨clean_of_entryOf hs hentry, ih hrest hlines⟩

section Reading

variable {subtypeNames : Text → Option (List Text)} {depth : ℕ}

/-- A constructor that returns also returns when more types are loaded. -/
lemma constructs_mono {loaded more : Text → Bool} (hle : ∀ t, loaded t = true → more t = true)
    {t : Text} (h : constructs subtypeNames depth loaded t = true) :
    constructs subtypeNames depth more t = true := by
  induction depth generalizing t with
  | zero => exact absurd h Bool.false_ne_true
  | succ depth ih =>
    rw [constructs] at h ⊢
    split at h
    · exact absurd h Bool.false_ne_true
    next names hnames =>
      rw [List.all_eq_true] at h ⊢
      intro name hname
      rw [Bool.or_eq_true]
      exact (Bool.or_eq_true_iff.mp (h name hname)).imp (hle name) ih

/-- A type that has been constructed can be constructed again, whatever the database has. -/
lemma NamedType.constructs (t : NamedType subtypeNames depth) (loaded : Text → Bool) :
    constructs subtypeNames depth loaded t.t = true :=
  constructs_mono (fun _ h => absurd h Bool.false_ne_true) t.constructed

/-- **What reading does**: it stores the entries of the lines, and the constructor has returned for
each of their names. -/
lemma entries_of_foldlM {typeDb : Database → Database} {lines : List Text} {db db' : Database}
    (h : lines.foldlM (readLine subtypeNames depth typeDb) db = some db') :
    ∃ entries, lines.mapM entryOf = some entries ∧ db' = store db entries ∧
      ∀ entry ∈ entries, ∃ dict, constructs subtypeNames depth
        (fun name => ((typeDb dict).lookup name).isSome) entry.1 = true := by
  induction lines generalizing db with
  | nil => exact ⟨[], rfl, (Option.some.inj h).symm, fun entry hentry => absurd hentry List.not_mem_nil⟩
  | cons s lines ih =>
    rw [List.foldlM_cons] at h
    obtain ⟨db₁, hread, hrest⟩ := Option.bind_eq_some_iff.mp h
    obtain ⟨entry, hentry, hinsert⟩ := Option.bind_eq_some_iff.mp hread
    split at hinsert
    next hconstructs =>
      obtain rfl := Option.some.inj hinsert
      obtain ⟨entries, hentries, rfl, hall⟩ := ih hrest
      refine ⟨entry :: entries, ?_, rfl, List.forall_mem_cons.mpr ⟨⟨db, hconstructs⟩, hall⟩⟩
      rw [List.mapM_cons, hentry, hentries]
      rfl
    · exact absurd hinsert (by simp)

/-- Lines whose names can be constructed are read. -/
lemma foldlM_of_entries {typeDb : Database → Database} {lines : List Text}
    {entries : List (Text × Bool)} (h : lines.mapM entryOf = some entries)
    (hall : ∀ entry ∈ entries, ∀ dict, constructs subtypeNames depth
      (fun name => ((typeDb dict).lookup name).isSome) entry.1 = true)
    (db : Database) :
    lines.foldlM (readLine subtypeNames depth typeDb) db = some (store db entries) := by
  induction lines generalizing entries db with
  | nil =>
    obtain rfl := Option.some.inj h
    rfl
  | cons s lines ih =>
    rw [List.mapM_cons] at h
    obtain ⟨entry, hentry, h⟩ := Option.bind_eq_some_iff.mp h
    obtain ⟨rest, hrest, h⟩ := Option.bind_eq_some_iff.mp h
    obtain rfl := Option.some.inj h
    obtain ⟨hconstructs, hall⟩ := List.forall_mem_cons.mp hall
    have hread : readLine subtypeNames depth typeDb db s = some (db.insert entry.1 entry.2) := by
      rw [readLine, hentry]
      exact if_pos (hconstructs _)
    rw [List.foldlM_cons, hread]
    exact ih hrest hall _

end Reading

/-! ## The round trip -/

section RoundTrip

variable {subtypeNames : Text → Option (List Text)} {depth : ℕ}

/-- The database then has exactly the types, each with its designation. -/
structure Lists (types : List (NamedType subtypeNames depth)) (db : Database) : Prop where
  designation : ∀ t ∈ types, db.lookup t.t = some t.external
  written : ∀ name ∈ db, ∃ t ∈ types, t.t = name

/-- **The types are persisted**: `write_db` returns, and from the file that it leaves `read_db`
reads a database of exactly these types. -/
def Persisted (order : DictOrder) (types : List (NamedType subtypeNames depth))
    (old : Option Text) : Prop :=
  ∃ content db, writeDb subtypeNames depth order types old = some content ∧
    readDb subtypeNames depth content = some db ∧ Lists types db

/-- Types of one name have one designation, and their names can stand in a line. -/
structure Writable (types : List (NamedType subtypeNames depth)) : Prop where
  consistent : ∀ t ∈ types, ∀ u ∈ types, t.t = u.t → t.external = u.external
  clean : ∀ t ∈ types, Clean t.t

/-- Every line of the old file can be read, and if the file lists just the names of the types, then
also their designations. -/
structure Replaceable (types : List (NamedType subtypeNames depth)) (content : Text)
    (entries : List (Text × Bool)) : Prop where
  listed : listing content = some entries
  constructs : ∀ entry ∈ entries, constructs subtypeNames depth
    (fun name => ((init subtypeNames depth types).lookup name).isSome) entry.1 = true
  agrees : (∀ name, name ∈ entries.map Prod.fst ↔ ∃ t ∈ types, t.t = name) →
    ∀ t ∈ types, lastValue entries t.t = some t.external

variable {order : DictOrder} {types : List (NamedType subtypeNames depth)}

/-- The names in the database of the types. -/
lemma mem_init {name : Text} :
    name ∈ init subtypeNames depth types ↔ ∃ t ∈ types, t.t = name := by
  rw [init, mem_store, List.map_map, or_iff_left (AList.notMem_empty name)]
  exact List.mem_map

/-- The database of consistent types lists them. -/
lemma lists_init (h : ∀ t ∈ types, ∀ u ∈ types, t.t = u.t → t.external = u.external) :
    Lists types (init subtypeNames depth types) where
  designation := by
    intro t ht
    have hstored : ∃ external,
        lastValue (types.map fun t => (t.t, t.external)) t.t = some external :=
      exists_lastValue (by rw [List.map_map]; exact List.mem_map_of_mem ht)
    obtain ⟨external, hlast⟩ := hstored
    obtain ⟨u, hu, heq⟩ := List.mem_map.mp (mem_of_lastValue hlast)
    obtain ⟨hname, hexternal⟩ := Prod.mk.inj heq
    rw [init, lookup_store, hlast, ← hexternal, h u hu t ht hname]
    rfl
  written := fun _ hname => mem_init.mp hname

/-- A file whose names are those of the types is read with any database. -/
lemma readDb_of_listing {content : Text} {entries : List (Text × Bool)}
    (h : listing content = some entries)
    (hnames : ∀ entry ∈ entries, ∃ t ∈ types, t.t = entry.1) :
    readDb subtypeNames depth content = some (store ∅ entries) := by
  refine foldlM_of_entries h (fun entry hentry dict => ?_) ∅
  obtain ⟨t, -, ht⟩ := hnames entry hentry
  rw [← ht]
  exact t.constructs _

/-- **What is written is read again.** -/
lemma readDb_write (hclean : ∀ t ∈ types, Clean t.t)
    (hconsistent : ∀ t ∈ types, ∀ u ∈ types, t.t = u.t → t.external = u.external) :
    ∃ db, readDb subtypeNames depth (write order (init subtypeNames depth types)) = some db ∧
      Lists types db := by
  have hlisting : listing (write order (init subtypeNames depth types)) =
      some (order.values (init subtypeNames depth types)) := by
    refine listing_write order fun name hname => ?_
    obtain ⟨t, ht, rfl⟩ := mem_init.mp hname
    exact hclean t ht
  have hperm := order.perm (init subtypeNames depth types)
  have hnames : ∀ entry ∈ order.values (init subtypeNames depth types),
      ∃ t ∈ types, t.t = entry.1 := by
    intro entry hentry
    obtain ⟨stored, hstored, rfl⟩ := List.mem_map.mp (hperm.mem_iff.mp hentry)
    exact mem_init.mp (AList.mem_keys.mpr (List.mem_map_of_mem hstored))
  refine ⟨_, readDb_of_listing hlisting hnames, fun t ht => ?_, fun name hname => ?_⟩
  · rw [lookup_store, lastValue_of_perm hperm, (lists_init hconsistent).designation t ht]
    rfl
  · rw [mem_store, or_iff_left (AList.notMem_empty name)] at hname
    obtain ⟨entry, hentry, rfl⟩ := List.mem_map.mp hname
    exact hnames entry hentry

/-- The names in a database that has been read are those in the file. -/
lemma mem_store_empty {entries : List (Text × Bool)} {name : Text} :
    name ∈ store (∅ : Database) entries ↔ name ∈ entries.map Prod.fst :=
  mem_store.trans (or_iff_left (AList.notMem_empty name))

/-- The designation in a database that has been read is the last one in the file. -/
lemma lookup_store_empty {entries : List (Text × Bool)} {name : Text} :
    (store (∅ : Database) entries).lookup name = lastValue entries name := by
  rw [lookup_store, AList.lookup_empty, Option.or_none]

/-- The test of `write_db` is passed by the files that list just the names of the types. -/
lemma sameKeys_init_iff {entries : List (Text × Bool)} :
    SameKeys (store ∅ entries) (init subtypeNames depth types) ↔
      ∀ name, name ∈ entries.map Prod.fst ↔ ∃ t ∈ types, t.t = name := by
  rw [sameKeys_iff]
  exact forall_congr' fun name => iff_congr mem_store_empty mem_init

/-- Types that are persisted can be written. -/
lemma Persisted.writable {old : Option Text} (h : Persisted order types old) : Writable types := by
  obtain ⟨content, db, -, hread, hlists⟩ := h
  obtain ⟨entries, hentries, rfl, -⟩ := entries_of_foldlM hread
  constructor
  · intro t ht u hu hname
    have hlookup := hlists.designation u hu
    rw [← hname, hlists.designation t ht] at hlookup
    exact Option.some.inj hlookup
  · intro t ht
    have hlookup := hlists.designation t ht
    rw [lookup_store_empty] at hlookup
    exact clean_of_listing hentries _ (mem_of_lastValue hlookup)

/-- Types that are persisted replace the old file or agree with it. -/
lemma Persisted.replaceable {old : Text} (h : Persisted order types (some old)) :
    ∃ entries, Replaceable types old entries := by
  obtain ⟨content, db, hwrite, hread, hlists⟩ := h
  obtain ⟨oldDb, hold, hcontent⟩ := Option.map_eq_some_iff.mp hwrite
  obtain ⟨entries, hentries, rfl, hconstructs⟩ := entries_of_foldlM hold
  refine ⟨entries, hentries, fun entry hentry => ?_, fun hnames t ht => ?_⟩
  · obtain ⟨-, hentry⟩ := hconstructs entry hentry
    exact hentry
  · -- the file has the names of the types, so it is left as it is
    rw [if_pos (sameKeys_init_iff.mpr hnames)] at hcontent
    obtain ⟨entries', hentries', rfl, -⟩ := entries_of_foldlM hread
    rw [← hcontent] at hentries'
    obtain rfl := Option.some.inj (hentries.symm.trans hentries')
    rw [← lookup_store_empty]
    exact hlists.designation t ht

/-- **When the type database is persisted faithfully**: the types can be written, and the old file,
if there is one, can be read and does not list just the names of the types with another
designation. -/
theorem persisted_iff (order : DictOrder) (types : List (NamedType subtypeNames depth))
    (old : Option Text) : Persisted order types old ↔
      Writable types ∧ ∀ content, old = some content → ∃ entries, Replaceable types content entries := by
  constructor
  · intro h
    refine ⟨h.writable, ?_⟩
    rintro content rfl
    exact h.replaceable
  · rintro ⟨⟨hconsistent, hclean⟩, hold⟩
    have hwritten : ∃ db, readDb subtypeNames depth (write order (init subtypeNames depth types)) =
        some db ∧ Lists types db := readDb_write hclean hconsistent
    obtain ⟨db, hread, hlists⟩ := hwritten
    cases old with
    | none => exact ⟨_, db, rfl, hread, hlists⟩
    | some content =>
      obtain ⟨entries, hlisted, hconstructs, hagrees⟩ := hold content rfl
      have holdRead : read subtypeNames depth (fun _ => init subtypeNames depth types) content =
          some (store ∅ entries) :=
        foldlM_of_entries hlisted (fun entry hentry _ => hconstructs entry hentry) ∅
      by_cases hnames : ∀ name, name ∈ entries.map Prod.fst ↔ ∃ t ∈ types, t.t = name
      · refine ⟨content, store ∅ entries, ?_, readDb_of_listing hlisted fun entry hentry =>
          (hnames _).mp (List.mem_map_of_mem hentry), fun t ht => ?_, fun name hname => ?_⟩
        · rw [writeDb, holdRead, Option.map_some, if_pos (sameKeys_init_iff.mpr hnames)]
        · rw [lookup_store_empty, hagrees hnames t ht]
        · exact (hnames name).mp (mem_store_empty.mp hname)
      · refine ⟨_, db, ?_, hread, hlists⟩
        rw [writeDb, holdRead, Option.map_some, if_neg (mt sameKeys_init_iff.mp hnames)]

/-- A type without subtypes. -/
def foo : NamedType (fun _ => some []) 1 := ⟨"Foo".toList, true, rfl⟩

/-- An internal type that has become external is still internal for those who read the file. -/
theorem not_persisted_designation :
    ¬ ∀ (order : DictOrder) (old : Option Text) (types : List (NamedType (fun _ => some []) 1)),
      Persisted order types old := by
  intro h
  let order : DictOrder := ⟨fun db => db.entries.map fun entry => (entry.1, entry.2), fun _ => .refl _⟩
  obtain ⟨content, db, hwrite, hread, hlists⟩ := h order (some "Foo,internal\n".toList) [foo]
  have hcontent : content = "Foo,internal\n".toList := by
    have hkept : writeDb (fun _ => some []) 1 order [foo] (some "Foo,internal\n".toList) =
        some "Foo,internal\n".toList := by decide +kernel
    exact Option.some.inj (hwrite.symm.trans hkept)
  have hlookup := hlists.designation foo List.mem_cons_self
  have hinternal : (readDb (fun _ => some []) 1 "Foo,internal\n".toList).bind
      (AList.lookup "Foo".toList) = some false := by decide +kernel
  rw [← hcontent, hread] at hinternal
  rw [Option.bind_some] at hinternal
  exact absurd (hlookup.symm.trans hinternal) (by decide)

end RoundTrip

end TypeDatabase

end NaoSoccer
