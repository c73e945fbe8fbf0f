import NaoSoccer.Foundation.Text
import Mathlib.Data.List.Nodup

/-!
# Names of enumerators

The macro `ENUM` declares an enumeration and turns its arguments into a text, from which `EnumName`
reads the names of the enumerators again: the name of a value is the one at that place of the text.

So names and values fit together exactly if each enumerator has the value of its place, and no name
without an initializer has blanks on both sides: `trim` leaves as many blanks behind a name as it
takes away in front of it.

A text is what the preprocessor has made of the arguments, and the values of the enumerators follow
the rules of the language.
-/

namespace NaoSoccer

/-- An initializer of an enumerator. -/
inductive EnumInitializer
  | literal (n : ℕ)
  | enumerator (name : Text)
  deriving DecidableEq, Repr

/-- An enumerator as it is written: its name and its initializer, and the numbers of blanks in front
of it, behind it, and on both sides of the equality sign. -/
structure EnumEntry where
  name : Text
  initializer : Option EnumInitializer
  before : ℕ
  behind : ℕ
  left : ℕ
  right : ℕ
  deriving DecidableEq, Repr

/-- Blanks. -/
def blanks (k : ℕ) : Text := List.replicate k ' '

namespace EnumName

/-! ## What the macro is given -/

/-- An initializer as it is written. -/
def initializerText : EnumInitializer → Text
  | .literal n => Nat.toDigits 10 n
  | .enumerator name => name

/-- What stands between the blanks. -/
def body (e : EnumEntry) : Text :=
  match e.initializer with
  | none => e.name
  | some i => e.name ++ (blanks e.left ++ '=' :: (blanks e.right ++ initializerText i))

/-- An enumerator as it is written. -/
def entryText (e : EnumEntry) : Text := blanks e.before ++ (body e ++ blanks e.behind)

/-- `#__VA_ARGS__` -/
def enumText (es : List EnumEntry) : Text := [','].intercalate (es.map entryText)

/-- The value of an enumerator: that of its initializer, or one more than the one in front. -/
def entryValue (known : List (Text × ℕ)) (next : ℕ) (e : EnumEntry) : Option ℕ :=
  match e.initializer with
  | none => some next
  | some (.literal n) => some n
  | some (.enumerator name) => known.lookup name

/-- The values of the enumerators, if all aliases are known. -/
def values (known : List (Text × ℕ)) (next : ℕ) : List EnumEntry → Option (List ℕ)
  | [] => some []
  | e :: es => (entryValue known next e).bind fun v =>
      (values ((e.name, v) :: known) (v + 1) es).map (v :: ·)

/-- `NUM_##Enum##s`, the enumerator behind the last one -/
def numOfEnums (vs : List ℕ) : ℕ := (vs.getLast?.map (· + 1)).getD 0

/-! ## What is read -/

/-- `EnumName::trim` -/
def trim (s : Text) : Text :=
  match s.findIdx? (· ≠ ' '), s.reverse.findIdx? (· ≠ ' ') with
  | some pos, some fromEnd =>
    let findLastNotOf := s.length - 1 - fromEnd
    (s.drop pos).take (findLastNotOf + 1)
  | _, _ => s

/-- What the constructor makes of an item. -/
def readName (item : Text) : Text :=
  let name := trim item
  match name.findIdx? (· = '=') with
  | some p => trim (name.take p)
  | none => name

/-- The loop of the constructor; a place outside of `names_` must not be written. -/
def writeNames (names : List Text) (index : ℕ) : List Text → Option (List Text)
  | [] => some names
  | item :: items =>
    if index < names.length then writeNames (names.set index (readName item)) (index + 1) items
    else none

/-- `EnumName::EnumName` -/
def construct (enums : Text) (numOfEnums : ℕ) : Option (List Text) :=
  writeNames (List.replicate numOfEnums []) 0 (enums.splitOn ',')

/-- `EnumName::getName` -/
def getName (names : List Text) (e : ℕ) : Option Text := names[e]?

/-- `EnumName::fromName`, where there is no value for `-1`. -/
def fromName (names : List Text) (s : Text) : Option ℕ := names.findIdx? (· = s)

/-! ## Reading what has been written -/

/-- A text without blanks, commas and equality signs. -/
def Plain (w : Text) : Prop := w ≠ [] ∧ ∀ c ∈ w, c ≠ ' ' ∧ c ≠ ',' ∧ c ≠ '='

/-- The name and the initializer are plain. -/
def PlainEntry (e : EnumEntry) : Prop :=
  Plain e.name ∧ ∀ name, e.initializer = some (.enumerator name) → Plain name

/-- The name that is read of an enumerator. -/
def shownName (e : EnumEntry) : Text :=
  match e.initializer with
  | none => e.name ++ blanks (min e.before e.behind)
  | some _ => e.name

/-- Blanks in front are skipped. -/
lemma findIdx_blanks_append (k : ℕ) {c : Char} (hc : c ≠ ' ') (s : Text) :
    (blanks k ++ c :: s).findIdx? (· ≠ ' ') = some k := by
  induction k with
  | zero =>
    rw [blanks, List.replicate_zero, List.nil_append, List.findIdx?_cons, if_pos (by simpa using hc)]
  | succ k ih =>
    rw [blanks, List.replicate_succ, List.cons_append, List.findIdx?_cons]
    simpa [blanks] using ih

/-- Blanks read backwards. -/
@[simp] lemma reverse_blanks (k : ℕ) : (blanks k).reverse = blanks k := by simp [blanks]

@[simp] lemma length_blanks (k : ℕ) : (blanks k).length = k := by simp [blanks]

/-- The first blanks. -/
lemma take_blanks (n k : ℕ) : (blanks k).take n = blanks (min n k) := by
  rw [blanks, List.take_replicate, blanks]

/-- `trim` takes the blanks in front away, and leaves as many behind. -/
lemma trim_blanks {first last : Char} (hfirst : first ≠ ' ') (hlast : last ≠ ' ') {w : Text}
    (hhead : w.head? = some first) (hend : w.getLast? = some last) (k m : ℕ) :
    trim (blanks k ++ (w ++ blanks m)) = w ++ blanks (min k m) := by
  obtain ⟨rest, rfl⟩ : ∃ rest, w = first :: rest := List.head?_eq_some_iff.mp hhead
  obtain ⟨init, hinit⟩ : ∃ init, first :: rest = init ++ [last] :=
    List.getLast?_eq_some_iff.mp hend
  have hfront : (blanks k ++ (first :: rest ++ blanks m)).findIdx? (· ≠ ' ') = some k :=
    findIdx_blanks_append k hfirst _
  have hback : (blanks k ++ (first :: rest ++ blanks m)).reverse.findIdx? (· ≠ ' ') = some m := by
    have hreverse : (blanks k ++ (first :: rest ++ blanks m)).reverse =
        blanks m ++ last :: (init.reverse ++ blanks k) := by
      rw [hinit]
      simp
    rw [hreverse]
    exact findIdx_blanks_append m hlast _
  have hlength : (blanks k ++ (first :: rest ++ blanks m)).length - 1 - m + 1 =
      k + (first :: rest).length := by
    simp only [List.length_append, length_blanks, List.length_cons]
    omega
  rw [trim, hfront, hback]
  dsimp only
  rw [hlength, List.drop_append_of_le_length (by simp), List.drop_of_length_le (by simp),
    List.nil_append, List.take_append, List.take_of_length_le (by omega), take_blanks,
    Nat.add_sub_cancel_right]

/-- The first character of a plain text. -/
lemma Plain.head {w : Text} (h : Plain w) : ∃ c, w.head? = some c ∧ c ≠ ' ' := by
  obtain ⟨c, rest, rfl⟩ := List.exists_cons_of_ne_nil h.1
  exact ⟨c, rfl, (h.2 c List.mem_cons_self).1⟩

/-- The last character of a plain text. -/
lemma Plain.last {w : Text} (h : Plain w) : ∃ c, w.getLast? = some c ∧ c ≠ ' ' :=
  ⟨w.getLast h.1, List.getLast?_eq_some_getLast h.1, (h.2 _ (List.getLast_mem h.1)).1⟩

/-- A number is plain. -/
lemma plain_toDigits (n : ℕ) : Plain (Nat.toDigits 10 n) := by
  refine ⟨Nat.toDigits_ne_nil, fun c hc => ?_⟩
  have hdigit := Nat.isDigit_of_mem_toDigits (by decide) (by decide) hc
  refine ⟨?_, ?_, ?_⟩ <;> rintro rfl <;> exact absurd hdigit (by decide)

/-- The initializer of a plain enumerator is plain. -/
lemma PlainEntry.initializerText {e : EnumEntry} (h : PlainEntry e) {i : EnumInitializer}
    (hi : e.initializer = some i) : Plain (initializerText i) := by
  cases i with
  | literal n => exact plain_toDigits n
  | enumerator name => exact h.2 name hi

/-- What stands between the blanks neither begins nor ends with a blank. -/
lemma trim_entryText {e : EnumEntry} (h : PlainEntry e) :
    trim (entryText e) = body e ++ blanks (min e.before e.behind) := by
  obtain ⟨first, hhead, hfirst⟩ := h.1.head
  cases hi : e.initializer with
  | none =>
    obtain ⟨last, hend, hlast⟩ := h.1.last
    have hbody : body e = e.name := by rw [body, hi]
    rw [entryText, hbody]
    exact trim_blanks hfirst hlast hhead hend _ _
  | some i =>
    obtain ⟨last, hend, hlast⟩ := (h.initializerText hi).last
    have hbody : body e =
        e.name ++ (blanks e.left ++ '=' :: (blanks e.right ++ initializerText i)) := by
      rw [body, hi]
    rw [entryText, hbody]
    refine trim_blanks hfirst hlast ?_ ?_ _ _
    · rw [List.head?_append, hhead, Option.some_or]
    · simp [List.getLast?_append, List.getLast?_cons, hend]

/-- A place in front of which there is no equality sign. -/
lemma findIdx_equality {s : Text} (h : '=' ∉ s) (t : Text) :
    (s ++ '=' :: t).findIdx? (· = '=') = some s.length := by
  induction s with
  | nil => rw [List.nil_append, List.findIdx?_cons, if_pos (by simp), List.length_nil]
  | cons c s ih =>
    rw [List.mem_cons, not_or] at h
    rw [List.cons_append, List.findIdx?_cons, if_neg (by simpa using Ne.symm h.1), ih h.2]
    rfl

/-- There are no equality signs among blanks. -/
lemma equality_notMem_blanks (k : ℕ) : '=' ∉ blanks k := by simp [blanks]

/-- There is no equality sign in a plain text. -/
lemma Plain.equality_notMem {w : Text} (h : Plain w) : '=' ∉ w := fun hmem =>
  (h.2 _ hmem).2.2 rfl

/-- What is read of an enumerator. -/
lemma readName_entryText {e : EnumEntry} (h : PlainEntry e) :
    readName (entryText e) = shownName e := by
  have hname := h.1.equality_notMem
  rw [readName, trim_entryText h]
  cases hi : e.initializer with
  | none =>
    have hnone : (e.name ++ blanks (min e.before e.behind)).findIdx? (· = '=') = none := by
      rw [List.findIdx?_eq_none_iff]
      intro c hc
      rcases List.mem_append.mp hc with hc | hc
      · simpa using (h.1.2 c hc).2.2
      · simp only [blanks, List.mem_replicate] at hc
        simp [hc.2]
    rw [body, hi, shownName, hi]
    dsimp only
    rw [hnone]
  | some i =>
    obtain ⟨first, hhead, hfirst⟩ := h.1.head
    obtain ⟨last, hend, hlast⟩ := h.1.last
    have hfront : '=' ∉ e.name ++ blanks e.left := by simp [hname, equality_notMem_blanks]
    have hsplit : e.name ++ (blanks e.left ++ '=' :: (blanks e.right ++ initializerText i)) ++
        blanks (min e.before e.behind) = (e.name ++ blanks e.left) ++
          '=' :: (blanks e.right ++ initializerText i ++ blanks (min e.before e.behind)) := by simp
    have htrim := trim_blanks hfirst hlast hhead hend 0 e.left
    rw [body, hi, shownName, hi]
    dsimp only
    rw [hsplit, findIdx_equality hfront]
    dsimp only
    rw [List.take_left]
    simpa [blanks] using htrim

/-- No enumerator as it is written has a comma. -/
lemma comma_notMem_entryText {e : EnumEntry} (h : PlainEntry e) : ',' ∉ entryText e := by
  have hname : ',' ∉ e.name := fun hmem => (h.1.2 _ hmem).2.1 rfl
  have hblanks : ∀ k, ',' ∉ blanks k := fun k => by simp [blanks]
  have hbody : ',' ∉ body e := by
    rw [body]
    split
    next => exact hname
    next i hi =>
      have hi : ',' ∉ initializerText i := fun hmem =>
        ((h.initializerText hi).2 _ hmem).2.1 rfl
      simp [hname, hblanks, hi]
  simp [entryText, hbody, hblanks]

/-- The items are the enumerators. -/
lemma splitOn_enumText {es : List EnumEntry} (hne : es ≠ []) (h : ∀ e ∈ es, PlainEntry e) :
    (enumText es).splitOn ',' = es.map entryText := by
  refine List.splitOn_intercalate ',' ?_ (by simpa using hne)
  intro w hw
  obtain ⟨e, he, rfl⟩ := List.mem_map.mp hw
  exact comma_notMem_entryText (h e he)

/-- The loop of the constructor writes one place for each item. -/
lemma writeNames_eq (names : List Text) (index : ℕ) (items : List Text)
    (hindex : index ≤ names.length) :
    writeNames names index items =
      if index + items.length ≤ names.length then
        some (names.take index ++ (items.map readName ++ names.drop (index + items.length)))
      else none := by
  induction items generalizing names index with
  | nil => simp [writeNames, hindex]
  | cons item items ih =>
    rw [writeNames, List.length_cons]
    by_cases hlt : index < names.length
    · rw [if_pos hlt, ih _ _ (by rw [List.length_set]; omega), List.length_set]
      have hsum : index + 1 + items.length = index + (items.length + 1) := by omega
      rw [hsum]
      congr 1
      rw [List.take_add_one, List.take_set_of_le (Nat.le_refl index), List.getElem?_set_self hlt,
        List.drop_set_of_lt (by omega)]
      simp
    · rw [if_neg hlt, if_neg (by omega)]

/-- The constructor reads the names of all enumerators, if there are places for so many. -/
lemma construct_enumText {es : List EnumEntry} (hne : es ≠ []) (h : ∀ e ∈ es, PlainEntry e)
    (num : ℕ) :
    construct (enumText es) num =
      if es.length ≤ num then some (es.map shownName ++ List.replicate (num - es.length) [])
      else none := by
  have hread : (es.map entryText).map readName = es.map shownName := by
    rw [List.map_map]
    exact List.map_congr_left fun e he => readName_entryText (h e he)
  rw [construct, splitOn_enumText hne h, writeNames_eq _ _ _ (Nat.zero_le _), hread]
  simp

/-! ## Names and values -/

/-- What the compiler accepts: the names are different identifiers, and `vs` are their values. -/
structure Declares (es : List EnumEntry) (vs : List ℕ) : Prop where
  ne_nil : es ≠ []
  plain : ∀ e ∈ es, PlainEntry e
  nodup : (es.map EnumEntry.name).Nodup
  values : values [] 0 es = some vs

/-- The names that are read are in bounds, and they are those of the values in both directions. -/
def Named (es : List EnumEntry) (vs : List ℕ) : Prop :=
  ∃ names, construct (enumText es) (numOfEnums vs) = some names ∧
    ∀ (i : ℕ) (e : EnumEntry) (v : ℕ), es[i]? = some e → vs[i]? = some v →
      getName names v = some e.name ∧ fromName names e.name = some v

/-- Each enumerator has a value. -/
lemma length_values {known : List (Text × ℕ)} {next : ℕ} {es : List EnumEntry} {vs : List ℕ}
    (h : values known next es = some vs) : vs.length = es.length := by
  induction es generalizing known next vs with
  | nil =>
    rw [values, Option.some.injEq] at h
    rw [← h]
    rfl
  | cons e es ih =>
    rw [values] at h
    obtain ⟨v, -, h⟩ := Option.bind_eq_some_iff.mp h
    obtain ⟨rest, hrest, rfl⟩ := Option.map_eq_some_iff.mp h
    rw [List.length_cons, List.length_cons, ih hrest]

/-- A plain name is read of an enumerator exactly if it is the right one and no blanks are left. -/
lemma shownName_eq_iff {e : EnumEntry} {w : Text} (hw : Plain w) :
    shownName e = w ↔ e.name = w ∧ (e.initializer = none → min e.before e.behind = 0) := by
  cases hi : e.initializer with
  | some i => simp [shownName, hi]
  | none =>
    rw [shownName, hi]
    constructor
    · rintro rfl
      have hzero : min e.before e.behind = 0 := by
        by_contra hne
        obtain ⟨k, hk⟩ := Nat.exists_eq_succ_of_ne_zero hne
        refine (hw.2 ' ' ?_).1 rfl
        simp [blanks, hk]
      refine ⟨?_, fun _ => hzero⟩
      rw [hzero, blanks, List.replicate_zero, List.append_nil]
    · rintro ⟨rfl, hzero⟩
      rw [hzero rfl, blanks, List.replicate_zero, List.append_nil]

/-- Where an enumerator is named after its value, it has the value of its place and no blanks are
left. -/
lemma place_of_getName {es : List EnumEntry} (hplain : ∀ e ∈ es, PlainEntry e)
    (hnodup : (es.map EnumEntry.name).Nodup) {k i v : ℕ} (hi : i < es.length)
    (h : getName (es.map shownName ++ List.replicate k []) v = some es[i].name) :
    v = i ∧ (es[i].initializer = none → min es[i].before es[i].behind = 0) := by
  have hw := (hplain _ (List.getElem_mem hi)).1
  rw [getName] at h
  by_cases hv : v < es.length
  · rw [List.getElem?_append_left (by simpa using hv), List.getElem?_map,
      List.getElem?_eq_getElem hv, Option.map_some, Option.some.injEq] at h
    obtain ⟨hname, hblanks⟩ := (shownName_eq_iff hw).mp h
    have hv' : v < (es.map EnumEntry.name).length := by simpa using hv
    have hi' : i < (es.map EnumEntry.name).length := by simpa using hi
    have hnames : (es.map EnumEntry.name)[v] = (es.map EnumEntry.name)[i] := by simpa using hname
    obtain rfl : v = i := hnodup.getElem_inj_iff.mp hnames
    exact ⟨rfl, hblanks⟩
  · rw [List.getElem?_append_right (by simpa using hv)] at h
    obtain ⟨hlt, heq⟩ := List.getElem?_eq_some_iff.mp h
    have hmem : es[i].name ∈ List.replicate k ([] : Text) := by
      rw [← heq]
      exact List.getElem_mem hlt
    exact absurd (List.eq_of_mem_replicate hmem) hw.1

/-- If each enumerator has the value of its place, there are as many places as names. -/
lemma numOfEnums_eq {vs : List ℕ} (hne : vs ≠ []) (h : ∀ i < vs.length, vs[i]? = some i) :
    numOfEnums vs = vs.length := by
  have hpos := List.length_pos_of_ne_nil hne
  rw [numOfEnums, List.getLast?_eq_getElem?, h _ (by omega), Option.map_some, Option.getD_some]
  omega

/-- **Names and values of an enumeration fit together exactly if** each enumerator has the value of
its place among the arguments, and no enumerator without an initializer stands between blanks on both
sides. -/
theorem named_iff {es : List EnumEntry} {vs : List ℕ} (h : Declares es vs) :
    Named es vs ↔ (∀ i < es.length, vs[i]? = some i) ∧
      ∀ e ∈ es, e.initializer = none → min e.before e.behind = 0 := by
  have hlength := length_values h.values
  constructor
  · rintro ⟨names, hnames, hfit⟩
    rw [construct_enumText h.ne_nil h.plain] at hnames
    split at hnames
    next hle =>
      rw [Option.some.injEq] at hnames
      subst hnames
      have hplace : ∀ i (hi : i < es.length), vs[i]? = some i ∧
          (es[i].initializer = none → min es[i].before es[i].behind = 0) := by
        intro i hi
        have hi' : i < vs.length := by rwa [hlength]
        obtain ⟨hv, hblanks⟩ := place_of_getName h.plain h.nodup hi
          (hfit i es[i] vs[i] (List.getElem?_eq_getElem hi) (List.getElem?_eq_getElem hi')).1
        exact ⟨by rw [List.getElem?_eq_getElem hi', hv], hblanks⟩
      refine ⟨fun i hi => (hplace i hi).1, fun e he => ?_⟩
      obtain ⟨i, hi, rfl⟩ := List.mem_iff_getElem.mp he
      exact (hplace i hi).2
    next => exact nomatch hnames
  · rintro ⟨hplace, hblanks⟩
    have hnum : numOfEnums vs = es.length := by
      rw [← hlength]
      refine numOfEnums_eq (fun hnil => h.ne_nil ?_) (hlength ▸ hplace)
      rw [← List.length_eq_zero_iff, ← hlength, hnil, List.length_nil]
    have hshown : es.map shownName = es.map EnumEntry.name :=
      List.map_congr_left fun e he =>
        (shownName_eq_iff (h.plain e he).1).mpr ⟨rfl, hblanks e he⟩
    refine ⟨es.map EnumEntry.name, ?_, fun i e v he hv => ?_⟩
    · rw [construct_enumText h.ne_nil h.plain, hnum, if_pos (Nat.le_refl _), Nat.sub_self, hshown,
        List.replicate_zero, List.append_nil]
    · obtain ⟨hi, rfl⟩ := List.getElem?_eq_some_iff.mp he
      obtain rfl : i = v := Option.some.inj ((hplace i hi).symm.trans hv)
      refine ⟨by rw [getName, List.getElem?_map, he, Option.map_some], ?_⟩
      rw [fromName, List.findIdx?_eq_some_iff_getElem]
      refine ⟨by simpa using hi, by simp, fun j hj heq => ?_⟩
      have hj' : j < (es.map EnumEntry.name).length := by
        rw [List.length_map]
        omega
      have hi' : i < (es.map EnumEntry.name).length := by rwa [List.length_map]
      have hnames : (es.map EnumEntry.name)[j] = (es.map EnumEntry.name)[i] := by simpa using heq
      have hsame := h.nodup.getElem_inj_iff.mp hnames
      omega

/-- The enumerators of `A, B`. -/
def twoEntries : List EnumEntry := [⟨['A'], none, 0, 0, 0, 0⟩, ⟨['B'], none, 1, 0, 0, 0⟩]

/-- The names of `A, B` fit their values. -/
theorem named_two : Named twoEntries [0, 1] := by
  have hplain : ∀ e ∈ twoEntries, PlainEntry e := by
    intro e he
    simp only [twoEntries, List.mem_cons, List.not_mem_nil, or_false] at he
    rcases he with rfl | rfl <;> exact ⟨by simp [Plain], nofun⟩
  have hdeclares : Declares twoEntries [0, 1] :=
    ⟨List.cons_ne_nil _ _, hplain, by decide, by decide⟩
  refine (named_iff hdeclares).mpr ⟨?_, by decide⟩
  intro i hi
  have hi : i < 2 := hi
  match i, hi with
  | 0, _ => rfl
  | 1, _ => rfl

/-- The example of the class comment has five items for four enumerators. -/
example : values [] 0 [⟨['a'], none, 0, 0, 0, 0⟩, ⟨['b'], none, 1, 0, 0, 0⟩,
    ⟨['n'], none, 1, 0, 0, 0⟩, ⟨['c'], some (.enumerator ['n']), 1, 0, 1, 1⟩,
    ⟨['d'], none, 1, 0, 0, 0⟩] = some [0, 1, 2, 2, 3] ∧
    construct "a, b, n, c = n, d".toList (numOfEnums [0, 1, 2, 2, 3]) = none := by
  decide

end EnumName

end NaoSoccer
