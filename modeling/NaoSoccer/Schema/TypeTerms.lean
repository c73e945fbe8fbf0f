import NaoSoccer.Schema.CommentScan
import NaoSoccer.Schema.TypePhrases
import NaoSoccer.Schema.TypeTokens

/-!
# Reading a type back

A `TypeTerm` is a type as it is written in a header: a qualified name, and in angles its template
arguments with commas between them.  `TypeTerm.parsed` is the `Type` that the type parser should
make of its text.

It does so for the terms with at most one argument in each pair of angles, if the words of their
names are read as words: a lookup of template arguments stops at the first level that has one, where
only the first argument of a list stands.
-/

namespace NaoSoccer

open TypeParser TypeTokenizer Tokenizer

/-! ## Terms -/

/-- A word: the text of an identifier without colons. -/
structure Word where
  text : Text
  ne_nil : text ≠ []
  isWord : SchemaTokenizer.IsWord text

/-- A qualified name: words with two colons between them. -/
structure QualifiedName where
  first : Word
  rest : List Word

namespace QualifiedName

/-- The text of a name. -/
def text (n : QualifiedName) : Text := n.first.text ++ n.rest.flatMap fun w => ':' :: ':' :: w.text

/-- The words of a name. -/
def words (n : QualifiedName) : List Word := n.first :: n.rest

end QualifiedName

mutual

/-- A type as it is written. -/
inductive TypeTerm
  /-- A name alone. -/
  | plain (name : QualifiedName)
  /-- A name with template arguments. -/
  | template (name : QualifiedName) (first : TypeTerm) (more : MoreArgs)

/-- The template arguments behind the first one. -/
inductive MoreArgs
  /-- There are no more. -/
  | nil
  /-- A comma, with a space behind it or not, and an argument. -/
  | cons (space : Bool) (arg : TypeTerm) (more : MoreArgs)

end

mutual

/-- The text of a type. -/
def TypeTerm.text : TypeTerm → Text
  | .plain name => name.text
  | .template name first more => name.text ++ '<' :: (first.text ++ (more.text ++ ['>']))

/-- The text of the other arguments. -/
def MoreArgs.text : MoreArgs → Text
  | .nil => []
  | .cons space arg more => ',' :: ((if space then [' '] else []) ++ (arg.text ++ more.text))

end

mutual

/-- The `Type` of a type: its name and the `Type`s of its arguments. -/
def TypeTerm.parsed : TypeTerm → ParsedType
  | .plain name => ⟨some name.text, []⟩
  | .template name first more => ⟨some name.text, first.parsed :: more.parsed⟩

/-- The `Type`s of the other arguments. -/
def MoreArgs.parsed : MoreArgs → List ParsedType
  | .nil => []
  | .cons _ arg more => arg.parsed :: more.parsed

end

/-- **`parse` reads the term back.** -/
def TypeReadsBack (t : TypeTerm) : Prop := ∃ fuel, parseType fuel t.text = some t.parsed

/-! ## Words that are read as words -/

/-- A word that is read as an identifier: no name of a kind stands in it, or it is made of the names
of identifiers and colons, as an identifier is made of words and colons. -/
inductive ReadsAsWord : Text → Prop
  /-- A word without names of kinds. -/
  | plain {w} : w ≠ [] → NameFree expressions w → ReadsAsWord w
  /-- The name of the kind of identifiers. -/
  | name : ReadsAsWord "SIMPLE_IDENTIFIER".toList
  /-- The names of an identifier and of two colons, and another word. -/
  | colons {w} : ReadsAsWord w → ReadsAsWord ("SIMPLE_IDENTIFIERCOLONCOLON".toList ++ w)

/-- At most one argument stands in each pair of angles, and all words are read as words. -/
def TypeTerm.Readable : TypeTerm → Prop
  | .plain name => ∀ w ∈ name.words, ReadsAsWord w.text
  | .template name first more =>
    more = .nil ∧ (∀ w ∈ name.words, ReadsAsWord w.text) ∧ first.Readable

/-- The tokens of a word that begin with one of these kinds come from its name. -/
lemma exists_rest {w : Text} (hw : SchemaTokenizer.IsWord w) {t : String}
    {ts : List (Token String Text)} {v : Text} (h : wordTokens w = ⟨t, v⟩ :: ts)
    (ht : t ≠ "EXPRESSION") :
    t = "SIMPLE_IDENTIFIER" ∧ w ≠ [] ∧ NameFree expressions w ∧ ts = [] ∨
      ∃ rest, w = t.toList ++ rest ∧ SchemaTokenizer.IsWord rest ∧ ts = wordTokens rest := by
  have hne : w ≠ [] := by
    rintro rfl
    rw [wordTokens, wellNamed.scan_nil] at h
    exact absurd h.symm (List.cons_ne_nil _ _)
  rcases wordTokens_cases hw hne with ⟨hfree, htokens⟩ | ⟨exp, name, e, rest, -, rfl, htokens⟩
  · rw [htokens] at h
    obtain ⟨heq, rfl⟩ := List.cons.inj h
    exact Or.inl ⟨(Token.mk.inj heq).1.symm, hne, hfree, rfl⟩
  · rw [htokens, cutTokens] at h
    split at h
    next hnil =>
      obtain ⟨heq, rfl⟩ := List.cons.inj h
      obtain ⟨rfl, -⟩ := Token.mk.inj heq
      refine Or.inr ⟨rest, by rw [hnil]; rfl, fun c hc => hw c (List.mem_append_right _ hc), rfl⟩
    next =>
      obtain ⟨heq, -⟩ := List.cons.inj h
      exact absurd (Token.mk.inj heq).1.symm ht

/-- Words that are read as identifiers. -/
lemma readsAsWord_of_identifierTokens {ts : List (Token String Text)} (h : IdentifierTokens ts)
    {w : Text} (hw : SchemaTokenizer.IsWord w) (htokens : wordTokens w = ts) : ReadsAsWord w := by
  induction h generalizing w with
  | last v =>
    rcases exists_rest hw htokens (by decide) with ⟨-, hne, hfree, -⟩ | ⟨rest, rfl, hrest, hnil⟩
    · exact ReadsAsWord.plain hne hfree
    · have hspell := (wordTokens_spell hrest).1
      rw [← hnil] at hspell
      rw [← hspell]
      exact ReadsAsWord.name
  | colons v c d _ ih =>
    rcases exists_rest hw htokens (by decide) with ⟨-, -, -, hnil⟩ | ⟨rest, rfl, hrest, hcolon⟩
    · exact absurd hnil (List.cons_ne_nil _ _)
    · rcases exists_rest hrest hcolon.symm (by decide) with ⟨hkind, -⟩ | ⟨rest', rfl, hrest', hcolon'⟩
      · exact absurd hkind (by decide)
      · rcases exists_rest hrest' hcolon'.symm (by decide) with ⟨hkind, -⟩ | ⟨last, rfl, hlast, hts⟩
        · exact absurd hkind (by decide)
        · exact ReadsAsWord.colons (ih hlast hts.symm)

/-- The beginning of a word that is the name of an identifier and of two colons. -/
lemma run_name : run expressions [] "SIMPLE_IDENTIFIERCOLONCOLON".toList =
    ([⟨"SIMPLE_IDENTIFIER", "SIMPLE_IDENTIFIER".toList⟩, ⟨"COLON", "COLON".toList⟩,
      ⟨"COLON", "COLON".toList⟩], []) := by
  decide

/-- They are identifiers. -/
lemma identifierTokens_of_readsAsWord {w : Text} (h : ReadsAsWord w)
    (hw : SchemaTokenizer.IsWord w) : IdentifierTokens (wordTokens w) := by
  induction h with
  | @plain w hne hfree =>
    rw [wordTokens_of_nameFree hw hne hfree]
    exact IdentifierTokens.last w
  | name =>
    have hname : wordTokens "SIMPLE_IDENTIFIER".toList =
        [⟨"SIMPLE_IDENTIFIER", "SIMPLE_IDENTIFIER".toList⟩] := by decide
    rw [hname]
    exact IdentifierTokens.last _
  | @colons w _ ih =>
    have hrest := ih fun c hc => hw c (List.mem_append_right _ hc)
    rw [wordTokens, scan_append, run_name]
    exact IdentifierTokens.colons _ _ _ hrest

/-! ## Names -/

/-- The characters of names. -/
lemma QualifiedName.char_of_mem (n : QualifiedName) {c : Char} (hc : c ∈ n.text) :
    SchemaTokenizer.isWordChar c = true ∨ c ∈ [':', '<', '>', ',', ' '] := by
  rcases List.mem_append.mp hc with hfirst | hrest
  · exact Or.inl (n.first.isWord c hfirst)
  · obtain ⟨w, -, hw⟩ := List.mem_flatMap.mp hrest
    rw [List.mem_cons, List.mem_cons] at hw
    rcases hw with rfl | rfl | hw
    · exact Or.inr (by decide)
    · exact Or.inr (by decide)
    · exact Or.inl (w.isWord c hw)

/-- Two colons. -/
def colons : List (Token String Text) := [⟨"COLON", [':']⟩, ⟨"COLON", [':']⟩]

/-- The tokens of a name. -/
def nameTokens (n : QualifiedName) : List (Token String Text) :=
  wordTokens n.first.text ++ n.rest.flatMap fun w => colons ++ wordTokens w.text

/-- No newline stands in front of a word. -/
lemma head_word (w : Word) (s : Text) : (w.text ++ s).head? ≠ some '\n' := by
  obtain ⟨c, v, hv⟩ := List.exists_cons_of_ne_nil w.ne_nil
  have hc : SchemaTokenizer.isWordChar c = true := w.isWord c (by rw [hv]; exact List.mem_cons_self)
  rw [hv, List.cons_append, List.head?_cons, Ne, Option.some_inj]
  exact SchemaTokenizer.ne_newline_of_word hc

/-- A mark ends a word. -/
lemma endsWord_mark {t : String} {c : Char} (h : (t, c) ∈ marks) (s : Text) : EndsWord (c :: s) := by
  obtain ⟨hword, -, hnewline, -⟩ := mark_facts (t, c) h
  intro d hd
  obtain rfl := Option.some.inj hd
  exact ⟨hword, hnewline⟩

/-- The other words of a name and what comes behind them. -/
lemma scan_words (ws : List Word) {s : Text} (hs : EndsWord s) :
    EndsWord ((ws.flatMap fun w => ':' :: ':' :: w.text) ++ s) ∧
      scan expressions [] ((ws.flatMap fun w => ':' :: ':' :: w.text) ++ s) =
        (ws.flatMap fun w => colons ++ wordTokens w.text) ++ scan expressions [] s := by
  induction ws with
  | nil => exact ⟨hs, rfl⟩
  | cons w ws ih =>
    obtain ⟨hends, hscan⟩ := ih
    have hcolon : ("COLON", ':') ∈ marks := by decide
    rw [List.flatMap_cons, List.flatMap_cons, List.cons_append, List.cons_append, List.cons_append,
      List.cons_append, List.append_assoc]
    refine ⟨endsWord_mark hcolon _, ?_⟩
    rw [scan_mark hcolon (by simp), scan_mark hcolon (head_word w _),
      scan_word_append w.isWord hends, hscan]
    simp [colons]

/-- **A name and what comes behind it** are scanned one after the other. -/
lemma scan_name (n : QualifiedName) {s : Text} (hs : EndsWord s) :
    scan expressions [] (n.text ++ s) = nameTokens n ++ scan expressions [] s := by
  obtain ⟨hends, hscan⟩ := scan_words n.rest hs
  rw [QualifiedName.text, List.append_assoc, scan_word_append n.first.isWord hends, hscan,
    nameTokens, List.append_assoc]

/-- **The tokens of a name spell it**, and none of them is empty. -/
lemma nameTokens_spell (n : QualifiedName) :
    values (nameTokens n) = n.text ∧ ∀ token ∈ nameTokens n, token.value ≠ [] := by
  have hcolons : ∀ token ∈ colons, token.value ≠ [] := by decide
  have hrest : values (n.rest.flatMap fun w => colons ++ wordTokens w.text) =
      (n.rest.flatMap fun w => ':' :: ':' :: w.text) ∧
        ∀ token ∈ n.rest.flatMap fun w => colons ++ wordTokens w.text, token.value ≠ [] := by
    induction n.rest with
    | nil => exact ⟨rfl, fun token htoken => absurd htoken List.not_mem_nil⟩
    | cons w ws ih =>
      obtain ⟨hword, hnonempty⟩ := wordTokens_spell w.isWord
      rw [List.flatMap_cons, values_append, ih.1, values_append, hword, List.flatMap_cons]
      exact ⟨rfl, List.forall_mem_append.mpr
        ⟨List.forall_mem_append.mpr ⟨hcolons, hnonempty⟩, ih.2⟩⟩
  obtain ⟨hfirst, hnonempty⟩ := wordTokens_spell n.first.isWord
  rw [nameTokens, values_append, hfirst, hrest.1]
  exact ⟨rfl, List.forall_mem_append.mpr ⟨hnonempty, hrest.2⟩⟩

/-- Two identifiers with colons between them are one. -/
lemma identifierTokens_append {ts us : List (Token String Text)} (h : IdentifierTokens ts)
    (hu : IdentifierTokens us) : IdentifierTokens (ts ++ (colons ++ us)) := by
  induction h with
  | last v => exact IdentifierTokens.colons v _ _ hu
  | colons v c d _ ih => exact IdentifierTokens.colons v c d ih

/-- **Two colons divide an identifier into two.** -/
lemma identifierTokens_split {ts us vs : List (Token String Text)} (h : IdentifierTokens vs)
    (hvs : vs = ts ++ (colons ++ us)) : IdentifierTokens ts ∧ IdentifierTokens us := by
  have hhead {c : Text} {ws xs : List (Token String Text)} (h : IdentifierTokens ws)
      (hws : ws = ⟨"COLON", c⟩ :: xs) : False := by
    obtain ⟨v, ys, rfl⟩ := exists_head_identifier h
    exact absurd (Token.mk.inj (List.cons.inj hws).1).1 (by decide)
  induction h generalizing ts with
  | last v =>
    have hlength := congrArg List.length hvs
    simp only [colons, List.length_append, List.length_cons, List.length_nil] at hlength
    omega
  | @colons v c d vs hrest ih =>
    -- colons stand behind every third token only
    rcases ts with _ | ⟨a, _ | ⟨b, _ | ⟨e, ts⟩⟩⟩
    · exact (hhead (IdentifierTokens.colons v c d hrest) hvs).elim
    · obtain ⟨rfl, htail⟩ := List.cons.inj hvs
      obtain rfl : vs = us := (List.cons.inj (List.cons.inj htail).2).2
      exact ⟨IdentifierTokens.last v, hrest⟩
    · exact (hhead hrest (List.cons.inj (List.cons.inj (List.cons.inj hvs).2).2).2).elim
    · obtain ⟨rfl, hsecond⟩ := List.cons.inj hvs
      obtain ⟨rfl, hthird⟩ := List.cons.inj hsecond
      obtain ⟨rfl, hfourth⟩ := List.cons.inj hthird
      obtain ⟨hts, hus⟩ := ih hfourth
      exact ⟨IdentifierTokens.colons v c d hts, hus⟩

/-- **The names that are read as identifiers** are those whose words are. -/
lemma identifierTokens_nameTokens_iff (n : QualifiedName) :
    IdentifierTokens (nameTokens n) ↔ ∀ w ∈ n.words, ReadsAsWord w.text := by
  obtain ⟨first, ws⟩ := n
  show IdentifierTokens (wordTokens first.text ++ _) ↔ ∀ w ∈ first :: ws, ReadsAsWord w.text
  induction ws generalizing first with
  | nil =>
    rw [List.flatMap_nil, List.append_nil, List.forall_mem_singleton]
    exact ⟨fun h => readsAsWord_of_identifierTokens h first.isWord rfl,
      fun h => identifierTokens_of_readsAsWord h first.isWord⟩
  | cons w ws ih =>
    rw [List.flatMap_cons, List.append_assoc, List.forall_mem_cons, ← ih]
    constructor
    · intro h
      obtain ⟨hfirst, hrest⟩ := identifierTokens_split h rfl
      exact ⟨readsAsWord_of_identifierTokens hfirst first.isWord rfl, hrest⟩
    · rintro ⟨hfirst, hrest⟩
      exact identifierTokens_append (identifierTokens_of_readsAsWord hfirst first.isWord) hrest

/-! ## Terms with single arguments -/

namespace TypeTerm

/-- At most one argument stands in each pair of angles. -/
def SingleArgs : TypeTerm → Prop
  | .plain _ => True
  | .template _ first more => more = .nil ∧ first.SingleArgs

/-- The tokens of such a term. -/
def chainTokens : TypeTerm → List (Token String Text)
  | .plain name => nameTokens name
  | .template name first _ =>
    nameTokens name ++ ⟨"LANGLE", ['<']⟩ :: (first.chainTokens ++ [⟨"RANGLE", ['>']⟩])

/-- No newline stands in front of a term. -/
lemma head_text (t : TypeTerm) (s : Text) : (t.text ++ s).head? ≠ some '\n' := by
  cases t with
  | plain name =>
    rw [text, QualifiedName.text, List.append_assoc]
    exact head_word name.first _
  | template name first more =>
    rw [text, QualifiedName.text, List.append_assoc, List.append_assoc]
    exact head_word name.first _

/-- **A term and what comes behind it** are scanned one after the other. -/
lemma scan_term : ∀ (t : TypeTerm) {s : Text}, t.SingleArgs → EndsWord s →
    scan expressions [] (t.text ++ s) = t.chainTokens ++ scan expressions [] s
  | .plain name, s, _, hs => scan_name name hs
  | .template name first _, s, ⟨rfl, hfirst⟩, hs => by
    have hopen : ("LANGLE", '<') ∈ marks := by decide
    have hclose : ("RANGLE", '>') ∈ marks := by decide
    have hnewline : s.head? ≠ some '\n' := fun h => (hs _ h).2 rfl
    have htext : (template name first .nil).text ++ s =
        name.text ++ '<' :: (first.text ++ '>' :: s) := by
      simp [text, MoreArgs.text]
    rw [htext, scan_name name (endsWord_mark hopen _), scan_mark hopen (head_text first _),
      scan_term first hfirst (endsWord_mark hclose _), scan_mark hclose hnewline, chainTokens]
    simp

/-- **The tokens spell the term**, and none of them is empty. -/
lemma chainTokens_spell : ∀ t : TypeTerm, t.SingleArgs →
    values t.chainTokens = t.text ∧ ∀ token ∈ t.chainTokens, token.value ≠ []
  | .plain name, _ => nameTokens_spell name
  | .template name first _, ⟨rfl, hfirst⟩ => by
    obtain ⟨hname, hnonempty⟩ := nameTokens_spell name
    obtain ⟨htext, hfirstNonempty⟩ := chainTokens_spell first hfirst
    constructor
    · show values (nameTokens name ++ ([⟨"LANGLE", ['<']⟩] ++ (first.chainTokens ++ _))) = _
      rw [values_append, values_append, values_append, hname, htext, values_singleton,
        values_singleton]
      rfl
    · refine List.forall_mem_append.mpr ⟨hnonempty, List.forall_mem_cons.mpr
        ⟨List.cons_ne_nil _ _, List.forall_mem_append.mpr ⟨hfirstNonempty, ?_⟩⟩⟩
      exact List.forall_mem_singleton.mpr (List.cons_ne_nil _ _)

end TypeTerm

mutual

/-- The characters of types. -/
lemma TypeTerm.char_of_mem : ∀ (t : TypeTerm) {c : Char}, c ∈ t.text →
    SchemaTokenizer.isWordChar c = true ∨ c ∈ [':', '<', '>', ',', ' ']
  | .plain name, c, hc => name.char_of_mem hc
  | .template name first more, c, hc => by
    rw [TypeTerm.text, List.mem_append, List.mem_cons, List.mem_append, List.mem_append,
      List.mem_singleton] at hc
    rcases hc with hname | rfl | hfirst | hmore | rfl
    · exact name.char_of_mem hname
    · exact Or.inr (by decide)
    · exact first.char_of_mem hfirst
    · exact more.char_of_mem hmore
    · exact Or.inr (by decide)

/-- The characters of further arguments. -/
lemma MoreArgs.char_of_mem : ∀ (more : MoreArgs) {c : Char}, c ∈ more.text →
    SchemaTokenizer.isWordChar c = true ∨ c ∈ [':', '<', '>', ',', ' ']
  | .nil, c, hc => absurd hc List.not_mem_nil
  | .cons space arg more, c, hc => by
    rw [MoreArgs.text, List.mem_cons, List.mem_append, List.mem_append] at hc
    rcases hc with rfl | hspace | harg | hmore
    · exact Or.inr (by decide)
    · split at hspace
      · rw [List.mem_singleton.mp hspace]
        exact Or.inr (by decide)
      · exact absurd hspace List.not_mem_nil
    · exact arg.char_of_mem harg
    · exact more.char_of_mem hmore

end

/-! ## What is read back is single -/

/-- What the phrase of a type is made of. -/
lemma phrase_type_cases {name : Option Text} {subtypes : List ParsedType}
    {ts : List (Token String Text)} (h : Phrase (.type ⟨name, subtypes⟩) ts) :
    IdentifierTokens ts ∧ name = some (values ts) ∧ subtypes = [] ∨
      ∃ ids l us vs r found, ts = ids ++ ⟨"LANGLE", l⟩ :: (us ++ (vs ++ [⟨"RANGLE", r⟩])) ∧
        IdentifierTokens ids ∧ name = some (values ids) ∧ subtypes = [found] ∧
        Phrase (.type found) us ∧ Phrase .rest vs := by
  cases h with
  | plain hname => exact Or.inl ⟨hname, rfl, rfl⟩
  | template l r hname htype hrest =>
    exact Or.inr ⟨_, l, _, _, r, _, rfl, hname, rfl, rfl, htype, hrest⟩

/-- Identifiers have identifiers and colons. -/
lemma kind_of_identifier {ts : List (Token String Text)} (h : IdentifierTokens ts) :
    ∀ token ∈ ts, token.token ∈ ["SIMPLE_IDENTIFIER", "COLON"] := by
  induction h with
  | last v => exact List.forall_mem_singleton.mpr (by simp)
  | colons v c d _ ih =>
    exact List.forall_mem_cons.mpr ⟨by simp, List.forall_mem_cons.mpr ⟨by simp,
      List.forall_mem_cons.mpr ⟨by simp, ih⟩⟩⟩

/-- What stands behind a template argument has a comma or white space, or no tokens. -/
lemma eq_nil_of_rest {vs : List (Token String Text)} (h : Phrase .rest vs)
    (hkinds : ∀ token ∈ vs, token.token ∈ ["SIMPLE_IDENTIFIER", "COLON", "LANGLE", "RANGLE"]) :
    vs = [] := by
  cases h with
  | last hboundary =>
    cases hboundary with
    | none => rfl
    | space v => exact absurd (hkinds ⟨"WHITESPACE", v⟩ (by simp)) (by simp)
  | more c _ _ _ _ => exact absurd (hkinds ⟨"COMMA", c⟩ (by simp)) (by simp)

/-- The first angle divides a list of tokens in one way. -/
lemma append_angle_inj {as bs xs ys : List (Token String Text)} {l r : Text}
    (h : as ++ ⟨"LANGLE", l⟩ :: xs = bs ++ ⟨"LANGLE", r⟩ :: ys)
    (has : ∀ token ∈ as, token.token ∈ ["SIMPLE_IDENTIFIER", "COLON"])
    (hbs : ∀ token ∈ bs, token.token ∈ ["SIMPLE_IDENTIFIER", "COLON"]) : as = bs ∧ xs = ys := by
  rcases List.append_eq_append_iff.mp h with ⟨cs, rfl, hcs⟩ | ⟨cs, rfl, hcs⟩
  · cases cs with
    | nil => exact ⟨(List.append_nil as).symm, (List.cons.inj hcs).2⟩
    | cons c cs =>
      obtain ⟨rfl, -⟩ := List.cons.inj hcs
      exact absurd (hbs ⟨"LANGLE", l⟩ (by simp)) (by simp)
  · cases cs with
    | nil => exact ⟨List.append_nil bs, (List.cons.inj hcs).2.symm⟩
    | cons c cs =>
      obtain ⟨rfl, -⟩ := List.cons.inj hcs
      exact absurd (has ⟨"LANGLE", r⟩ (by simp)) (by simp)

/-- Tokens without a text are none. -/
lemma eq_nil_of_values {ts : List (Token String Text)} (hne : ∀ token ∈ ts, token.value ≠ [])
    (h : values ts = []) : ts = [] := by
  refine List.eq_nil_iff_forall_not_mem.mpr fun token htoken => hne token htoken ?_
  exact List.flatMap_eq_nil_iff.mp h token htoken

/-- Two beginnings of a list of tokens that spell the same text. -/
lemma eq_of_values_eq {as bs xs ys : List (Token String Text)} (h : as ++ xs = bs ++ ys)
    (hne : ∀ token ∈ as ++ xs, token.value ≠ []) (hvalues : values as = values bs) : as = bs := by
  rcases List.append_eq_append_iff.mp h with ⟨cs, rfl, rfl⟩ | ⟨cs, rfl, rfl⟩
  · rw [values_append, List.self_eq_append_right] at hvalues
    rw [eq_nil_of_values (fun token htoken => hne token (by simp [htoken])) hvalues,
      List.append_nil]
  · rw [values_append, List.append_right_eq_self] at hvalues
    rw [eq_nil_of_values (fun token htoken => hne token (by simp [htoken])) hvalues,
      List.append_nil]

namespace TypeTerm

/-- **The parser finds one argument in each pair of angles.** -/
lemma singleArgs_of_phrase : ∀ (t : TypeTerm) {ts : List (Token String Text)},
    Phrase (.type t.parsed) ts → t.SingleArgs
  | .plain _, _, _ => trivial
  | .template name first more, ts, h => by
    rw [parsed] at h
    rcases phrase_type_cases h with
      ⟨-, -, hsubtypes⟩ | ⟨_, _, us, _, _, found, -, -, -, hsubtypes, htype, -⟩
    · exact absurd hsubtypes (List.cons_ne_nil _ _)
    · obtain ⟨rfl, hmore⟩ := List.cons.inj hsubtypes
      cases more with
      | nil => exact ⟨rfl, singleArgs_of_phrase first htype⟩
      | cons space arg more => exact absurd hmore (List.cons_ne_nil _ _)

/-- A phrase in which the term is found is as long as its text. -/
lemma length_le_of_phrase : ∀ (t : TypeTerm) {ts : List (Token String Text)}, t.SingleArgs →
    (∀ token ∈ ts, token.value ≠ []) → Phrase (.type t.parsed) ts →
      t.text.length ≤ (values ts).length
  | .plain name, ts, _, _, h => by
    rw [parsed] at h
    rcases phrase_type_cases h with ⟨-, hname, -⟩ | ⟨_, _, _, _, _, _, -, -, -, hsubtypes, -⟩
    · rw [text, Option.some_inj.mp hname]
    · exact absurd hsubtypes.symm (List.cons_ne_nil _ _)
  | .template name first _, ts, ⟨rfl, hfirst⟩, hne, h => by
    rw [parsed] at h
    rcases phrase_type_cases h with
      ⟨-, -, hsubtypes⟩ | ⟨ids, l, us, vs, r, found, rfl, -, hname, hsubtypes, htype, -⟩
    · exact absurd hsubtypes (List.cons_ne_nil _ _)
    · obtain ⟨rfl, -⟩ := List.cons.inj hsubtypes
      have hlength := length_le_of_phrase first hfirst
        (fun token htoken => hne token (by simp [htoken])) htype
      have hl : 0 < l.length := List.length_pos_iff.mpr (hne ⟨"LANGLE", l⟩ (by simp))
      have hr : 0 < r.length := List.length_pos_iff.mpr (hne ⟨"RANGLE", r⟩ (by simp))
      have hids : name.text.length = (values ids).length := by rw [Option.some_inj.mp hname]
      have hvalues : (values (ids ++ ⟨"LANGLE", l⟩ :: (us ++ (vs ++ [⟨"RANGLE", r⟩])))).length =
          (values ids).length + (l.length + ((values us).length + ((values vs).length + r.length))) := by
        simp [values]
      have htext : (template name first .nil).text.length =
          name.text.length + (first.text.length + 1 + 1) := by
        simp [text, MoreArgs.text]
      omega

/-- A phrase in which the term is found, at the beginning of its tokens, is all of them. -/
lemma eq_nil_of_phrase {t : TypeTerm} {ts vs : List (Token String Text)} (ht : t.SingleArgs)
    (htokens : ts ++ vs = t.chainTokens) (h : Phrase (.type t.parsed) ts) : vs = [] := by
  obtain ⟨htext, hne⟩ := chainTokens_spell t ht
  rw [← htokens] at htext hne
  have hle := length_le_of_phrase t ht (fun token htoken => hne token (by simp [htoken])) h
  refine eq_nil_of_values (fun token htoken => hne token (by simp [htoken])) ?_
  rw [← htext, values_append, List.length_append] at hle
  exact List.length_eq_zero_iff.mp (by omega)

/-- **A term that is found in its tokens is readable.** -/
lemma readable_of_phrase : ∀ (t : TypeTerm) {ts vs : List (Token String Text)}, t.SingleArgs →
    ts ++ vs = t.chainTokens → Phrase (.type t.parsed) ts → t.Readable
  | .plain name, ts, vs, ht, htokens, h => by
    obtain rfl := eq_nil_of_phrase ht htokens h
    rw [List.append_nil, chainTokens] at htokens
    rw [parsed] at h
    rcases phrase_type_cases h with ⟨hts, -, -⟩ | ⟨_, _, _, _, _, _, -, -, -, hsubtypes, -⟩
    · exact (identifierTokens_nameTokens_iff name).mp (htokens ▸ hts)
    · exact absurd hsubtypes.symm (List.cons_ne_nil _ _)
  | .template name first _, ts, vs, ⟨rfl, hfirst⟩, htokens, h => by
    obtain rfl := eq_nil_of_phrase (t := template name first .nil) ⟨rfl, hfirst⟩ htokens h
    have hne := (chainTokens_spell (template name first .nil) ⟨rfl, hfirst⟩).2
    rw [List.append_nil] at htokens
    rw [parsed] at h
    rcases phrase_type_cases h with
      ⟨-, -, hsubtypes⟩ | ⟨ids, l, us, vs, r, found, rfl, hids, hname, hsubtypes, htype, -⟩
    · exact absurd hsubtypes (List.cons_ne_nil _ _)
    · obtain ⟨rfl, -⟩ := List.cons.inj hsubtypes
      rw [← htokens] at hne
      rw [chainTokens] at htokens
      -- the name has the tokens of its text, and what stands in the angles those of the argument
      have hspell : values ids = values (nameTokens name) := by
        rw [(nameTokens_spell name).1, Option.some_inj.mp hname]
      obtain rfl := eq_of_values_eq htokens hne hspell
      have hrest := (List.cons.inj (List.append_cancel_left htokens)).2
      rw [← List.append_assoc] at hrest
      have hargument := (List.append_inj' hrest rfl).1
      exact ⟨rfl, (identifierTokens_nameTokens_iff name).mp hids,
        readable_of_phrase first hfirst hargument htype⟩

/-- A readable term has single arguments. -/
lemma Readable.singleArgs : ∀ {t : TypeTerm}, t.Readable → t.SingleArgs
  | .plain _, _ => trivial
  | .template _ _ _, ⟨hmore, _, hfirst⟩ => ⟨hmore, hfirst.singleArgs⟩

/-- **The tokens of a readable term are a type**, in which the term is found. -/
lemma phrase_of_readable : ∀ (t : TypeTerm), t.Readable → Phrase (.type t.parsed) t.chainTokens
  | .plain name, h => by
    have hname := Phrase.plain ((identifierTokens_nameTokens_iff name).mpr h)
    rwa [(nameTokens_spell name).1] at hname
  | .template name first _, ⟨rfl, hname, hfirst⟩ => by
    have htype := Phrase.template ['<'] ['>'] ((identifierTokens_nameTokens_iff name).mpr hname)
      (phrase_of_readable first hfirst) (Phrase.last BoundaryTokens.none)
    rwa [(nameTokens_spell name).1] at htype

/-- **The tokens of a readable term** are of four kinds. -/
lemma kind_of_mem : ∀ (t : TypeTerm), t.Readable → ∀ token ∈ t.chainTokens,
    token.token ∈ ["SIMPLE_IDENTIFIER", "COLON", "LANGLE", "RANGLE"]
  | .plain name, h => fun token htoken =>
    List.mem_append_left _
      (kind_of_identifier ((identifierTokens_nameTokens_iff name).mpr h) token htoken)
  | .template name first _, ⟨rfl, hname, hfirst⟩ => by
    have hkinds := kind_of_identifier ((identifierTokens_nameTokens_iff name).mpr hname)
    refine List.forall_mem_append.mpr ⟨fun token htoken => List.mem_append_left _
      (hkinds token htoken), List.forall_mem_cons.mpr ⟨by decide,
        List.forall_mem_append.mpr ⟨kind_of_mem first hfirst, ?_⟩⟩⟩
    exact List.forall_mem_singleton.mpr (by decide)

/-- **Nothing else is found** at the beginning of the tokens of a readable term. -/
lemma parsed_of_phrase : ∀ (t : TypeTerm) {found : ParsedType} {ts vs : List (Token String Text)},
    t.Readable → ts ++ vs = t.chainTokens → Phrase (.type found) ts → Phrase .rest vs →
      found = t.parsed
  | .plain name, ⟨foundName, subtypes⟩, ts, vs, ht, htokens, h, hrest => by
    have hkinds := kind_of_mem (.plain name) ht
    rw [← htokens] at hkinds
    obtain rfl := eq_nil_of_rest hrest fun token htoken =>
      hkinds token (List.mem_append_right _ htoken)
    rw [List.append_nil, chainTokens] at htokens
    rcases phrase_type_cases h with ⟨-, rfl, rfl⟩ | ⟨ids, l, us, vs, r, found, rfl, -⟩
    · rw [parsed, htokens, (nameTokens_spell name).1]
    · have hids := kind_of_identifier ((identifierTokens_nameTokens_iff name).mpr ht)
      rw [← htokens] at hids
      exact absurd (hids ⟨"LANGLE", l⟩ (by simp)) (by simp)
  | .template name first _, ⟨foundName, subtypes⟩, ts, vs, ⟨rfl, hname, hfirst⟩, htokens, h,
      hrest => by
    have hkinds := kind_of_mem (.template name first .nil) ⟨rfl, hname, hfirst⟩
    rw [← htokens] at hkinds
    obtain rfl := eq_nil_of_rest hrest fun token htoken =>
      hkinds token (List.mem_append_right _ htoken)
    rw [List.append_nil, chainTokens] at htokens
    rcases phrase_type_cases h with
      ⟨hts, -, -⟩ | ⟨ids, l, us, vs, r, found, rfl, hids, rfl, rfl, htype, hrest'⟩
    · have hangle := kind_of_identifier hts ⟨"LANGLE", ['<']⟩ (by rw [htokens]; simp)
      exact absurd hangle (by decide)
    · obtain ⟨rfl, htail⟩ := append_angle_inj htokens (kind_of_identifier hids)
        (kind_of_identifier ((identifierTokens_nameTokens_iff name).mpr hname))
      rw [← List.append_assoc] at htail
      have hargument := (List.append_inj' htail rfl).1
      rw [parsed_of_phrase first hfirst hargument htype hrest', parsed, (nameTokens_spell name).1]
      rfl

/-- **The tokens of the text of a term** with single arguments. -/
lemma tokenize_text {t : TypeTerm} (ht : t.SingleArgs) :
    TypeTokenizer.tokenize t.text = t.chainTokens := by
  have hslash : '/' ∉ t.text := fun hmem => by
    rcases t.char_of_mem hmem with hword | hmark
    · exact absurd hword (by decide)
    · exact absurd hmark (by decide)
  have hscan := scan_term t (s := []) ht fun c hc => absurd hc (by simp)
  rw [List.append_nil, wellNamed.scan_nil, List.append_nil] at hscan
  rw [TypeTokenizer.tokenize, tokenize_eq_scan, removeComments_of_notMem hslash, hscan]

/-- **What is read back is readable.** -/
lemma readable_of_readsBack {t : TypeTerm} (h : TypeReadsBack t) : t.Readable := by
  obtain ⟨fuel, hparse⟩ := h
  obtain ⟨all, htree⟩ := exists_tree_of_parseType hparse
  obtain ⟨found, bs, ts, hfound, htokens, -, hphrase⟩ := exists_parseType htree
  obtain rfl := Option.some.inj (hparse.symm.trans hfound)
  have ht := singleArgs_of_phrase t hphrase
  obtain ⟨htext, hne⟩ := chainTokens_spell t ht
  rw [tokenize_text ht] at htokens
  rw [htokens] at htext hne
  -- the type is as long as the text, so no boundary stands in front of it
  have hle := length_le_of_phrase t ht (fun token htoken => hne token (by simp [htoken])) hphrase
  have hboundary : bs = [] := by
    refine eq_nil_of_values (fun token htoken => hne token (by simp [htoken])) ?_
    rw [← htext, values_append, List.length_append] at hle
    exact List.length_eq_zero_iff.mp (by omega)
  rw [hboundary, List.nil_append] at htokens
  exact readable_of_phrase t ht (by rw [List.append_nil, htokens]) hphrase

/-- **What is readable is read back.** -/
lemma readsBack_of_readable {t : TypeTerm} (h : t.Readable) : TypeReadsBack t := by
  have htokens : TypeTokenizer.tokenize t.text = [] ++ t.chainTokens := tokenize_text h.singleArgs
  obtain ⟨fuel, all, htree⟩ := exists_tree htokens BoundaryTokens.none (phrase_of_readable t h)
  obtain ⟨found, bs, ts, hfound, hsplit, hboundary, hphrase⟩ := exists_parseType htree
  rw [htokens, List.nil_append] at hsplit
  have hkinds := kind_of_mem t h
  cases hboundary with
  | none =>
    rw [parsed_of_phrase t h (by rw [List.append_nil, hsplit]; rfl) hphrase
      (Phrase.last BoundaryTokens.none)] at hfound
    exact ⟨fuel, hfound⟩
  | space v =>
    rw [hsplit] at hkinds
    exact absurd (hkinds ⟨"WHITESPACE", v⟩ (by simp)) (by simp)

end TypeTerm

/-- **Printing and parsing**: `parse` reads exactly the terms back that have at most one argument in
each pair of angles and whose words are read as words. -/
theorem parse_readsBack_iff (t : TypeTerm) : TypeReadsBack t ↔ t.Readable :=
  ⟨TypeTerm.readable_of_readsBack, TypeTerm.readsBack_of_readable⟩

/-- Of two template arguments the second is lost, and a word with the name of a kind in it is not
read as a word. -/
theorem not_parse_readsBack :
    (∃ t : TypeTerm, t.text = "map<int,float>".toList ∧ ¬ TypeReadsBack t) ∧
      ∃ t : TypeTerm, t.text = "MY_COMMA".toList ∧ ¬ TypeReadsBack t := by
  have hword (s : Text) (hne : s ≠ []) (hs : s.all SchemaTokenizer.isWordChar = true) :
      ∃ w : Word, w.text = s := ⟨⟨s, hne, List.all_eq_true.mp hs⟩, rfl⟩
  constructor
  · obtain ⟨map, hmap⟩ := hword "map".toList (by decide) (by decide)
    obtain ⟨int, hint⟩ := hword "int".toList (by decide) (by decide)
    obtain ⟨float, hfloat⟩ := hword "float".toList (by decide) (by decide)
    refine ⟨.template ⟨map, []⟩ (.plain ⟨int, []⟩) (.cons false (.plain ⟨float, []⟩) .nil), ?_,
      fun h => ?_⟩
    · simp only [TypeTerm.text, MoreArgs.text, QualifiedName.text, hmap, hint, hfloat]
      decide
    · obtain ⟨hmore, -⟩ := TypeTerm.readable_of_readsBack h
      exact MoreArgs.noConfusion hmore
  · obtain ⟨word, hmember⟩ := hword "MY_COMMA".toList (by decide) (by decide)
    refine ⟨.plain ⟨word, []⟩, ?_, fun h => ?_⟩
    · simp only [TypeTerm.text, QualifiedName.text, hmember]
      decide
    · have hreads := TypeTerm.readable_of_readsBack h word List.mem_cons_self
      rw [hmember] at hreads
      generalize hw : "MY_COMMA".toList = w at hreads
      cases hreads with
      | plain _ hfree =>
        rw [← hw] at hfree
        exact hfree "COMMA" (.literal [',']) (by simp [expressions]) (by decide)
      | name => exact absurd hw (by decide)
      | colons _ =>
        have hhead : some 'M' = some 'S' := congrArg List.head? hw
        exact absurd hhead (by decide)

end NaoSoccer
