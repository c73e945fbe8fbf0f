import NaoSoccer.Schema.TypeTerms

/-!
# What the type parser accepts

The type parser should accept types alone.  Two things let others pass.  The tokenizer emits what is
open at the end of the text only if an expression matches it, so a last piece that none matches is
dropped.  And it cuts off the *names* of kinds, which the parser then takes for the marks that they
name.

A text in which every character has an expression and no mark is named is accepted only if it is a
type.
-/

namespace NaoSoccer

open TypeParser TypeTokenizer Tokenizer
open SchemaTokenizer (isWordChar isSpaceChar IsWord)

/-- The text without white space. -/
def dropSpace (s : Text) : Text := s.filter fun c => !isSpaceChar c

/-- The text is a type. -/
def IsType (s : Text) : Prop := ∃ t : TypeTerm, t.text = s

/-- **If `parse` returns a `Type`, the text is a type**, and all of its characters are in tokens. -/
def AcceptedAsType (s : Text) : Prop :=
  ∀ fuel found, parseType fuel s = some found →
    IsType (dropSpace (removeComments s)) ∧ values (TypeTokenizer.tokenize s) = removeComments s

/-- An expression matches the character. -/
def HasExpression (c : Char) : Prop :=
  isWordChar c = true ∨ isSpaceChar c = true ∨ c ∈ marks.map Prod.snd

/-- The kinds whose names are taken for something else. -/
def markNames : List String := "WHITESPACE" :: marks.map Prod.fst

/-- Every character has an expression, and no mark is named. -/
structure Spelled (s : Text) : Prop where
  hasExpression : ∀ c ∈ s, HasExpression c
  notNamed : ∀ name ∈ markNames, ¬ name.toList <:+: s

/-! ## What tokens spell -/

/-- Without white space, a concatenation. -/
lemma dropSpace_append (s s' : Text) : dropSpace (s ++ s') = dropSpace s ++ dropSpace s' :=
  List.filter_append _ _

/-- A text without white space. -/
lemma dropSpace_eq_self {s : Text} (h : ∀ c ∈ s, isSpaceChar c = false) : dropSpace s = s := by
  refine List.filter_eq_self.mpr fun c hc => ?_
  rw [h c hc]
  rfl

/-- A text of white space. -/
lemma dropSpace_eq_nil {s : Text} (h : ∀ c ∈ s, isSpaceChar c = true) : dropSpace s = [] := by
  refine List.filter_eq_nil_iff.mpr fun c hc => ?_
  rw [h c hc]
  decide

/-- White space does not matter to what an expression matches. -/
lemma exists_fullmatch {e : Pattern} {v : Text} (h : e.reMatch v = true) :
    ∃ x, e.fullmatch x = true ∧ dropSpace v = dropSpace x := by
  rw [Pattern.reMatch, Bool.or_eq_true_iff] at h
  rcases h with h | h
  · exact ⟨v, h, rfl⟩
  · rw [Bool.and_eq_true, beq_iff_eq] at h
    obtain ⟨x, rfl⟩ := List.getLast?_eq_some_iff.mp h.1
    rw [List.dropLast_concat] at h
    refine ⟨x, h.2, ?_⟩
    rw [dropSpace_append, dropSpace_eq_nil (List.forall_mem_singleton.mpr (by decide)),
      List.append_nil]

/-- The token stands for a word, for white space or for a mark, and spells it. -/
structure Spells (token : Token String Text) : Prop where
  word : token.token = "SIMPLE_IDENTIFIER" → ∃ w : Word, dropSpace token.value = w.text
  space : token.token = "WHITESPACE" → dropSpace token.value = []
  mark : ∀ c, (token.token, c) ∈ marks → dropSpace token.value = [c]

/-- What an expression matches spells a token of its kind. -/
lemma spells_of_reMatch {token : Token String Text} {e : Pattern}
    (ht : (token.token, e) ∈ expressions) (h : e.reMatch token.value = true) : Spells token := by
  obtain ⟨x, hx, hdrop⟩ := exists_fullmatch h
  have hkinds : "SIMPLE_IDENTIFIER" ∉ markNames ∧ "WHITESPACE" ∉ marks.map Prod.fst := by decide
  rcases mem_expressions ht with ⟨d, hd, rfl⟩ | ⟨hkind, rfl⟩ | ⟨hkind, rfl⟩
  · have hmem : token.token ∈ marks.map Prod.fst := List.mem_map_of_mem hd
    have hspace := (mark_facts _ hd).2.1
    refine ⟨fun hword => ?_, fun hwhite => ?_, fun c hc => ?_⟩
    · rw [hword] at hmem
      exact absurd (List.mem_cons_of_mem _ hmem) hkinds.1
    · rw [hwhite] at hmem
      exact absurd hmem hkinds.2
    · have hunique : ∀ mark ∈ marks, ∀ mark' ∈ marks, mark'.1 = mark.1 → mark'.2 = mark.2 := by
        decide
      have heq : c = d := hunique (token.token, d) hd (token.token, c) hc rfl
      rw [hdrop, beq_iff_eq.mp hx, heq]
      exact dropSpace_eq_self (List.forall_mem_singleton.mpr hspace)
  · rw [Pattern.fullmatch, Bool.and_eq_true, Bool.not_eq_true', List.isEmpty_eq_false_iff,
      List.all_eq_true] at hx
    refine ⟨fun _ => ⟨⟨x, hx.1, hx.2⟩, ?_⟩, fun hwhite => ?_, fun c hc => ?_⟩
    · rw [hdrop]
      exact dropSpace_eq_self fun c hc => SchemaTokenizer.not_isSpaceChar_of_word (hx.2 c hc)
    · exact absurd (hkind.symm.trans hwhite) (by decide)
    · rw [hkind] at hc
      exact absurd (List.mem_cons_of_mem _ (List.mem_map_of_mem hc)) hkinds.1
  · rw [Pattern.fullmatch, Bool.and_eq_true, List.all_eq_true] at hx
    refine ⟨fun hword => ?_, fun _ => ?_, fun c hc => ?_⟩
    · exact absurd (hkind.symm.trans hword) (by decide)
    · rw [hdrop]
      exact dropSpace_eq_nil hx.2
    · rw [hkind] at hc
      exact absurd (List.mem_map_of_mem hc) hkinds.2

/-- A token of another kind than marks and white space spells itself if it does so as a word. -/
lemma spells_of_notMem {token : Token String Text} (h : token.token ∉ markNames)
    (hword : token.token = "SIMPLE_IDENTIFIER" → ∃ w : Word, dropSpace token.value = w.text) :
    Spells token where
  word := hword
  space hkind := absurd (by rw [hkind]; exact List.mem_cons_self) h
  mark _ hc := absurd (List.mem_cons_of_mem _ (List.mem_map_of_mem hc)) h

/-- The name of the kind of words is a word. -/
lemma exists_word_name : ∃ w : Word, dropSpace "SIMPLE_IDENTIFIER".toList = w.text := by
  have hword : SchemaTokenizer.IsWord "SIMPLE_IDENTIFIER".toList :=
    List.all_eq_true.mp (by decide)
  exact ⟨⟨_, by decide, hword⟩,
    dropSpace_eq_self fun c hc => SchemaTokenizer.not_isSpaceChar_of_word (hword c hc)⟩

/-! ## The tokens of a text -/

/-- A character with an expression is matched by one of the table. -/
lemma exists_reMatch_of_hasExpression {c : Char} (h : HasExpression c) :
    ∃ t e, (t, e) ∈ expressions ∧ e.reMatch [c] = true := by
  rcases h with hword | hspace | hmark
  · exact ⟨"SIMPLE_IDENTIFIER", .plus isWordChar, by simp [expressions],
      SchemaTokenizer.reMatch_identifier (List.forall_mem_singleton.mpr hword) (by simp)⟩
  · exact ⟨"WHITESPACE", .plus isSpaceChar, by simp [expressions],
      by simp [Pattern.reMatch, Pattern.fullmatch, hspace]⟩
  · obtain ⟨⟨t, d⟩, hmem, rfl⟩ := List.mem_map.mp hmark
    exact ⟨t, .literal [d], mark_mem hmem, by simp [Pattern.reMatch, Pattern.fullmatch]⟩

/-- **Nothing is lost** if every character has an expression. -/
lemma values_tokenize_of_hasExpression {s : Text} (h : ∀ c ∈ removeComments s, HasExpression c) :
    values (TypeTokenizer.tokenize s) = removeComments s := by
  rw [TypeTokenizer.tokenize, tokenize_eq_scan]
  exact wellNamed.values_scan fun c hc => exists_reMatch_of_hasExpression (h c hc)

/-- **Every token spells itself** if moreover no mark is named. -/
lemma spells_of_mem {s : Text} (h : Spelled (removeComments s)) {token : Token String Text}
    (hmem : token ∈ TypeTokenizer.tokenize s) : Spells token := by
  have hvalues := values_tokenize_of_hasExpression h.hasExpression
  obtain ⟨ts, us, htokens⟩ := List.append_of_mem hmem
  have hscan : scan expressions [] (removeComments s) = ts ++ token :: us := by
    rw [← htokens]
    exact (tokenize_eq_scan expressions s).symm
  rcases wellNamed.token_cases hscan with ⟨e, -, ht, hmatch, -⟩ | hexpression | hname
  · exact spells_of_reMatch ht hmatch
  · refine spells_of_notMem ?_ fun hkind => absurd (hexpression.symm.trans hkind) (by decide)
    rw [hexpression]
    decide
  · -- a name that is cut off stands in the text
    have hinfix : token.token.toList <:+: removeComments s := by
      refine ⟨values ts, values us, ?_⟩
      rw [← hvalues, htokens, values_append, ← hname, List.append_assoc]
      rfl
    refine spells_of_notMem (fun hmark => h.notNamed _ hmark hinfix) fun hkind => ?_
    rw [hname, hkind]
    exact exists_word_name

/-! ## Phrases that spell types -/

/-- Without white space, the text of a token and others. -/
lemma dropSpace_values_cons (token : Token String Text) (ts : List (Token String Text)) :
    dropSpace (values (token :: ts)) = dropSpace token.value ++ dropSpace (values ts) :=
  dropSpace_append _ _

/-- A boundary spells nothing. -/
lemma dropSpace_boundary {ts : List (Token String Text)} (h : BoundaryTokens ts)
    (hspells : ∀ token ∈ ts, Spells token) : dropSpace (values ts) = [] := by
  cases h with
  | none => rfl
  | space v =>
    rw [values_singleton]
    exact (List.forall_mem_singleton.mp hspells).space rfl

/-- An identifier spells a qualified name. -/
lemma exists_name {ts : List (Token String Text)} (h : IdentifierTokens ts)
    (hspells : ∀ token ∈ ts, Spells token) :
    ∃ name : QualifiedName, name.text = dropSpace (values ts) := by
  induction h with
  | last v =>
    obtain ⟨w, hw⟩ := (List.forall_mem_singleton.mp hspells).word rfl
    refine ⟨⟨w, []⟩, ?_⟩
    rw [values_singleton, hw, QualifiedName.text, List.flatMap_nil, List.append_nil]
  | colons v c d _ ih =>
    obtain ⟨hv, hrest⟩ := List.forall_mem_cons.mp hspells
    obtain ⟨hc, hrest⟩ := List.forall_mem_cons.mp hrest
    obtain ⟨hd, hrest⟩ := List.forall_mem_cons.mp hrest
    obtain ⟨w, hw⟩ := hv.word rfl
    obtain ⟨name, hname⟩ := ih hrest
    refine ⟨⟨w, name.first :: name.rest⟩, ?_⟩
    rw [dropSpace_values_cons, dropSpace_values_cons, dropSpace_values_cons, hw,
      hc.mark ':' (by simp [marks]), hd.mark ':' (by simp [marks]), ← hname, QualifiedName.text,
      List.flatMap_cons]
    rfl

/-- What a phrase should spell: a type, or further template arguments. -/
def SpellsAs : PhraseKind → Text → Prop
  | .type _, s => IsType s
  | .rest, s => ∃ more : MoreArgs, more.text = s

/-- **Phrases spell types** if their tokens spell themselves. -/
lemma spellsAs_of_phrase {kind : PhraseKind} {ts : List (Token String Text)} (h : Phrase kind ts)
    (hspells : ∀ token ∈ ts, Spells token) : SpellsAs kind (dropSpace (values ts)) := by
  induction h with
  | plain hname =>
    obtain ⟨name, htext⟩ := exists_name hname hspells
    exact ⟨.plain name, htext⟩
  | template l r hname _ _ htype hrest =>
    obtain ⟨hids, hspells⟩ := List.forall_mem_append.mp hspells
    obtain ⟨hopen, hspells⟩ := List.forall_mem_cons.mp hspells
    obtain ⟨htypes, hspells⟩ := List.forall_mem_append.mp hspells
    obtain ⟨hrests, hclose⟩ := List.forall_mem_append.mp hspells
    obtain ⟨name, hname⟩ := exists_name hname hids
    obtain ⟨first, hfirst⟩ := htype htypes
    obtain ⟨more, hmore⟩ := hrest hrests
    refine ⟨.template name first more, ?_⟩
    rw [TypeTerm.text, values_append, dropSpace_append, dropSpace_values_cons,
      hopen.mark '<' (by simp [marks]), values_append, dropSpace_append, values_append, dropSpace_append,
      values_singleton, (List.forall_mem_singleton.mp hclose).mark '>' (by simp [marks]), hname, hfirst,
      hmore]
    rfl
  | last hboundary => exact ⟨.nil, (dropSpace_boundary hboundary hspells).symm⟩
  | more c hbefore hbehind _ _ htype hrest =>
    obtain ⟨hbefores, hspells⟩ := List.forall_mem_append.mp hspells
    obtain ⟨hcomma, hspells⟩ := List.forall_mem_cons.mp hspells
    obtain ⟨hbehinds, hspells⟩ := List.forall_mem_append.mp hspells
    obtain ⟨htypes, hrests⟩ := List.forall_mem_append.mp hspells
    obtain ⟨arg, harg⟩ := htype htypes
    obtain ⟨more, hmore⟩ := hrest hrests
    refine ⟨.cons false arg more, ?_⟩
    rw [MoreArgs.text, values_append, dropSpace_append, dropSpace_boundary hbefore hbefores,
      dropSpace_values_cons, hcomma.mark ',' (by simp [marks]), values_append, dropSpace_append,
      dropSpace_boundary hbehind hbehinds, values_append, dropSpace_append, harg, hmore]
    rfl

/-! ## Names that are read as marks -/

/-- The name of a kind of marks or white space is read as one. -/
def NamesMark (token : Token String Text) : Prop :=
  token.token ∈ markNames ∧ token.value = token.token.toList

/-- The table without words. -/
def markTable : Expressions := expressions.filter fun entry => entry.1 != "SIMPLE_IDENTIFIER"

/-- The names of its kinds are words too. -/
lemma wellNamed_markTable : WellNamed markTable where
  two_le t e h := wellNamed.two_le t e (List.mem_of_mem_filter h)
  word t e h := wellNamed.word t e (List.mem_of_mem_filter h)
  not_reMatch_nil t e h := wellNamed.not_reMatch_nil t e (List.mem_of_mem_filter h)

/-- Its kinds are the marks and white space. -/
lemma exists_mem_markTable {name : String} (h : name ∈ markNames) :
    ∃ e, (name, e) ∈ markTable := by
  have hall : ∀ name ∈ markNames, name ∈ markTable.map Prod.fst := by decide
  obtain ⟨entry, hmem, rfl⟩ := List.mem_map.mp (hall name h)
  exact ⟨entry.2, hmem⟩

/-- A token whose text has no name of a mark, or no character of a word. -/
structure Unnamed (token : Token String Text) : Prop where
  word : token.token = "SIMPLE_IDENTIFIER" → NameFree markTable token.value
  mark : token.token ∈ markNames → token.value ≠ [] ∧ ∀ c ∈ token.value, isWordChar c = false

/-- Marks and white space that spell themselves are outside of words. -/
lemma Spells.outside {token : Token String Text} (h : Spells token)
    (hkind : token.token ∈ markNames) : ∀ c ∈ token.value, isWordChar c = false := by
  intro c hc
  rw [Bool.eq_false_iff]
  intro hword
  have hmem : c ∈ dropSpace token.value :=
    List.mem_filter.mpr ⟨hc, by simp [SchemaTokenizer.not_isSpaceChar_of_word hword]⟩
  rcases List.mem_cons.mp hkind with hspace | hmark
  · rw [h.space hspace] at hmem
    exact absurd hmem List.not_mem_nil
  · obtain ⟨⟨t, d⟩, hd, heq⟩ := List.mem_map.mp hmark
    change t = token.token at heq
    subst heq
    rw [h.mark d hd, List.mem_singleton] at hmem
    rw [hmem, (mark_facts _ hd).1] at hword
    exact absurd hword (by decide)

/-- A token in which no name is read as a mark. -/
lemma unnamed_of_mem {s : Text} {token : Token String Text}
    (hmem : token ∈ TypeTokenizer.tokenize s) (hnames : ¬ NamesMark token) : Unnamed token := by
  obtain ⟨ts, us, htokens⟩ := List.append_of_mem hmem
  have hscan : scan expressions [] (removeComments s) = ts ++ token :: us := by
    rw [← htokens]
    exact (tokenize_eq_scan expressions s).symm
  rcases wellNamed.token_cases hscan with ⟨e, rest, ht, hmatch, hrun, -⟩ | hexpression | hname
  · have hfree := wellNamed.nameFree_run (values ts ++ token.value)
    rw [hrun] at hfree
    refine ⟨fun _ t e' ht' => hfree t e' (List.mem_of_mem_filter ht'), fun hkind => ⟨?_, ?_⟩⟩
    · intro hnil
      rw [hnil, wellNamed.not_reMatch_nil _ e ht] at hmatch
      exact absurd hmatch (by decide)
    · exact (spells_of_reMatch ht hmatch).outside hkind
  · refine ⟨fun hkind => absurd (hexpression.symm.trans hkind) (by decide), fun hkind => ?_⟩
    rw [hexpression] at hkind
    exact absurd hkind (by decide)
  · refine ⟨fun hkind => ?_, fun hkind => absurd ⟨hkind, hname⟩ hnames⟩
    have hall : ∀ entry ∈ markTable, ¬ entry.1.toList <:+: "SIMPLE_IDENTIFIER".toList := by
      decide
    rw [hname, hkind]
    exact fun t e ht => hall (t, e) ht

/-- A mark behind a text without names of marks. -/
lemma nameFree_mark {v : Text} {token : Token String Text} (htoken : Unnamed token)
    (hkind : token.token ∈ markNames) (hv : NameFree markTable v) :
    EndsOutside (v ++ token.value) ∧ NameFree markTable (v ++ token.value) := by
  obtain ⟨hne, houtside⟩ := htoken.mark hkind
  refine ⟨fun c hc => ?_, wellNamed_markTable.nameFree_append_outside hv houtside⟩
  rw [List.getLast?_append_of_ne_nil _ hne] at hc
  exact houtside c (List.mem_of_getLast? hc)

/-- A boundary behind such a text. -/
lemma nameFree_boundary {ts : List (Token String Text)} (h : BoundaryTokens ts)
    (hunnamed : ∀ token ∈ ts, Unnamed token) {v : Text} (hv : NameFree markTable v) :
    (EndsOutside v → EndsOutside (v ++ values ts)) ∧ NameFree markTable (v ++ values ts) := by
  cases h with
  | none => exact ⟨fun hends => by rwa [values, List.flatMap_nil, List.append_nil],
      by rwa [values, List.flatMap_nil, List.append_nil]⟩
  | space x =>
    obtain ⟨hends, hfree⟩ := nameFree_mark (List.forall_mem_singleton.mp hunnamed)
      (by simp [markNames]) hv
    rw [values_singleton]
    exact ⟨fun _ => hends, hfree⟩

/-- An identifier behind such a text that ends outside of words. -/
lemma nameFree_identifier {ts : List (Token String Text)} (h : IdentifierTokens ts)
    (hunnamed : ∀ token ∈ ts, Unnamed token) {v : Text} (hends : EndsOutside v)
    (hv : NameFree markTable v) : NameFree markTable (v ++ values ts) := by
  induction h generalizing v with
  | last x =>
    rw [values_singleton]
    exact wellNamed_markTable.nameFree_append hends hv
      ((List.forall_mem_singleton.mp hunnamed).word rfl)
  | colons x c d _ ih =>
    obtain ⟨hx, hrest⟩ := List.forall_mem_cons.mp hunnamed
    obtain ⟨hc, hrest⟩ := List.forall_mem_cons.mp hrest
    obtain ⟨hd, hrest⟩ := List.forall_mem_cons.mp hrest
    have hword := wellNamed_markTable.nameFree_append hends hv (hx.word rfl)
    have hfirst := nameFree_mark hc (by simp [markNames, marks]) hword
    obtain ⟨hbehind, hsecond⟩ := nameFree_mark hd (by simp [markNames, marks]) hfirst.2
    simpa [values] using ih hrest hbehind hsecond

/-- No name of a mark stands behind a text without, where the phrase is added. -/
def FreeBehind : PhraseKind → List (Token String Text) → Prop
  | .type _, ts => ∀ v, EndsOutside v → NameFree markTable v → NameFree markTable (v ++ values ts)
  | .rest, ts => ∀ v, NameFree markTable v → NameFree markTable (v ++ values ts)

/-- **No two words of a phrase stand side by side**, so no name of a mark is in it. -/
lemma freeBehind_of_phrase {kind : PhraseKind} {ts : List (Token String Text)}
    (h : Phrase kind ts) (hunnamed : ∀ token ∈ ts, Unnamed token) : FreeBehind kind ts := by
  induction h with
  | plain hname => exact fun v hends hv => nameFree_identifier hname hunnamed hends hv
  | template l r hname _ _ htype hrest =>
    obtain ⟨hids, hunnamed⟩ := List.forall_mem_append.mp hunnamed
    obtain ⟨hopen, hunnamed⟩ := List.forall_mem_cons.mp hunnamed
    obtain ⟨htypes, hunnamed⟩ := List.forall_mem_append.mp hunnamed
    obtain ⟨hrests, hclose⟩ := List.forall_mem_append.mp hunnamed
    intro v hends hv
    have hfree := nameFree_identifier hname hids hends hv
    obtain ⟨hbehind, hfree⟩ := nameFree_mark hopen (by simp [markNames, marks]) hfree
    have hfree := hrest hrests _ (htype htypes _ hbehind hfree)
    have hfree := (nameFree_mark (List.forall_mem_singleton.mp hclose)
      (by simp [markNames, marks]) hfree).2
    simpa [values] using hfree
  | last hboundary => exact fun v hv => (nameFree_boundary hboundary hunnamed hv).2
  | more c hbefore hbehind _ _ htype hrest =>
    obtain ⟨hbefores, hunnamed⟩ := List.forall_mem_append.mp hunnamed
    obtain ⟨hcomma, hunnamed⟩ := List.forall_mem_cons.mp hunnamed
    obtain ⟨hbehinds, hunnamed⟩ := List.forall_mem_append.mp hunnamed
    obtain ⟨htypes, hrests⟩ := List.forall_mem_append.mp hunnamed
    intro v hv
    have hfree := (nameFree_boundary hbefore hbefores hv).2
    obtain ⟨hends, hfree⟩ := nameFree_mark hcomma (by simp [markNames, marks]) hfree
    obtain ⟨hstays, hfree⟩ := nameFree_boundary hbehind hbehinds hfree
    have hfree := hrest hrests _ (htype htypes _ (hstays hends) hfree)
    simpa [values] using hfree

/-! ## What is accepted -/

/-- A spelled text is accepted as a type. -/
lemma acceptedAsType_of_spelled {s : Text} (h : Spelled (removeComments s)) : AcceptedAsType s := by
  intro fuel found hfound
  have hvalues := values_tokenize_of_hasExpression h.hasExpression
  obtain ⟨found', bs, ts, htokens, hboundary, htype⟩ := exists_parseType_iff.mp ⟨fuel, found, hfound⟩
  have hspells : ∀ token ∈ bs ++ ts, Spells token :=
    fun token htoken => spells_of_mem h (htokens ▸ htoken)
  obtain ⟨hbs, hts⟩ := List.forall_mem_append.mp hspells
  refine ⟨?_, hvalues⟩
  rw [← hvalues, htokens, values_append, dropSpace_append, dropSpace_boundary hboundary hbs,
    List.nil_append]
  exact spellsAs_of_phrase htype hts

/-- A text that is a type apart from white space has only characters with an expression. -/
lemma hasExpression_of_isType {s : Text} (h : IsType (dropSpace s)) : ∀ c ∈ s, HasExpression c := by
  obtain ⟨t, ht⟩ := h
  intro c hc
  by_cases hspace : isSpaceChar c = true
  · exact Or.inr (Or.inl hspace)
  · have hmem : c ∈ t.text := by
      rw [ht]
      exact List.mem_filter.mpr ⟨hc, by simp [hspace]⟩
    have hall : [':', '<', '>', ',', ' '].all
        (fun d => isSpaceChar d || (marks.map Prod.snd).contains d) = true := by decide
    rcases t.char_of_mem hmem with hword | hmark
    · exact Or.inl hword
    · have hmark := List.all_eq_true.mp hall c hmark
      rw [Bool.or_eq_true, List.contains_iff_mem] at hmark
      exact Or.inr hmark

/-- An accepted text is spelled if every character has an expression and no name is read as a
mark. -/
lemma spelled_of_accepted {s : Text} (haccepted : ∃ fuel found, parseType fuel s = some found)
    (h : ∀ c ∈ removeComments s, HasExpression c)
    (hnames : ∀ token ∈ TypeTokenizer.tokenize s, ¬ NamesMark token) :
    Spelled (removeComments s) := by
  obtain ⟨found, bs, ts, htokens, hboundary, htype⟩ := exists_parseType_iff.mp haccepted
  have hunnamed : ∀ token ∈ bs ++ ts, Unnamed token := by
    rw [← htokens]
    exact fun token htoken => unnamed_of_mem htoken (hnames token htoken)
  obtain ⟨hbs, hts⟩ := List.forall_mem_append.mp hunnamed
  obtain ⟨hends, hfree⟩ := nameFree_boundary hboundary hbs wellNamed_markTable.nameFree_nil
  have hall := freeBehind_of_phrase htype hts _ (hends fun c hc => absurd hc (by simp)) hfree
  rw [List.nil_append, ← values_append, ← htokens, values_tokenize_of_hasExpression h] at hall
  refine ⟨h, fun name hname => ?_⟩
  obtain ⟨e, he⟩ := exists_mem_markTable hname
  exact hall name e he

/-- **The accepted texts are types** if every character has an expression and no mark is named.  In
every other accepted text a character without an expression stands, and then it is no type, or a
name is read as a mark. -/
theorem parse_acceptedAsType (s : Text) :
    (Spelled (removeComments s) → AcceptedAsType s) ∧
      ((∃ fuel found, parseType fuel s = some found) → ¬ Spelled (removeComments s) →
        (∃ c ∈ removeComments s, ¬ HasExpression c) ∧ ¬ AcceptedAsType s ∨
          ∃ token ∈ TypeTokenizer.tokenize s, NamesMark token) := by
  refine ⟨acceptedAsType_of_spelled, fun haccepted hspelled => ?_⟩
  by_cases h : ∀ c ∈ removeComments s, HasExpression c
  · refine Or.inr ?_
    by_contra hnone
    exact hspelled (spelled_of_accepted haccepted h fun token htoken hnames =>
      hnone ⟨token, htoken, hnames⟩)
  · obtain ⟨fuel, found, hfound⟩ := haccepted
    refine Or.inl ⟨?_, fun haccepted => h (hasExpression_of_isType (haccepted fuel found hfound).1)⟩
    by_contra hnone
    exact h fun c hc => by_contra fun hcharacter => hnone ⟨c, hc, hcharacter⟩

/-- The star of a pointer is lost. -/
theorem not_parse_acceptedAsType_pointer : ¬ AcceptedAsType "int*".toList := by
  intro haccepted
  have htokens : TypeTokenizer.tokenize "int*".toList =
      [] ++ [⟨"SIMPLE_IDENTIFIER", "int".toList⟩] := by decide
  obtain ⟨fuel, found, hfound⟩ := exists_parseType_iff.mpr ⟨_, [], _, htokens, BoundaryTokens.none,
    Phrase.plain (IdentifierTokens.last _)⟩
  have hvalues := (haccepted fuel found hfound).2
  rw [htokens] at hvalues
  exact absurd hvalues (by decide)

end NaoSoccer
