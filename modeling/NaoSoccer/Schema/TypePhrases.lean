import NaoSoccer.Schema.ParsedType
import NaoSoccer.Schema.ParserReports

/-!
# The phrases that the type parser accepts

The type parser returns a tree exactly for the token lists that are a boundary and a type.  One half
is `exists_parseType`, and for the other one the phrases are read from left to right: whatever the
grammar accepts behind a phrase, it accepts with the phrase in front.
-/

namespace NaoSoccer

open Grammar

namespace TypeParser

/-- The kinds of the tokens. -/
def kinds (ts : List (Token String Text)) : List String := ts.map Token.token

/-- The kinds of a concatenation. -/
@[simp] lemma kinds_append (ts us : List (Token String Text)) :
    kinds (ts ++ us) = kinds ts ++ kinds us := List.map_append

/-- The kinds of a token and others. -/
@[simp] lemma kinds_cons (t : Token String Text) (ts : List (Token String Text)) :
    kinds (t :: ts) = t.token :: kinds ts := rfl

/-- No kinds. -/
@[simp] lemma kinds_nil : kinds [] = [] := rfl

/-! ## What phrases begin with -/

/-- Types begin with an identifier. -/
lemma begins_type : grammar.Begins grammar.HasEmptyRule ["Identifier", "TypeEnd"]
    "SIMPLE_IDENTIFIER" :=
  Begins.expand (r := ["SIMPLE_IDENTIFIER", "IdentifierEnd"]) (by decide)
    (Begins.terminal (by decide))

/-- So do template arguments. -/
lemma begins_args : grammar.Begins grammar.HasEmptyRule
    ["TemplateArg", "Boundary", "TemplateArgsEnd"] "SIMPLE_IDENTIFIER" :=
  Begins.expand (r := ["Type"]) (by decide) (Begins.expand (by decide) begins_type)

/-- A text begins with an identifier if it does not begin with white space. -/
lemma begins_start : grammar.Begins grammar.HasEmptyRule ["Boundary", "Type"]
    "SIMPLE_IDENTIFIER" :=
  Begins.skip (Or.inr (by decide)) (Begins.expand (by decide) begins_type)

/-- What stands behind an identifier begins with an angle. -/
lemma begins_typeEnd : grammar.Begins grammar.HasEmptyRule ["TemplateArgs"] "LANGLE" :=
  Begins.expand (r := ["LANGLE", "TemplateArgList", "RANGLE"]) (by decide)
    (Begins.terminal (by decide))

/-- And with nothing else. -/
lemma not_begins_typeEnd {t : String} (ht : t ≠ "LANGLE") :
    ∀ r, ("TypeEnd", r) ∈ grammar.rules → ¬ grammar.Begins grammar.HasEmptyRule r t := by
  intro r hr hbegins
  have hrules : ∀ r ∈ grammar.rulesOf "TypeEnd", r = ["TemplateArgs"] ∨ r = ["EMPTY_STRING"] := by
    decide
  rcases hrules r (mem_rulesOf.mpr hr) with rfl | rfl
  · rcases begins_cons_iff.mp hbegins with ⟨rfl, hmem⟩ | ⟨args, hargs, hbegins⟩ | ⟨-, hbegins⟩
    · exact absurd hmem (by decide)
    · refine not_begins_of_terminals (A := "TemplateArgs") ?_ args hargs hbegins
      have hheads : ∀ r ∈ grammar.rulesOf "TemplateArgs", r.head? = some "LANGLE" := by
        decide
      exact fun r hr => Or.inr ⟨"LANGLE", hheads r hr, by decide, ht.symm⟩
    · exact not_begins_nil hbegins
  · exact not_begins_empty hbegins

/-! ## From phrases to the parser -/

/-- Behind an identifier comes no colon. -/
lemma accepts_identifier {ts : List (Token String Text)} (h : IdentifierTokens ts)
    {ss w : List String} (hnext : w.head? ≠ some "COLON") (hw : grammar.Accepts ss w) :
    grammar.Accepts ("Identifier" :: ss) (kinds ts ++ w) := by
  have hbegins : grammar.Begins grammar.HasEmptyRule ["SIMPLE_IDENTIFIER", "IdentifierEnd"]
      "SIMPLE_IDENTIFIER" := Begins.terminal (by decide)
  induction h with
  | last v =>
    refine Accepts.expand_head (by decide) hbegins ?_
    refine Accepts.terminal (by decide) ?_
    refine Accepts.erase_heads (by decide) (fun t ht => ?_) hw
    rw [rules_of_types.2.2.2.2.1]
    refine List.forall_mem_cons.mpr ⟨Or.inr ⟨"COLON", rfl, by decide, ?_⟩,
      List.forall_mem_singleton.mpr (Or.inl rfl)⟩
    rintro rfl
    exact hnext ht
  | colons v c d _ ih =>
    refine Accepts.expand_head (by decide) hbegins ?_
    refine Accepts.terminal (by decide) ?_
    refine Accepts.expand_head (r := ["COLON", "COLON", "Identifier"]) (by decide)
      (Begins.terminal (by decide)) ?_
    exact Accepts.terminal (by decide) (Accepts.terminal (by decide) ih)

/-- Behind a boundary comes no white space. -/
lemma accepts_boundary {bs : List (Token String Text)} (h : BoundaryTokens bs)
    {ss w : List String} (hnext : w.head? ≠ some "WHITESPACE") (hw : grammar.Accepts ss w) :
    grammar.Accepts ("Boundary" :: ss) (kinds bs ++ w) := by
  cases h with
  | none =>
    refine Accepts.erase_heads (by decide) (fun t ht => ?_) hw
    rw [rules_of_types.2.1]
    refine List.forall_mem_cons.mpr ⟨Or.inr ⟨"WHITESPACE", rfl, by decide, ?_⟩,
      List.forall_mem_singleton.mpr (Or.inl rfl)⟩
    rintro rfl
    exact hnext ht
  | space v =>
    exact Accepts.expand_head (r := ["WHITESPACE"]) (by decide)
      (Begins.terminal (by decide)) (Accepts.terminal (by decide) hw)

/-- Identifiers begin with one. -/
lemma exists_head_identifier {ts : List (Token String Text)} (h : IdentifierTokens ts) :
    ∃ v us, ts = ⟨"SIMPLE_IDENTIFIER", v⟩ :: us := by
  cases h with
  | last v => exact ⟨v, [], rfl⟩
  | colons v c d _ => exact ⟨v, _, rfl⟩

/-- A type begins with an identifier, and what stands behind a template argument does not go on with
it. -/
def BeginsAs : PhraseKind → List (Token String Text) → Prop
  | .type _, ts => ∃ v us, ts = ⟨"SIMPLE_IDENTIFIER", v⟩ :: us
  | .rest, ts => ∀ w, w.head? = some "RANGLE" →
    (kinds ts ++ w).head? ≠ some "COLON" ∧ (kinds ts ++ w).head? ≠ some "LANGLE"

/-- What phrases begin with. -/
lemma beginsAs {kind : PhraseKind} {ts : List (Token String Text)} (h : Phrase kind ts) :
    BeginsAs kind ts := by
  cases h with
  | plain hname => exact exists_head_identifier hname
  | template l r hname _ _ =>
    obtain ⟨v, us, rfl⟩ := exists_head_identifier hname
    exact ⟨v, _, rfl⟩
  | last hboundary =>
    intro w hw
    cases hboundary with
    | none => simp [hw]
    | space v => simp
  | more c hboundary _ _ _ =>
    intro w _
    cases hboundary with
    | none => simp
    | space v => simp

/-- The grammar accepts the phrase in front of what it accepts. -/
def AcceptedAs : PhraseKind → List (Token String Text) → Prop
  | .type _, ts => ∀ ss w, w.head? ≠ some "COLON" → w.head? ≠ some "LANGLE" →
    grammar.Accepts ss w → grammar.Accepts ("Type" :: ss) (kinds ts ++ w)
  | .rest, ts => ∀ ss w, w.head? = some "RANGLE" → grammar.Accepts ss w →
    grammar.Accepts ("Boundary" :: "TemplateArgsEnd" :: ss) (kinds ts ++ w)

/-- A list of template arguments is accepted if the first one and those behind it are. -/
lemma accepts_args {found : ParsedType} {us vs : List (Token String Text)}
    (htype : Phrase (.type found) us) (hrest : Phrase .rest vs) (htypes : AcceptedAs (.type found) us)
    (hrests : AcceptedAs .rest vs) {ss w : List String} (hw : w.head? = some "RANGLE")
    (h : grammar.Accepts ss w) :
    grammar.Accepts ("TemplateArgList" :: ss) (kinds us ++ (kinds vs ++ w)) := by
  obtain ⟨hcolon, hangle⟩ := beginsAs hrest w hw
  have hall := htypes _ _ hcolon hangle (hrests ss w hw h)
  obtain ⟨v, us, rfl⟩ := beginsAs htype
  refine Accepts.expand_head (by decide) begins_args ?_
  exact Accepts.expand_head (r := ["Type"]) (by decide)
    (Begins.expand (by decide) begins_type) hall

/-- **Phrases are accepted.** -/
lemma acceptedAs {kind : PhraseKind} {ts : List (Token String Text)} (h : Phrase kind ts) :
    AcceptedAs kind ts := by
  induction h with
  | @plain ts hname =>
    intro ss w hcolon hangle hw
    have hend : grammar.Accepts ("TypeEnd" :: ss) w := by
      refine Accepts.erase (by decide) (fun t ht => not_begins_typeEnd ?_) hw
      rintro rfl
      exact hangle ht
    have hall := accepts_identifier hname hcolon hend
    obtain ⟨v, us, rfl⟩ := exists_head_identifier hname
    exact Accepts.expand_head (by decide) begins_type hall
  | @template ts us vs l r found hname htype hrest htypes hrests =>
    intro ss w _ _ hw
    have hargs := accepts_args htype hrest htypes hrests (w := "RANGLE" :: w) rfl
      (Accepts.terminal (by decide) hw)
    have hend : grammar.Accepts ("TypeEnd" :: ss)
        ("LANGLE" :: (kinds us ++ (kinds vs ++ "RANGLE" :: w))) := by
      refine Accepts.expand_head (by decide) begins_typeEnd ?_
      refine Accepts.expand_head (r := ["LANGLE", "TemplateArgList", "RANGLE"]) (by decide)
        (Begins.terminal (by decide)) ?_
      exact Accepts.terminal (by decide) hargs
    have hall := accepts_identifier hname (by simp) hend
    obtain ⟨v, us', rfl⟩ := exists_head_identifier hname
    have htype : grammar.Accepts ("Type" :: ss) (kinds (⟨"SIMPLE_IDENTIFIER", v⟩ :: us') ++
        "LANGLE" :: (kinds us ++ (kinds vs ++ "RANGLE" :: w))) :=
      Accepts.expand_head (by decide) begins_type hall
    simpa using htype
  | @last bs hboundary =>
    intro ss w hnext hw
    refine accepts_boundary hboundary (by simp [hnext]) ?_
    refine Accepts.erase_heads (by decide) (fun t ht => ?_) hw
    obtain rfl := Option.some.inj (hnext.symm.trans ht)
    decide
  | @more bs cs us vs c found hboundary hspace htype hrest htypes hrests =>
    intro ss w hnext hw
    have hargs := accepts_args htype hrest htypes hrests hnext hw
    have hspaces : grammar.Accepts ("Boundary" :: "TemplateArgList" :: ss)
        (kinds cs ++ (kinds us ++ (kinds vs ++ w))) := by
      refine accepts_boundary hspace ?_ hargs
      obtain ⟨v, us', rfl⟩ := beginsAs htype
      simp
    have hcomma : grammar.Accepts ("TemplateArgsEnd" :: ss)
        ("COMMA" :: (kinds cs ++ (kinds us ++ (kinds vs ++ w)))) :=
      Accepts.expand_head (r := ["COMMA", "Boundary", "TemplateArgList"]) (by decide)
        (Begins.terminal (by decide)) (Accepts.terminal (by decide) hspaces)
    have hall := accepts_boundary hboundary (by simp) hcomma
    simpa using hall

/-- **The parser returns a tree for a boundary and a type.** -/
theorem exists_tree {s : Text} {found : ParsedType} {bs ts : List (Token String Text)}
    (htokens : TypeTokenizer.tokenize s = bs ++ ts) (hboundary : BoundaryTokens bs)
    (htype : Phrase (.type found) ts) : ∃ fuel all, parse fuel s = some (.tree all) := by
  have hne : TypeTokenizer.tokenize s ≠ [] := by
    obtain ⟨v, us, rfl⟩ := beginsAs htype
    rw [htokens]
    exact List.append_ne_nil_of_right_ne_nil _ (List.cons_ne_nil _ _)
  refine Parser.exists_tree_of_accepts nodup_leftRanked.1 hne ?_
  have hall : grammar.Accepts ["Type"] (kinds ts ++ []) :=
    acceptedAs htype [] [] (by simp) (by simp) Accepts.nil
  rw [List.append_nil] at hall
  show grammar.Accepts ["START"] (kinds _)
  rw [htokens, kinds_append]
  obtain ⟨v, us, rfl⟩ := beginsAs htype
  have htext := accepts_boundary hboundary (by simp) hall
  cases hboundary with
  | none => exact Accepts.expand_head (by decide) begins_start htext
  | space x =>
    exact Accepts.expand_head (r := ["Boundary", "Type"]) (by decide)
      (Begins.expand (r := ["WHITESPACE"]) (by decide) (Begins.terminal (by decide)))
      htext

/-- **The texts that `parse` accepts** are those whose tokens are a boundary and a type. -/
theorem exists_parseType_iff {s : Text} :
    (∃ fuel found, parseType fuel s = some found) ↔ ∃ found bs ts,
      TypeTokenizer.tokenize s = bs ++ ts ∧ BoundaryTokens bs ∧ Phrase (.type found) ts := by
  constructor
  · rintro ⟨fuel, found, h⟩
    obtain ⟨all, htree⟩ := exists_tree_of_parseType h
    obtain ⟨found', bs, ts, -, htokens, hboundary, htype⟩ := exists_parseType htree
    exact ⟨found', bs, ts, htokens, hboundary, htype⟩
  · rintro ⟨found, bs, ts, htokens, hboundary, htype⟩
    obtain ⟨fuel, all, htree⟩ := exists_tree htokens hboundary htype
    obtain ⟨found', -, -, h, -⟩ := exists_parseType htree
    exact ⟨fuel, found', h⟩

end TypeParser

end NaoSoccer
