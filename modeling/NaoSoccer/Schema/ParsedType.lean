import NaoSoccer.Schema.LevelLookup
import NaoSoccer.Schema.ParserSoundness
import NaoSoccer.Schema.TypeGrammar

/-!
# What the type parser finds in a tree

`type_parser.parse` turns the tree of a type into a `Type`: a name and subtypes.  The name is that
of the first `Identifier` in the tree, and the subtypes are looked up as the `TemplateArg`s on the
first level that has one.  A list of template arguments is right recursive, so there is only the
first argument on that level: the others lie deeper (`findsType`).

`Phrase` says which tokens make up a type and what is found in them.
-/

namespace NaoSoccer

open Grammar ParseNode

/-- `Type` of the type parser. -/
inductive ParsedType
  /-- The fields `name` and `subtypes`. -/
  | mk (name : Option Text) (subtypes : List ParsedType)

namespace TypeParser

/-! ## The source's operations -/

/-- `Type.__init__` at a node, with this many nested calls.  The texts that `getValue` stores in the
nodes are left out, since they are not looked up. -/
def typeAt (all : List (ParseNode String Text)) : ℕ → ℕ → Option ParsedType
  | 0, _ => none
  | depth + 1, node => do
    let subnodes ← lookupAll ⟨"TemplateArg", some 0, some 0⟩ node all
    let subtypes ← subnodes.mapM fun subnode =>
      (lookupSingle "Type" subnode all).bind (typeAt all depth)
    some ⟨lookupValue "Identifier" node all, subtypes⟩

/-- `parse` of the type parser, with this many passes of its loop: the `Type`, if it returns one.
No tree needs more nested calls. -/
def parseType (fuel : ℕ) (s : Text) : Option ParsedType :=
  match parse fuel s with
  | some (.tree all) => typeAt all all.length 0
  | _ => none

/-! ## The phrases of the grammar -/

/-- The tokens of a qualified identifier. -/
inductive IdentifierTokens : List (Token String Text) → Prop
  /-- An identifier. -/
  | last (v : Text) : IdentifierTokens [⟨"SIMPLE_IDENTIFIER", v⟩]
  /-- An identifier, two colons and the rest. -/
  | colons (v c d : Text) {ts} : IdentifierTokens ts → IdentifierTokens
      (⟨"SIMPLE_IDENTIFIER", v⟩ :: ⟨"COLON", c⟩ :: ⟨"COLON", d⟩ :: ts)

/-- The tokens of a boundary. -/
inductive BoundaryTokens : List (Token String Text) → Prop
  /-- No token. -/
  | none : BoundaryTokens []
  /-- White space. -/
  | space (v : Text) : BoundaryTokens [⟨"WHITESPACE", v⟩]

/-- What a phrase stands for: a type, or what comes behind a template argument. -/
inductive PhraseKind
  | type (found : ParsedType)
  | rest

/-- The tokens of a type, with what is found in it, and those behind a template argument. -/
inductive Phrase : PhraseKind → List (Token String Text) → Prop
  /-- A type without template arguments. -/
  | plain {ts} : IdentifierTokens ts → Phrase (.type ⟨some (values ts), []⟩) ts
  /-- A type with template arguments, of which the first one is found. -/
  | template {ts us vs : List (Token String Text)} (l r : Text) {found : ParsedType} :
      IdentifierTokens ts → Phrase (.type found) us → Phrase .rest vs →
        Phrase (.type ⟨some (values ts), [found]⟩)
          (ts ++ ⟨"LANGLE", l⟩ :: (us ++ (vs ++ [⟨"RANGLE", r⟩])))
  /-- No more template arguments. -/
  | last {bs} : BoundaryTokens bs → Phrase .rest bs
  /-- A comma and another template argument. -/
  | more {bs cs us vs : List (Token String Text)} (c : Text) {found : ParsedType} :
      BoundaryTokens bs → BoundaryTokens cs → Phrase (.type found) us → Phrase .rest vs →
        Phrase .rest (bs ++ ⟨"COMMA", c⟩ :: (cs ++ (us ++ vs)))

/-! ## The shape of a tree -/

/-- A forest that the parser has left in the nodes. -/
structure Parsed (all : List (ParseNode String Text)) (f : Forest String Text) : Prop where
  /-- It is in the nodes. -/
  holds : f.Holds all
  /-- It shares no nodes. -/
  nodup : f.nodes.Nodup
  /-- It is a derivation. -/
  derivation : Derivation grammar f

namespace Parsed

variable {all : List (ParseNode String Text)} {node : ℕ} {X : String} {value : Option Text}
  {f g : Forest String Text}

/-- What is below a node. -/
lemma children (h : Parsed all (.cons node X value f g)) : Parsed all f where
  holds := h.holds.2.1
  nodup := h.nodup.sublist ((List.sublist_append_left _ _).cons node)
  derivation := h.derivation.children

/-- What stands beside a tree. -/
lemma rest (h : Parsed all (.cons node X value f g)) : Parsed all g where
  holds := h.holds.2.2
  nodup := h.nodup.sublist (Forest.nodes_rest_sublist _ _ _ _ _)
  derivation := h.derivation.rest

/-- The first tree. -/
lemma head (h : Parsed all (.cons node X value f g)) :
    Parsed all (.cons node X value f .nil) where
  holds := ⟨h.holds.1, h.holds.2.1, trivial⟩
  nodup := by
    refine h.nodup.sublist (List.Sublist.cons_cons _ ?_)
    rw [Forest.nodes, List.append_nil]
    exact List.sublist_append_left _ _
  derivation := h.derivation.head

end Parsed

/-- Types, identifiers and template arguments are never empty. -/
def solid : List String :=
  ["START", "Type", "Identifier", "TemplateArgs", "TemplateArgList", "TemplateArg"]

/-- A nonterminal that is never empty has been expanded. -/
lemma expanded {all : List (ParseNode String Text)} {node : ℕ} {A : String} {value : Option Text}
    {children rest : Forest String Text} (h : Parsed all (.cons node A value children rest))
    (hA : A ∈ solid) : value = none ∧ children.symbols ∈ grammar.rulesOf A := by
  have hempty : grammar.emptyString ∉ solid := by decide
  have hrules : ∀ A ∈ solid, ∀ rule ∈ grammar.rulesOf A, ∃ X ∈ rule,
      X ∈ grammar.terminals ∨ X ∈ solid := by decide
  have hnonterminals : ∀ A ∈ solid, A ∈ grammar.nonterminals := by decide
  obtain ⟨hvalue, hrule, -⟩ := h.derivation.rule_of_not_nullable (hnonterminals A hA)
    (not_nullable_of_rules hempty hrules hA)
  exact ⟨hvalue, mem_rulesOf.mpr hrule⟩

/-- Another nonterminal has been expanded or left without children. -/
lemma expanded_or_nil {all : List (ParseNode String Text)} {node : ℕ} {A : String}
    {value : Option Text} {children rest : Forest String Text}
    (h : Parsed all (.cons node A value children rest)) (hA : A ∈ grammar.nonterminals) :
    value = none ∧ (children = .nil ∨ children.symbols ∈ grammar.rulesOf A) := by
  cases h.derivation with
  | empty _ => exact absurd hA grammar.emptyString_notMem_nonterminals
  | leaf ht _ => exact absurd hA (grammar.notMem_nonterminals A ht)
  | childless _ _ _ => exact ⟨rfl, Or.inl rfl⟩
  | expanded hrule _ _ => exact ⟨rfl, Or.inr (mem_rulesOf.mpr hrule)⟩

/-- A terminal is a leaf with a token. -/
lemma exists_leaf {all : List (ParseNode String Text)} {node : ℕ} {t : String}
    {value : Option Text} {children rest : Forest String Text}
    (h : Parsed all (.cons node t value children rest)) (ht : t ∈ grammar.terminals) :
    ∃ v, value = some v ∧ children = .nil := by
  obtain ⟨v, rfl⟩ := h.derivation.value_of_terminal ht
  exact ⟨v, rfl, h.derivation.children_eq_nil⟩

/-- The rules of the nonterminals. -/
lemma rules_of_types :
    grammar.rulesOf "START" = [["Boundary", "Type"]] ∧
    grammar.rulesOf "Boundary" = [["WHITESPACE"], ["EMPTY_STRING"]] ∧
    grammar.rulesOf "Type" = [["Identifier", "TypeEnd"]] ∧
    grammar.rulesOf "Identifier" = [["SIMPLE_IDENTIFIER", "IdentifierEnd"]] ∧
    grammar.rulesOf "IdentifierEnd" = [["COLON", "COLON", "Identifier"], ["EMPTY_STRING"]] ∧
    grammar.rulesOf "TypeEnd" = [["TemplateArgs"], ["EMPTY_STRING"]] ∧
    grammar.rulesOf "TemplateArgs" = [["LANGLE", "TemplateArgList", "RANGLE"]] ∧
    grammar.rulesOf "TemplateArgList" = [["TemplateArg", "Boundary", "TemplateArgsEnd"]] ∧
    grammar.rulesOf "TemplateArg" = [["Type"]] ∧
    grammar.rulesOf "TemplateArgsEnd" =
      [["COMMA", "Boundary", "TemplateArgList"], ["EMPTY_STRING"]] := by
  decide

section Shape

variable {all : List (ParseNode String Text)} {node : ℕ} {value : Option Text}
  {children rest : Forest String Text}

/-- A nonterminal that may be empty has its other rule, or no tokens. -/
lemma optional {A : String} {rule : List String}
    (h : Parsed all (.cons node A value children rest)) (hA : A ∈ grammar.nonterminals)
    (hrules : grammar.rulesOf A = [rule, ["EMPTY_STRING"]]) :
    value = none ∧ (children.symbols = rule ∨
      children.tokens = [] ∧ children.labels ⊆ ["EMPTY_STRING"]) := by
  obtain ⟨hvalue, rfl | hsymbols⟩ := expanded_or_nil h hA
  · exact ⟨hvalue, Or.inr ⟨rfl, List.nil_subset _⟩⟩
  · refine ⟨hvalue, ?_⟩
    rw [hrules, List.mem_cons, List.mem_singleton] at hsymbols
    rcases hsymbols with hrule | hempty
    · exact Or.inl hrule
    · obtain ⟨n, v, c, f, rfl, hf⟩ := Forest.exists_cons hempty
      obtain rfl := Forest.eq_nil_of_symbols hf
      cases h.children.derivation with
      | empty _ => exact Or.inr ⟨rfl, List.Subset.refl _⟩
      | leaf ht _ => exact absurd ht grammar.emptyString_notMem_terminals
      | childless hE _ _ => exact absurd hE grammar.emptyString_notMem_nonterminals
      | expanded hrule _ _ =>
        exact absurd (grammar.rule_mem _ hrule) grammar.emptyString_notMem_nonterminals

/-- A boundary is white space or nothing. -/
lemma boundaryTokens_of_parsed (h : Parsed all (.cons node "Boundary" value children rest)) :
    value = none ∧ BoundaryTokens children.tokens := by
  obtain ⟨hvalue, hsymbols | ⟨htokens, -⟩⟩ := optional h (by decide) rules_of_types.2.1
  · obtain ⟨n, v, c, f, rfl, hf⟩ := Forest.exists_cons hsymbols
    obtain rfl := Forest.eq_nil_of_symbols hf
    obtain ⟨text, rfl, rfl⟩ := exists_leaf h.children (by decide)
    exact ⟨hvalue, BoundaryTokens.space text⟩
  · rw [htokens]
    exact ⟨hvalue, BoundaryTokens.none⟩

/-- **An identifier has the tokens of one.** -/
lemma identifierTokens_of_parsed (h : Parsed all (.cons node "Identifier" value children rest)) :
    value = none ∧ IdentifierTokens children.tokens := by
  induction hn : children.nodes.length using Nat.strongRecOn
    generalizing node value children rest with
  | ind n ih =>
    obtain ⟨-, -, -, hidentifier, hend, -⟩ := rules_of_types
    obtain ⟨hvalue, hsymbols⟩ := expanded h (by decide)
    rw [hidentifier, List.mem_singleton] at hsymbols
    obtain ⟨n₁, v₁, c₁, f₁, rfl, h₁⟩ := Forest.exists_cons hsymbols
    obtain ⟨n₂, v₂, c₂, f₂, rfl, h₂⟩ := Forest.exists_cons h₁
    obtain rfl := Forest.eq_nil_of_symbols h₂
    obtain ⟨word, rfl, rfl⟩ := exists_leaf h.children (by decide)
    obtain ⟨rfl, hcolons | ⟨htokens, -⟩⟩ := optional h.children.rest (by decide) hend
    · obtain ⟨n₃, v₃, c₃, f₃, rfl, h₃⟩ := Forest.exists_cons hcolons
      obtain ⟨n₄, v₄, c₄, f₄, rfl, h₄⟩ := Forest.exists_cons h₃
      obtain ⟨n₅, v₅, c₅, f₅, rfl, h₅⟩ := Forest.exists_cons h₄
      obtain rfl := Forest.eq_nil_of_symbols h₅
      have hcolon := h.children.rest.children
      obtain ⟨c, rfl, rfl⟩ := exists_leaf hcolon (by decide)
      obtain ⟨d, rfl, rfl⟩ := exists_leaf hcolon.rest (by decide)
      obtain ⟨rfl, hmore⟩ := ih c₅.nodes.length (by simp [← hn, Forest.nodes]; omega)
        hcolon.rest.rest rfl
      refine ⟨hvalue, ?_⟩
      simpa [Forest.tokens] using IdentifierTokens.colons word c d hmore
    · refine ⟨hvalue, ?_⟩
      simpa [Forest.tokens, htokens] using IdentifierTokens.last word

/-- The symbols above template arguments. -/
def aboveArgs : List String :=
  ["START", "Type", "TypeEnd", "TemplateArgs", "TemplateArgList", "TemplateArg", "TemplateArgsEnd"]

/-- The symbols above identifiers and template arguments. -/
def aboveIdentifiers : List String := "Identifier" :: "IdentifierEnd" :: aboveArgs

/-- Only symbols above template arguments, or above identifiers, have such symbols in their rules. -/
lemma notMem_above :
    (∀ rule ∈ grammar.rules, rule.1 ∉ aboveArgs → ∀ X ∈ rule.2, X ∉ aboveArgs) ∧
    ∀ rule ∈ grammar.rules, rule.1 ∉ aboveIdentifiers → ∀ X ∈ rule.2, X ∉ aboveIdentifiers := by
  decide

/-- No template arguments are below identifiers and boundaries. -/
lemma templateArg_notMem {A : String} (h : Parsed all (.cons node A value children .nil))
    (hA : A ∉ aboveArgs) : "TemplateArg" ∉ (Forest.cons node A value children .nil).labels := by
  have hroot : ∀ X ∈ (Forest.cons node A value children .nil).symbols, X ∉ aboveArgs :=
    List.forall_mem_singleton.mpr hA
  exact fun hmem => h.derivation.notMem_labels notMem_above.1 hroot _ hmem (by decide)

/-- Neither identifiers nor template arguments are below boundaries. -/
lemma notMem_labels_boundary (h : Parsed all (.cons node "Boundary" value children .nil))
    {symbol : String} (hsymbol : symbol ∈ ["Identifier", "TemplateArg"]) :
    symbol ∉ (Forest.cons node "Boundary" value children .nil).labels := by
  have hroot : ∀ X ∈ (Forest.cons node "Boundary" value children .nil).symbols,
      X ∉ aboveIdentifiers := List.forall_mem_singleton.mpr (by decide)
  have habove : ∀ X ∈ ["Identifier", "TemplateArg"], X ∈ aboveIdentifiers := by decide
  exact fun hmem => h.derivation.notMem_labels notMem_above.2 hroot _ hmem (habove symbol hsymbol)

/-- The text of a derivation is that of its tokens. -/
lemma text_eq_values {f : Forest String Text} (h : Derivation grammar f) :
    f.text = values f.tokens := by
  induction h with
  | nil => rfl
  | empty _ ih => exact ih
  | leaf _ _ ih => simp [Forest.text, Forest.tokens, values, ih]
  | childless _ _ _ ih => exact ih
  | expanded _ _ _ ihchildren ih => simp [Forest.text, Forest.tokens, ihchildren, ih]

/-! ## Lookups at a type -/

/-- Lookups at the root of one tree find what they find at that of another. -/
structure Exposes (f g : Forest String Text) : Prop where
  /-- What is on the first level of one is on that of the other. -/
  firstLevel : ∀ symbol ∈ ["Identifier", "TemplateArg"], ∀ nodes,
    Forest.FirstLevel symbol f nodes → Forest.FirstLevel symbol g nodes
  /-- The other has nothing else. -/
  absent : "TemplateArg" ∉ f.labels → "TemplateArg" ∉ g.labels

/-- A tree exposes itself. -/
lemma Exposes.refl (f : Forest String Text) : Exposes f f := ⟨fun _ _ _ h => h, fun h => h⟩

variable {t : Forest.Subtree String Text} {label : String}

/-- No node stands in a tree twice. -/
lemma Parsed.nodup_subtree (h : Parsed all (t.tree label)) : t.nodes.Nodup := by
  have hnodup := h.nodup
  rwa [Forest.Subtree.tree, Forest.nodes, Forest.nodes, List.append_nil] at hnodup

/-- The identifier of a type is its name. -/
lemma lookupValue_identifier (h : Parsed all (t.tree label))
    (hlevel : Forest.FirstLevel "Identifier" (t.tree label) [node])
    (hnode : Parsed all (.cons node "Identifier" value children .nil)) :
    lookupValue "Identifier" t.node all = some (values children.tokens) := by
  obtain ⟨rfl, -⟩ := identifierTokens_of_parsed hnode
  have hparsed : Parsed all ((⟨node, none, children⟩ : Forest.Subtree String Text).tree "Identifier") :=
    hnode
  have hvalue := getValue_eq hparsed.holds hparsed.nodup_subtree
  rw [lookupValue, lookupSingle_eq hlevel h.holds h.nodup_subtree, Option.bind_some]
  rw [Option.getD_none, text_eq_values hnode.children.derivation] at hvalue
  exact hvalue

/-! ## The phrases in a tree -/

/-- What a list of template arguments consists of. -/
lemma exists_args (h : Parsed all (.cons node "TemplateArgList" value children rest)) :
    value = none ∧ ∃ k y args b boundary z more, children =
      .cons k "TemplateArg" none (.cons y "Type" none args .nil)
        (.cons b "Boundary" none boundary (.cons z "TemplateArgsEnd" none more .nil)) := by
  obtain ⟨-, -, htype, -, -, -, -, hlist, harg, hend⟩ := rules_of_types
  obtain ⟨hvalue, hsymbols⟩ := expanded h (by decide)
  rw [hlist, List.mem_singleton] at hsymbols
  obtain ⟨k, v₁, c₁, f₁, rfl, h₁⟩ := Forest.exists_cons hsymbols
  obtain ⟨b, v₂, boundary, f₂, rfl, h₂⟩ := Forest.exists_cons h₁
  obtain ⟨z, v₃, more, f₃, rfl, h₃⟩ := Forest.exists_cons h₂
  obtain rfl := Forest.eq_nil_of_symbols h₃
  obtain ⟨rfl, harguments⟩ := expanded h.children (by decide)
  rw [harg, List.mem_singleton] at harguments
  obtain ⟨y, v₄, args, f₄, rfl, h₄⟩ := Forest.exists_cons harguments
  obtain rfl := Forest.eq_nil_of_symbols h₄
  obtain ⟨rfl, -⟩ := expanded h.children.children (by decide)
  obtain ⟨rfl, -⟩ := boundaryTokens_of_parsed h.children.rest
  obtain ⟨rfl, -⟩ := optional h.children.rest.rest (by decide) hend
  exact ⟨hvalue, k, y, args, b, boundary, z, more, rfl⟩

/-- What stands behind the identifier of a type. -/
lemma typeEnd_cases (h : Parsed all (.cons node "TypeEnd" value children rest)) :
    value = none ∧ (children.tokens = [] ∧ children.labels ⊆ ["EMPTY_STRING"] ∨
      ∃ a x l m list y r, children = .cons a "TemplateArgs" none (.cons x "LANGLE" (some l) .nil
        (.cons m "TemplateArgList" none list (.cons y "RANGLE" (some r) .nil .nil))) .nil) := by
  obtain ⟨-, -, -, -, -, hend, htemplate, -⟩ := rules_of_types
  obtain ⟨hvalue, hsymbols | hempty⟩ := optional h (by decide) hend
  · obtain ⟨a, v₁, c₁, f₁, rfl, h₁⟩ := Forest.exists_cons hsymbols
    obtain rfl := Forest.eq_nil_of_symbols h₁
    obtain ⟨rfl, harguments⟩ := expanded h.children (by decide)
    rw [htemplate, List.mem_singleton] at harguments
    obtain ⟨x, v₂, c₂, f₂, rfl, h₂⟩ := Forest.exists_cons harguments
    obtain ⟨m, v₃, list, f₃, rfl, h₃⟩ := Forest.exists_cons h₂
    obtain ⟨y, v₄, c₄, f₄, rfl, h₄⟩ := Forest.exists_cons h₃
    obtain rfl := Forest.eq_nil_of_symbols h₄
    have hangle := h.children.children
    obtain ⟨l, rfl, rfl⟩ := exists_leaf hangle (by decide)
    obtain ⟨rfl, -⟩ := expanded hangle.rest (by decide)
    obtain ⟨r, rfl, rfl⟩ := exists_leaf hangle.rest.rest (by decide)
    exact ⟨hvalue, Or.inr ⟨a, x, l, m, list, y, r, rfl⟩⟩
  · exact ⟨hvalue, Or.inl hempty⟩

/-- What a type consists of. -/
lemma exists_identifier (h : Parsed all (.cons node "Type" value children rest)) :
    value = none ∧ ∃ i name e ending, children =
      .cons i "Identifier" none name (.cons e "TypeEnd" none ending .nil) := by
  obtain ⟨-, -, htype, -⟩ := rules_of_types
  obtain ⟨hvalue, hsymbols⟩ := expanded h (by decide)
  rw [htype, List.mem_singleton] at hsymbols
  obtain ⟨i, v₁, name, f₁, rfl, h₁⟩ := Forest.exists_cons hsymbols
  obtain ⟨e, v₂, ending, f₂, rfl, h₂⟩ := Forest.exists_cons h₁
  obtain rfl := Forest.eq_nil_of_symbols h₂
  obtain ⟨rfl, -⟩ := expanded h.children (by decide)
  obtain ⟨rfl, -⟩ := typeEnd_cases h.children.rest
  exact ⟨hvalue, i, name, e, ending, rfl⟩

/-- The first template argument is alone on its level. -/
lemma firstLevel_arg {n i e a x m k b z y : ℕ} {l r : Text} {name arg boundary more : Forest String Text}
    (hname : "TemplateArg" ∉ (Forest.cons i "Identifier" none name .nil).labels) :
    Forest.FirstLevel "TemplateArg" (.cons n "Type" none
      (.cons i "Identifier" none name (.cons e "TypeEnd" none (.cons a "TemplateArgs" none
        (.cons x "LANGLE" (some l) .nil (.cons m "TemplateArgList" none
          (.cons k "TemplateArg" none arg
            (.cons b "Boundary" none boundary (.cons z "TemplateArgsEnd" none more .nil)))
          (.cons y "RANGLE" (some r) .nil .nil))) .nil) .nil)) .nil) [k] := by
  have hlist : Forest.FirstLevel "TemplateArg" (.cons m "TemplateArgList" none
      (.cons k "TemplateArg" none arg
        (.cons b "Boundary" none boundary (.cons z "TemplateArgsEnd" none more .nil)))
      .nil) [k] :=
    (Forest.FirstLevel.head (by simp [Forest.symbols])).under (by decide)
  have hclose : "TemplateArg" ∉ (Forest.cons y "RANGLE" (some r) .nil .nil).labels := by
    simp [Forest.labels]
  have hopen : "TemplateArg" ∉ (Forest.cons x "LANGLE" (some l) .nil .nil).labels := by
    simp [Forest.labels]
  have hangles := (hlist.append_right hclose).append_left hopen
  refine Forest.FirstLevel.under (Forest.FirstLevel.append_left ?_ hname) (by decide)
  exact (hangles.under (by decide)).under (by decide)

/-- A template argument is a type. -/
lemma lookupSingle_type {k w : ℕ} {args : Forest String Text}
    (h : Parsed all (.cons k "TemplateArg" none (.cons w "Type" none args .nil) .nil)) :
    lookupSingle "Type" k all = some w := by
  have hparsed : Parsed all ((⟨k, none, .cons w "Type" none args .nil⟩ :
    Forest.Subtree String Text).tree "TemplateArg") := h
  have hlevel : Forest.FirstLevel "Type" (.cons k "TemplateArg" none (.cons w "Type" none args .nil)
    .nil) [w] := (Forest.FirstLevel.head List.not_mem_nil).under (by decide)
  exact lookupSingle_eq hlevel hparsed.holds hparsed.nodup_subtree

/-- The type below a node is found with this many nested calls. -/
def FindsType (all : List (ParseNode String Text)) (depth : ℕ) : Prop :=
  ∀ node children rest, Parsed all (.cons node "Type" none children rest) →
    children.nodes.length < depth → ∃ found, Phrase (.type found) children.tokens ∧
      ∀ (t : Forest.Subtree String Text) label, Parsed all (t.tree label) →
        Exposes (.cons node "Type" none children .nil) (t.tree label) →
          typeAt all depth t.node = some found

/-- The tokens behind a template argument. -/
lemma phrase_rest {depth : ℕ} (hfinds : FindsType all depth) {b z : ℕ}
    {boundary more g : Forest String Text}
    (h : Parsed all (.cons b "Boundary" none boundary (.cons z "TemplateArgsEnd" none more g)))
    (hdepth : more.nodes.length < depth) :
    Phrase .rest (boundary.tokens ++ more.tokens) := by
  induction hn : more.nodes.length using Nat.strongRecOn generalizing b z boundary more g with
  | ind n ih =>
    obtain ⟨-, -, -, -, -, -, -, -, -, hend⟩ := rules_of_types
    obtain ⟨-, hboundary⟩ := boundaryTokens_of_parsed h
    obtain ⟨-, hsymbols | ⟨htokens, -⟩⟩ := optional h.rest (by decide) hend
    · obtain ⟨x, v₁, c₁, f₁, rfl, h₁⟩ := Forest.exists_cons hsymbols
      obtain ⟨y, v₂, space, f₂, rfl, h₂⟩ := Forest.exists_cons h₁
      obtain ⟨m, v₃, list, f₃, rfl, h₃⟩ := Forest.exists_cons h₂
      obtain rfl := Forest.eq_nil_of_symbols h₃
      have hcomma := h.rest.children
      obtain ⟨c, rfl, rfl⟩ := exists_leaf hcomma (by decide)
      obtain ⟨rfl, hspace⟩ := boundaryTokens_of_parsed hcomma.rest
      obtain ⟨rfl, k, w, args, b', boundary', z', more', rfl⟩ := exists_args hcomma.rest.rest
      have hlist := hcomma.rest.rest.children
      simp only [Forest.nodes, List.length_cons, List.length_append, List.length_nil] at hn hdepth
      obtain ⟨found, htype, -⟩ := hfinds w args .nil hlist.children (by omega)
      have hrest := ih more'.nodes.length (by omega) hlist.rest (by omega) rfl
      simpa [Forest.tokens] using Phrase.more c hboundary hspace htype hrest
    · rw [htokens, List.append_nil]
      exact Phrase.last hboundary

/-- **Every type in a tree is found**, with the first of its template arguments. -/
lemma findsType (all : List (ParseNode String Text)) (depth : ℕ) : FindsType all depth := by
  induction depth with
  | zero => exact fun _ _ _ _ hdepth => absurd hdepth (Nat.not_lt_zero _)
  | succ depth ih =>
    intro node children rest h hdepth
    obtain ⟨-, i, name, e, ending, rfl⟩ := exists_identifier h
    have hname : Parsed all (.cons i "Identifier" none name .nil) := h.children.head
    have htokens := (identifierTokens_of_parsed hname).2
    have hnameArgs := templateArg_notMem hname (by decide)
    have hlevel : Forest.FirstLevel "Identifier" (.cons node "Type" none
        (.cons i "Identifier" none name (.cons e "TypeEnd" none ending .nil)) .nil) [i] :=
      (Forest.FirstLevel.head (by simp [Forest.symbols])).under (by decide)
    obtain ⟨-, ⟨hempty, hlabels⟩ | ⟨a, x, l, m, list, y, r, rfl⟩⟩ := typeEnd_cases h.children.rest
    · have habsent : "TemplateArg" ∉ (Forest.cons node "Type" none
          (.cons i "Identifier" none name (.cons e "TypeEnd" none ending .nil)) .nil).labels := by
        have hending : "TemplateArg" ∉ ending.labels :=
          fun hmem => absurd (hlabels hmem) (by decide)
        simpa [Forest.labels, hending] using hnameArgs
      refine ⟨⟨some (values name.tokens), []⟩, ?_, fun t label ht hexposes => ?_⟩
      · simpa [Forest.tokens, hempty] using Phrase.plain htokens
      · have hlookup := lookupAll_absent (hexposes.absent habsent) ht.holds ht.nodup_subtree
        have hvalue := lookupValue_identifier ht (hexposes.firstLevel _ (by decide) _ hlevel) hname
        simp [typeAt, hlookup, hvalue]
    · obtain ⟨-, k, w, args, b, boundary, z, more, rfl⟩ :=
        exists_args h.children.rest.children.children.rest
      have hlist := h.children.rest.children.children.rest.children
      have harg : Parsed all (.cons k "TemplateArg" none (.cons w "Type" none args .nil) .nil) :=
        hlist.head
      have hlevelArg : Forest.FirstLevel "TemplateArg" (.cons node "Type" none
          (.cons i "Identifier" none name (.cons e "TypeEnd" none (.cons a "TemplateArgs" none
            (.cons x "LANGLE" (some l) .nil (.cons m "TemplateArgList" none
              (.cons k "TemplateArg" none (.cons w "Type" none args .nil)
                (.cons b "Boundary" none boundary (.cons z "TemplateArgsEnd" none more .nil)))
              (.cons y "RANGLE" (some r) .nil .nil))) .nil) .nil)) .nil) [k] :=
        firstLevel_arg hnameArgs
      simp only [Forest.nodes, List.length_cons, List.length_append, List.length_nil] at hdepth
      obtain ⟨found, htype, hfound⟩ := ih w args .nil hlist.children (by omega)
      have hrest := phrase_rest ih hlist.rest (by omega)
      refine ⟨⟨some (values name.tokens), [found]⟩, ?_, fun t label ht hexposes => ?_⟩
      · simpa [Forest.tokens] using Phrase.template l r htokens htype hrest
      · have hlookup := lookupAll_zero (hexposes.firstLevel _ (by decide) _ hlevelArg) ht.holds
          ht.nodup_subtree
        have hvalue := lookupValue_identifier ht (hexposes.firstLevel _ (by decide) _ hlevel) hname
        have hsingle := lookupSingle_type harg
        have hat : typeAt all depth w = some found :=
          hfound ⟨w, none, args⟩ "Type" harg.children (Exposes.refl _)
        simp [typeAt, hlookup, hvalue, hsingle, hat]

/-- The first level with a `TemplateArg` in a tree of a text is that of its type. -/
lemma exposes_start {n b k : ℕ} {boundary args : Forest String Text}
    (h : Parsed all (.cons b "Boundary" none boundary .nil)) :
    Exposes (.cons k "Type" none args .nil) (.cons n "START" none
      (.cons b "Boundary" none boundary (.cons k "Type" none args .nil)) .nil) where
  firstLevel := by
    intro symbol hsymbol nodes hlevel
    have hboundary : symbol ∉ (Forest.cons b "Boundary" none boundary .nil).labels :=
      notMem_labels_boundary h hsymbol
    have hne : symbol ≠ "START" := by
      rintro rfl
      exact absurd hsymbol (by decide)
    exact (hlevel.append_left hboundary).under hne
  absent := by
    intro habsent
    have hboundary := templateArg_notMem h (by decide)
    simp only [Forest.labels, List.append_nil, List.mem_cons, List.mem_append, not_or]
      at hboundary habsent ⊢
    exact ⟨by decide, hboundary.1, hboundary.2, habsent.1, habsent.2⟩

/-- **What `parse` returns** for a tree: the tokens are a boundary and a type, which is found with
the first of its template arguments. -/
theorem exists_parseType {fuel : ℕ} {s : Text} (h : parse fuel s = some (.tree all)) :
    ∃ found bs ts, parseType fuel s = some found ∧ TypeTokenizer.tokenize s = bs ++ ts ∧
      BoundaryTokens bs ∧ Phrase (.type found) ts := by
  obtain ⟨value, children, hholds, hnodup, hderivation, htokens⟩ :=
    Parser.parse_sound grammar (tokenize_notMem_nonterminals s) h
  have hparsed : Parsed all (.cons 0 "START" value children .nil) := ⟨hholds, hnodup, hderivation⟩
  obtain ⟨hstart, -⟩ := rules_of_types
  obtain ⟨rfl, hsymbols⟩ := expanded hparsed (by decide)
  rw [hstart, List.mem_singleton] at hsymbols
  obtain ⟨b, v₁, boundary, f₁, rfl, h₁⟩ := Forest.exists_cons hsymbols
  obtain ⟨k, v₂, args, f₂, rfl, h₂⟩ := Forest.exists_cons h₁
  obtain rfl := Forest.eq_nil_of_symbols h₂
  obtain ⟨rfl, hboundary⟩ := boundaryTokens_of_parsed hparsed.children
  obtain ⟨rfl, -⟩ := expanded hparsed.children.rest (by decide)
  have hlength := hholds.length_nodes_le hnodup
  simp only [Forest.nodes, List.length_cons, List.length_append, List.length_nil] at hlength
  obtain ⟨found, hphrase, hfound⟩ := findsType all all.length k args .nil hparsed.children.rest
    (by omega)
  refine ⟨found, boundary.tokens, args.tokens, ?_, ?_, hboundary, hphrase⟩
  · rw [parseType, h]
    exact hfound ⟨0, none, _⟩ "START" hparsed (exposes_start hparsed.children.head)
  · rw [← htokens]
    simp [Forest.tokens]

/-- A type is returned for a tree. -/
lemma exists_tree_of_parseType {fuel : ℕ} {s : Text} {found : ParsedType}
    (h : parseType fuel s = some found) : ∃ all, parse fuel s = some (.tree all) := by
  unfold parseType at h
  split at h
  next all htree => exact ⟨all, htree⟩
  next => exact absurd h (by simp)

end Shape

end TypeParser

end NaoSoccer
