import NaoSoccer.Schema.ParserSoundness
import NaoSoccer.Schema.Tokenizer

/-!
# The grammar of schema headers

`build_parser` gives the schema parser its rules.  A header is a sequence of schema declarations
with any tokens but function names between them; a declaration wraps a class whose members are
directives, and a directive is a function name with arguments in parentheses and a semicolon.

The rules are those of the source, in its order.
-/

namespace NaoSoccer

open Grammar

namespace SchemaParser

/-- The rules of a directive that takes any arguments. -/
def argumentsRules (function : String) : List (List String) :=
  [[function, "LPAREN", "MemberArguments", "RPAREN", "SEMICOLON"]]

/-- The calls of `Parser.addRules` in `build_parser`: each nonterminal with its rules. -/
def ruleSets : List (String × List (List String)) :=
  [("START", [["SchemaDeclarations"]]),
    ("SchemaDeclarations",
      [["Ignored", "SchemaDeclaration", "Ignored", "SchemaDeclarations"], ["EMPTY_STRING"]]),
    ("SchemaDeclaration",
      [["SchemaDeclarationFunction", "LPAREN", "SchemaDefinition", "RPAREN", "SEMICOLON"]]),
    ("SchemaDeclarationFunction", [["DECLARE_INTERNAL_SCHEMA"], ["DECLARE_EXTERNAL_SCHEMA"]]),
    ("SchemaDefinition",
      [["Identifier", "WHITESPACE", "SchemaName", "WHITESPACE", "BaseClassList", "Boundary",
        "MemberDeclarationsBlock"]]),
    ("SchemaName", [["TypeIdentifier"]]),
    ("BaseClassList", [["COLON", "Boundary", "BaseClasses"], ["EMPTY_STRING"]]),
    ("BaseClasses", [["BaseClass", "Boundary", "BaseClassesEnd"]]),
    ("BaseClass", [["AccessModifier", "WHITESPACE", "Identifier"]]),
    ("BaseClassesEnd", [["COMMA", "Boundary", "BaseClasses"], ["EMPTY_STRING"]]),
    ("MemberDeclarationsBlock", [["LBRACKET", "Boundary", "MemberDeclarations", "RBRACKET"]]),
    ("MemberDeclarations",
      [["MemberDeclaration", "MemberDeclarationsEnd"],
        ["AccessModifier", "COLON", "MemberDeclarationsEnd"], ["EMPTY_STRING"]]),
    ("AccessModifier", [["PUBLIC"], ["PRIVATE"], ["PROTECTED"]]),
    ("MemberDeclarationsEnd",
      [["CompoundExpressionList", "MemberDeclarations"], ["EMPTY_STRING"]]),
    ("SchemaField",
      [["SCHEMA_FIELD", "LPAREN", "Boundary", "TypeIdentifier", "WHITESPACE", "NameIdentifier",
        "Boundary", "OptionalValue", "Boundary", "RPAREN", "SEMICOLON"]]),
    ("OptionalValue", [["EQUALS", "Boundary", "ValueIdentifier"], ["EMPTY_STRING"]]),
    ("NameIdentifier", [["SIMPLE_IDENTIFIER"]]),
    ("ValueIdentifier", [["SIMPLE_IDENTIFIER"], ["NEGATION", "SIMPLE_IDENTIFIER"]]),
    ("TypeIdentifier", [["SIMPLE_IDENTIFIER", "TypeIdentifierEnd"]]),
    ("TypeIdentifierEnd",
      [["COLON", "COLON", "TypeIdentifier"],
        ["LANGLE", "Boundary", "TemplateArgs", "Boundary", "RANGLE", "TypeIdentifierEnd"],
        ["EMPTY_STRING"]]),
    ("TemplateArgs", [["TypeIdentifier", "Boundary", "TemplateArgsEnd"], ["EMPTY_STRING"]]),
    ("TemplateArgsEnd", [["COMMA", "Boundary", "TemplateArgs"], ["EMPTY_STRING"]]),
    ("SchemaSerialization", argumentsRules "SCHEMA_SERIALIZATION"),
    ("SchemaDeserialization", argumentsRules "SCHEMA_DESERIALIZATION"),
    ("SchemaPreSerialization", argumentsRules "SCHEMA_PRE_SERIALIZATION"),
    ("SchemaPreDeserialization", argumentsRules "SCHEMA_PRE_DESERIALIZATION"),
    ("SchemaPostSerialization", argumentsRules "SCHEMA_POST_SERIALIZATION"),
    ("SchemaPostDeserialization", argumentsRules "SCHEMA_POST_DESERIALIZATION"),
    ("SchemaMethods", argumentsRules "SCHEMA_METHODS"),
    ("NoSchema", argumentsRules "NO_SCHEMA"),
    ("MemberDeclaration",
      [["SchemaField"], ["SchemaSerialization"], ["SchemaDeserialization"],
        ["SchemaPreSerialization"], ["SchemaPostSerialization"], ["SchemaPreDeserialization"],
        ["SchemaPostDeserialization"], ["SchemaMethods"], ["NoSchema"]]),
    ("MemberArguments", [["MemberArgument", "MemberArgumentsEnd"], ["EMPTY_STRING"]]),
    ("MemberArgument", [["CompoundExpressionList"]]),
    ("MemberArgumentsEnd", [["COMMA", "MemberArguments"], ["EMPTY_STRING"]]),
    ("CompoundExpressionList",
      [["CompoundExpression", "Boundary", "CompoundExpressionListEnd"], ["EMPTY_STRING"]]),
    ("CompoundExpressionListEnd",
      [["NEGATION", "Boundary", "CompoundExpressionList"],
        ["COMMA", "Boundary", "CompoundExpressionList"],
        ["SEMICOLON", "Boundary", "CompoundExpressionList"],
        ["COLON", "Boundary", "CompoundExpressionList"],
        ["LBRACKET", "CompoundExpressionList", "RBRACKET", "Boundary", "CompoundExpressionList"],
        ["Operator", "Boundary", "CompoundExpressionList"],
        ["SIMPLE_IDENTIFIER", "Boundary", "CompoundExpressionList"], ["EMPTY_STRING"]]),
    ("Operator", [["EXPRESSION"], ["EQUALS"]]),
    ("CompoundExpression",
      [["Expression", "CompoundExpression"],
        ["LPAREN", "Boundary", "CompoundExpressionList", "Boundary", "RPAREN"],
        ["LBRACKET", "Boundary", "CompoundExpressionList", "Boundary", "RBRACKET"],
        ["NEGATION", "CompoundExpression"], ["EMPTY_STRING"]]),
    ("Expression",
      [["EXPRESSION"], ["Identifier"], ["WHITESPACE"], ["SEMICOLON"], ["EQUALS"], ["LANGLE"],
        ["RANGLE"]]),
    ("Identifier", [["SIMPLE_IDENTIFIER", "IdentifierEnd"]]),
    ("IdentifierEnd", [["COLON", "COLON", "Identifier"], ["EMPTY_STRING"]]),
    ("Boundary", [["WHITESPACE"], ["EMPTY_STRING"]]),
    ("Ignored",
      ["EMPTY_STRING"] :: ((SchemaTokenizer.expressions.map Prod.fst).filter
        (· ∉ SchemaTokenizer.functions)).map fun t => [t, "IgnoredEnd"]),
    ("IgnoredEnd", [["Ignored"], ["EMPTY_STRING"]])]

/-- The grammar that `build_parser` gives the schema parser. -/
def grammar : Grammar String where
  emptyString := "EMPTY_STRING"
  start := "START"
  terminals := SchemaTokenizer.expressions.map Prod.fst
  nonterminals := ruleSets.map Prod.fst
  rules := ruleSets.flatMap fun entry => entry.2.map fun rule => (entry.1, rule)
  emptyString_notMem_terminals := by decide +kernel
  emptyString_notMem_nonterminals := by decide +kernel
  notMem_nonterminals := by decide +kernel
  start_mem := by decide +kernel
  rule_mem := by decide +kernel
  rule_symbols := by decide +kernel

/-- The rules of a nonterminal are those that `build_parser` gives with it. -/
lemma rulesOf_eq (A : String) :
    grammar.rulesOf A = (ruleSets.filter fun entry => entry.1 = A).flatMap Prod.snd :=
  rulesOf_of_ruleSets rfl A

/-- `SchemaParser.parse` on the text of a header. -/
def parse (fuel : ℕ) (header : Text) : Option (ParseResult String Text) :=
  (Parser.build grammar).parse fuel (SchemaTokenizer.tokenize header)

/-- The nodes that `parse` returns are a derivation of the tokens of the header. -/
lemma isParseTree_of_parse {fuel : ℕ} {header : Text} {all : List (ParseNode String Text)}
    (h : parse fuel header = some (.tree all)) :
    IsParseTree grammar all (SchemaTokenizer.tokenize header) := by
  rw [parse, Parser.parse] at h
  split at h
  · exact absurd h (by simp)
  · refine Parser.isParseTree_of_parseLoop (fun token htoken => ?_) h
    exact grammar.notMem_nonterminals _ (SchemaTokenizer.isToken_tokenize header token htoken).kind

/-! ## The shape of declarations and directives -/

/-- The nonterminals of the member directives. -/
def directives : List String :=
  ["SchemaField", "SchemaSerialization", "SchemaDeserialization", "SchemaPreSerialization",
    "SchemaPostSerialization", "SchemaPreDeserialization", "SchemaPostDeserialization",
    "SchemaMethods", "NoSchema"]

/-- Headers, declarations and directives are nonterminals. -/
lemma mem_nonterminals : ∀ A ∈ "START" :: "SchemaDeclarations" :: "SchemaDeclaration" ::
    "MemberDeclaration" :: directives, A ∈ grammar.nonterminals := by
  simp [grammar, ruleSets, directives]

/-- Declarations, member declarations and directives are never empty. -/
lemma not_nullable {X : String}
    (hX : X ∈ "SchemaDeclaration" :: "MemberDeclaration" :: directives) :
    ¬ grammar.Nullable X := by
  have hrules : ∀ A ∈ "SchemaDeclaration" :: "MemberDeclaration" :: directives,
      ∀ rule ∈ grammar.rulesOf A, ∃ X ∈ rule,
        X ∈ grammar.terminals ∨ X ∈ "SchemaDeclaration" :: "MemberDeclaration" :: directives := by
    simp only [rulesOf_eq]
    decide +kernel
  exact not_nullable_of_rules (by simp [grammar, directives]) hrules hX

/-- The rules of headers, declarations and directives. -/
lemma rules_of_declarations :
    (∀ rule ∈ grammar.rulesOf "START", rule = ["SchemaDeclarations"]) ∧
    (∀ rule ∈ grammar.rulesOf "SchemaDeclarations",
      rule = ["Ignored", "SchemaDeclaration", "Ignored", "SchemaDeclarations"] ∨
        rule = ["EMPTY_STRING"]) ∧
    (∀ rule ∈ grammar.rulesOf "SchemaDeclaration", rule =
      ["SchemaDeclarationFunction", "LPAREN", "SchemaDefinition", "RPAREN", "SEMICOLON"]) ∧
    (∀ rule ∈ grammar.rulesOf "MemberDeclaration",
      ∃ directive ∈ directives, rule = [directive]) ∧
    ∀ rule ∈ grammar.rulesOf "SchemaField", rule =
      ["SCHEMA_FIELD", "LPAREN", "Boundary", "TypeIdentifier", "WHITESPACE", "NameIdentifier",
        "Boundary", "OptionalValue", "Boundary", "RPAREN", "SEMICOLON"] := by
  simp only [rulesOf_eq]
  decide +kernel

variable {τ : Type*} {node : ℕ} {value : Option τ} {children rest : Forest String τ}

/-- What a declaration consists of. -/
lemma symbols_schemaDeclaration
    (h : Derivation grammar (.cons node "SchemaDeclaration" value children rest)) :
    children.symbols =
      ["SchemaDeclarationFunction", "LPAREN", "SchemaDefinition", "RPAREN", "SEMICOLON"] := by
  obtain ⟨-, hrule, -⟩ := h.rule_of_not_nullable (mem_nonterminals _ (by simp)) (not_nullable (by simp))
  exact rules_of_declarations.2.2.1 _ (mem_rulesOf.mpr hrule)

/-- What a member declaration consists of. -/
lemma symbols_memberDeclaration
    (h : Derivation grammar (.cons node "MemberDeclaration" value children rest)) :
    ∃ directive ∈ directives, children.symbols = [directive] := by
  obtain ⟨-, hrule, -⟩ := h.rule_of_not_nullable (mem_nonterminals _ (by simp)) (not_nullable (by simp))
  exact rules_of_declarations.2.2.2.1 _ (mem_rulesOf.mpr hrule)

/-- What a `SCHEMA_FIELD` consists of. -/
lemma symbols_schemaField
    (h : Derivation grammar (.cons node "SchemaField" value children rest)) :
    children.symbols =
      ["SCHEMA_FIELD", "LPAREN", "Boundary", "TypeIdentifier", "WHITESPACE", "NameIdentifier",
        "Boundary", "OptionalValue", "Boundary", "RPAREN", "SEMICOLON"] := by
  obtain ⟨-, hrule, -⟩ := h.rule_of_not_nullable (mem_nonterminals _ (by simp [directives]))
    (not_nullable (by simp [directives]))
  exact rules_of_declarations.2.2.2.2 _ (mem_rulesOf.mpr hrule)

/-- The symbols that stand above the member declarations. -/
def aboveMembers : List String :=
  ["START", "SchemaDeclarations", "SchemaDeclaration", "SchemaDefinition",
    "MemberDeclarationsBlock", "MemberDeclarations", "MemberDeclarationsEnd", "MemberDeclaration"]

/-- The symbols that stand above the declarations. -/
def aboveDeclarations : List String := ["START", "SchemaDeclarations", "SchemaDeclaration"]

/-- Only symbols above the members, or above the declarations, have such symbols in their rules. -/
lemma notMem_above :
    (∀ rule ∈ grammar.rules, rule.1 ∉ aboveMembers → ∀ X ∈ rule.2, X ∉ aboveMembers) ∧
    (∀ rule ∈ grammar.rules, rule.1 ∉ aboveDeclarations → ∀ X ∈ rule.2, X ∉ aboveDeclarations) ∧
    ∀ X ∈ directives, X ∉ aboveMembers := by
  decide +kernel

/-- Member declarations do not stand in each other. -/
lemma notMem_labels_memberDeclaration
    (h : Derivation grammar (.cons node "MemberDeclaration" value children rest)) :
    "MemberDeclaration" ∉ children.labels := by
  obtain ⟨hrules, -, hdirectives⟩ := notMem_above
  obtain ⟨directive, hdirective, hsymbols⟩ := symbols_memberDeclaration h
  have hchildren : ∀ X ∈ children.symbols, X ∉ aboveMembers := by
    intro X hX
    rw [hsymbols] at hX
    rw [List.mem_singleton.mp hX]
    exact hdirectives directive hdirective
  exact fun hmem => h.children.notMem_labels hrules hchildren _ hmem (by simp [aboveMembers])

/-- Declarations do not stand in each other. -/
lemma notMem_labels_schemaDeclaration
    (h : Derivation grammar (.cons node "SchemaDeclaration" value children rest)) :
    "SchemaDeclaration" ∉ children.labels := by
  have hchildren : ∀ X ∈ children.symbols, X ∉ aboveDeclarations := by
    rw [symbols_schemaDeclaration h]
    simp [aboveDeclarations]
  exact fun hmem => h.children.notMem_labels notMem_above.2.1 hchildren _ hmem
    (by simp [aboveDeclarations])

/-- **Every header that is accepted has a declaration.** -/
lemma exists_schemaDeclaration {t : Forest.Subtree String τ}
    (h : Derivation grammar (t.tree "START")) (htokens : (t.tree "START").tokens ≠ []) :
    ∃ s, s ∈ (t.tree "START").subtrees "SchemaDeclaration" := by
  obtain ⟨hstart, hdeclarations, -⟩ := rules_of_declarations
  obtain ⟨hrule, htokens⟩ := h.rule_of_tokens (mem_nonterminals _ (by simp)) htokens
  have hderivation := h.children
  obtain ⟨node, value, children⟩ := t
  obtain ⟨n₀, v₀, c₀, f₀, rfl, h₀⟩ := Forest.exists_cons (hstart _ (mem_rulesOf.mpr hrule))
  obtain rfl := Forest.eq_nil_of_symbols h₀
  obtain ⟨hrule₀, htokens₀⟩ := hderivation.rule_of_tokens (mem_nonterminals _ (by simp)) htokens
  rcases hdeclarations _ (mem_rulesOf.mpr hrule₀) with hsymbols | hsymbols
  · obtain ⟨n₁, v₁, c₁, f₁, rfl, h₁⟩ := Forest.exists_cons hsymbols
    obtain ⟨n₂, v₂, c₂, f₂, rfl, h₂⟩ := Forest.exists_cons h₁
    refine ⟨⟨n₂, v₂, c₂⟩, ?_⟩
    simp [Forest.Subtree.tree, Forest.subtrees]
  · obtain ⟨n₁, v₁, c₁, f₁, rfl, h₁⟩ := Forest.exists_cons hsymbols
    obtain rfl := Forest.eq_nil_of_symbols h₁
    have hempty : Derivation grammar (.cons n₁ grammar.emptyString v₁ c₁ .nil) :=
      hderivation.children
    exact absurd hempty.tokens_of_empty htokens₀

end SchemaParser

end NaoSoccer
