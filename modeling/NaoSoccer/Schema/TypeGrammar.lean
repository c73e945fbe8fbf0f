import NaoSoccer.Schema.SchemaGrammar

/-!
# The grammar of type names

`build_parser` gives the type parser its rules: a type is an identifier, with template arguments in
angles or without, and an identifier has parts between double colons.

The rules are those of the source, in its order.  The tokenizer has no kind for other expressions,
but it cuts them off in front of the name of a kind like every tokenizer.
-/

namespace NaoSoccer

open Grammar

namespace TypeTokenizer

/-- `tokenizer.expressions` in `build_tokenizer`. -/
def expressions : Expressions :=
  [("LPAREN", .literal ['(']),
    ("RPAREN", .literal [')']),
    ("LANGLE", .literal ['<']),
    ("RANGLE", .literal ['>']),
    ("COMMA", .literal [',']),
    ("COLON", .literal [':']),
    ("SIMPLE_IDENTIFIER", .plus SchemaTokenizer.isWordChar),
    ("WHITESPACE", .plus SchemaTokenizer.isSpaceChar)]

/-- `TypeTokenizer.tokenize` -/
def tokenize (s : Text) : List (Token String Text) := Tokenizer.tokenize expressions s

end TypeTokenizer

namespace TypeParser

/-- The calls of `Parser.addRules` in `build_parser`: each nonterminal with its rules. -/
def ruleSets : List (String × List (List String)) :=
  [("START", [["Boundary", "Type"]]),
    ("Boundary", [["WHITESPACE"], ["EMPTY_STRING"]]),
    ("Type", [["Identifier", "TypeEnd"]]),
    ("Identifier", [["SIMPLE_IDENTIFIER", "IdentifierEnd"]]),
    ("IdentifierEnd", [["COLON", "COLON", "Identifier"], ["EMPTY_STRING"]]),
    ("TypeEnd", [["TemplateArgs"], ["EMPTY_STRING"]]),
    ("TemplateArgs", [["LANGLE", "TemplateArgList", "RANGLE"]]),
    ("TemplateArgList", [["TemplateArg", "Boundary", "TemplateArgsEnd"]]),
    ("TemplateArg", [["Type"]]),
    ("TemplateArgsEnd", [["COMMA", "Boundary", "TemplateArgList"], ["EMPTY_STRING"]])]

/-- The grammar that `build_parser` gives the type parser. -/
def grammar : Grammar String where
  emptyString := "EMPTY_STRING"
  start := "START"
  terminals := TypeTokenizer.expressions.map Prod.fst
  nonterminals := ruleSets.map Prod.fst
  rules := ruleSets.flatMap fun entry => entry.2.map fun rule => (entry.1, rule)
  emptyString_notMem_terminals := by decide +kernel
  emptyString_notMem_nonterminals := by decide +kernel
  notMem_nonterminals := by decide +kernel
  start_mem := by decide +kernel
  rule_mem := by decide +kernel
  rule_symbols := by decide +kernel

/-- `TypeParser.parse` -/
def parse (fuel : ℕ) (s : Text) : Option (ParseResult String Text) :=
  (Parser.build grammar).parse fuel (TypeTokenizer.tokenize s)

/-- No token of a type name is a nonterminal. -/
lemma tokenize_notMem_nonterminals (s : Text) :
    ∀ token ∈ TypeTokenizer.tokenize s, token.token ∉ grammar.nonterminals := by
  intro token htoken
  rcases Tokenizer.isKind_tokenize _ s token htoken with hexpression | hkind
  · rw [hexpression]
    decide +kernel
  · exact grammar.notMem_nonterminals _ hkind

example : (TypeTokenizer.tokenize "a<b>".toList).map Token.token =
    ["SIMPLE_IDENTIFIER", "LANGLE", "SIMPLE_IDENTIFIER", "RANGLE"] := by
  decide +kernel

end TypeParser

end NaoSoccer
