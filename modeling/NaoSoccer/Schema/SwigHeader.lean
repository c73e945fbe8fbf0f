import NaoSoccer.Schema.ParserCompleteness
import NaoSoccer.Schema.RemoveDirectives

/-!
# Which headers lose more than their directives

For every header that the schema parser accepts, the SWIG header is the header without its
directives exactly if every name, parenthesis and semicolon that goes with a directive is a token of
its own.  A header whose first declaration has a newline behind the opening parenthesis is accepted
and loses the newline.
-/

namespace NaoSoccer

open Grammar SchemaForest

namespace SchemaParser

/-! ## A header that is accepted -/

/-- The kinds of the tokens of a declaration without base classes and members. -/
def emptyClassKinds : List String :=
  ["DECLARE_INTERNAL_SCHEMA", "LPAREN", "SIMPLE_IDENTIFIER", "WHITESPACE", "SIMPLE_IDENTIFIER",
    "WHITESPACE", "LBRACKET", "RBRACKET", "RPAREN", "SEMICOLON"]

/-- No rule of `MemberDeclarations` begins with a closing bracket. -/
lemma not_begins_memberDeclarations :
    ∀ rule, ("MemberDeclarations", rule) ∈ grammar.rules →
      ¬ grammar.Begins grammar.HasEmptyRule rule "RBRACKET" := by
  set solid : List String := "MemberDeclaration" :: "AccessModifier" :: directives with hsolid
  have hrules : ∀ A ∈ solid, ∀ rule ∈ grammar.rulesOf A,
      ∃ X ∈ rule.head?, X ∈ grammar.terminals ∧ X ≠ "RBRACKET" ∨ X ∈ solid := by
    simp only [rulesOf_eq]
    decide
  have hheads : ∀ rule ∈ grammar.rulesOf "MemberDeclarations", rule = [grammar.emptyString] ∨
      ∃ X ∈ rule.head?, X ∈ grammar.terminals ∧ X ≠ "RBRACKET" ∨ X ∈ solid := by
    rw [rulesOf_eq]
    decide
  exact not_begins_of_heads (by decide) (by decide) hrules hheads

/-- The rule by which a nonterminal is expanded in the declaration of an empty class. -/
lemma rulesOf_emptyClass :
    (grammar.rulesOf "START").head? = some ["SchemaDeclarations"] ∧
    (grammar.rulesOf "SchemaDeclarations").head? =
      some ["Ignored", "SchemaDeclaration", "Ignored", "SchemaDeclarations"] ∧
    (grammar.rulesOf "SchemaDeclaration").head? = some
      ["SchemaDeclarationFunction", "LPAREN", "SchemaDefinition", "RPAREN", "SEMICOLON"] ∧
    (grammar.rulesOf "SchemaDeclarationFunction").head? = some ["DECLARE_INTERNAL_SCHEMA"] ∧
    (grammar.rulesOf "SchemaDefinition").head? =
      some ["Identifier", "WHITESPACE", "SchemaName", "WHITESPACE", "BaseClassList", "Boundary",
        "MemberDeclarationsBlock"] ∧
    (grammar.rulesOf "Identifier").head? = some ["SIMPLE_IDENTIFIER", "IdentifierEnd"] ∧
    (grammar.rulesOf "SchemaName").head? = some ["TypeIdentifier"] ∧
    (grammar.rulesOf "TypeIdentifier").head? = some ["SIMPLE_IDENTIFIER", "TypeIdentifierEnd"] ∧
    (grammar.rulesOf "MemberDeclarationsBlock").head? =
      some ["LBRACKET", "Boundary", "MemberDeclarations", "RBRACKET"] := by
  simp only [rulesOf_eq]
  decide

/-- **The declaration of an empty class** is accepted, whatever the texts of its tokens are. -/
lemma consumes_emptyClass :
    Parser.Consumes (Parser.build grammar) ["START"] emptyClassKinds [] := by
  obtain ⟨hstart, hdeclarations, hdeclaration, hfunction, hdefinition, hidentifier, hname, htype,
    hblock⟩ := rulesOf_emptyClass
  have hrule {A : String} {rule : List String} (h : (grammar.rulesOf A).head? = some rule) :
      (A, rule) ∈ grammar.rules := mem_rulesOf.mp (List.mem_of_head? h)
  have hempty : ∀ A ∈ ["Ignored", "SchemaDeclarations", "IdentifierEnd", "TypeIdentifierEnd",
      "BaseClassList", "Boundary", "MemberDeclarations"],
      (A, [grammar.emptyString]) ∈ grammar.rules := by
    simp only [← mem_rulesOf, rulesOf_eq]
    decide
  have hskip {A t : String} {ss : List String} (hA : (A, [grammar.emptyString]) ∈ grammar.rules)
      (h : grammar.Begins grammar.HasEmptyRule ss t) :
      grammar.Begins grammar.HasEmptyRule (A :: ss) t := Begins.skip (Or.inr hA) h
  have hbegins : ∀ t ∈ emptyClassKinds, ∀ ss,
      grammar.Begins grammar.HasEmptyRule (t :: ss) t := by
    have hterminals : ∀ t ∈ emptyClassKinds, t ∈ grammar.terminals := by
      decide
    exact fun t ht ss => Begins.terminal (hterminals t ht)
  have htake {t : String} {ss ts w : List String} (ht : t ∈ emptyClassKinds)
      (h : Parser.Consumes (Parser.build grammar) ss ts w) :
      Parser.Consumes (Parser.build grammar) (t :: ss) (t :: ts) w := by
    have hne : ∀ t ∈ emptyClassKinds, t ≠ grammar.emptyString := by
      decide
    exact Parser.Consumes.take (hne t ht) h
  have hblockBegins : grammar.Begins grammar.HasEmptyRule ["MemberDeclarationsBlock"] "LBRACKET" :=
    Begins.expand (hrule hblock) (hbegins _ (by decide) _)
  -- the class from its opening bracket
  have hblockConsumes : Parser.Consumes (Parser.build grammar) ["MemberDeclarationsBlock"]
      ["LBRACKET", "RBRACKET", "RPAREN", "SEMICOLON"] ["RPAREN", "SEMICOLON"] := by
    refine Parser.Consumes.expand_first hblock (hbegins _ (by decide) _) ?_ Parser.Consumes.nil
    refine htake (by decide) ?_
    refine Parser.Consumes.expand_empty (hempty _ (by decide)) ?_
      (not_begins_of_terminals (by rw [rulesOf_eq]; decide)) ?_
    · exact Follows.right (α := ["LBRACKET"]) (hrule hblock)
        (hskip (hempty _ (by decide)) (hbegins _ (by decide) _))
    refine Parser.Consumes.expand_empty (hempty _ (by decide)) ?_ not_begins_memberDeclarations ?_
    · exact Follows.right (α := ["LBRACKET", "Boundary"]) (hrule hblock) (hbegins _ (by decide) _)
    exact htake (by decide) Parser.Consumes.nil
  have hbasesConsumes : Parser.Consumes (Parser.build grammar)
      ["BaseClassList", "Boundary", "MemberDeclarationsBlock"]
      ["LBRACKET", "RBRACKET", "RPAREN", "SEMICOLON"] ["RPAREN", "SEMICOLON"] := by
    refine Parser.Consumes.expand_empty (hempty _ (by decide)) ?_
      (not_begins_of_terminals (by rw [rulesOf_eq]; decide)) ?_
    · exact Follows.right (α := ["Identifier", "WHITESPACE", "SchemaName", "WHITESPACE"])
        (hrule hdefinition) (hskip (hempty _ (by decide)) hblockBegins)
    refine Parser.Consumes.expand_empty (hempty _ (by decide)) ?_
      (not_begins_of_terminals (by rw [rulesOf_eq]; decide)) hblockConsumes
    exact Follows.right (α := ["Identifier", "WHITESPACE", "SchemaName", "WHITESPACE",
      "BaseClassList"]) (hrule hdefinition) hblockBegins
  -- what follows the keyword and the name of the class
  have hidentifierFollows : grammar.Follows grammar.HasEmptyRule "IdentifierEnd" "WHITESPACE" :=
    Follows.inherit (α := ["SIMPLE_IDENTIFIER"]) (hrule hidentifier)
      (fun Y hY => absurd hY List.not_mem_nil)
      (Follows.right (α := []) (hrule hdefinition) (hbegins _ (by decide) _))
  have hnameFollows : grammar.Follows grammar.HasEmptyRule "SchemaName" "WHITESPACE" :=
    Follows.right (α := ["Identifier", "WHITESPACE"]) (hrule hdefinition) (hbegins _ (by decide) _)
  have htypeFollows : grammar.Follows grammar.HasEmptyRule "TypeIdentifierEnd" "WHITESPACE" :=
    Follows.inherit (α := ["SIMPLE_IDENTIFIER"]) (hrule htype)
      (fun Y hY => absurd hY List.not_mem_nil)
      (Follows.inherit (α := []) (hrule hname) (fun Y hY => absurd hY List.not_mem_nil)
        hnameFollows)
  have htypeBegins : grammar.Begins grammar.HasEmptyRule ["TypeIdentifier"] "SIMPLE_IDENTIFIER" :=
    Begins.expand (hrule htype) (hbegins _ (by decide) _)
  have hdefinitionConsumes : Parser.Consumes (Parser.build grammar)
      ["SchemaDefinition", "RPAREN", "SEMICOLON"] ["SIMPLE_IDENTIFIER", "WHITESPACE",
        "SIMPLE_IDENTIFIER", "WHITESPACE", "LBRACKET", "RBRACKET", "RPAREN", "SEMICOLON"] [] := by
    refine Parser.Consumes.expand_first hdefinition
      (Begins.expand (hrule hidentifier) (hbegins _ (by decide) _)) ?_
      (htake (by decide) (htake (by decide) Parser.Consumes.nil))
    refine Parser.Consumes.expand_first hidentifier (hbegins _ (by decide) _)
      (htake (by decide) (Parser.Consumes.expand_empty (hempty _ (by decide)) hidentifierFollows
        (not_begins_of_terminals (by rw [rulesOf_eq]; decide)) Parser.Consumes.nil)) ?_
    refine htake (by decide) ?_
    refine Parser.Consumes.expand_first hname htypeBegins ?_ (htake (by decide) hbasesConsumes)
    exact Parser.Consumes.expand_first htype (hbegins _ (by decide) _)
      (htake (by decide) (Parser.Consumes.expand_empty (hempty _ (by decide)) htypeFollows
        (not_begins_of_terminals (by rw [rulesOf_eq]; decide)) Parser.Consumes.nil)) Parser.Consumes.nil
  -- the declaration
  have hfunctionBegins (ss : List String) : grammar.Begins grammar.HasEmptyRule
      ("SchemaDeclarationFunction" :: ss) "DECLARE_INTERNAL_SCHEMA" :=
    Begins.expand (hrule hfunction) (hbegins _ (by decide) _)
  have hdeclarationBegins (ss : List String) : grammar.Begins grammar.HasEmptyRule
      ("SchemaDeclaration" :: ss) "DECLARE_INTERNAL_SCHEMA" :=
    Begins.expand (hrule hdeclaration) (hfunctionBegins _)
  have hdeclarationsBegins : grammar.Begins grammar.HasEmptyRule
      ["Ignored", "SchemaDeclaration", "Ignored", "SchemaDeclarations"]
        "DECLARE_INTERNAL_SCHEMA" :=
    hskip (hempty _ (by decide)) (hdeclarationBegins _)
  have hend : Parser.Consumes (Parser.build grammar) ["Ignored", "SchemaDeclarations"] [] [] :=
    Parser.Consumes.drain_empty (hempty _ (by decide))
      (Parser.Consumes.drain_empty (hempty _ (by decide)) Parser.Consumes.nil)
  refine Parser.Consumes.expand_first hstart
    (Begins.expand (hrule hdeclarations) hdeclarationsBegins) ?_ Parser.Consumes.nil
  refine Parser.Consumes.expand_first hdeclarations hdeclarationsBegins ?_ Parser.Consumes.nil
  refine Parser.Consumes.expand_empty (hempty _ (by decide))
    (Follows.right (α := []) (hrule hdeclarations) (hdeclarationBegins _))
    (not_begins_of_terminals (by rw [rulesOf_eq]; decide)) ?_
  refine Parser.Consumes.expand_first hdeclaration (hfunctionBegins _) ?_ hend
  refine Parser.Consumes.expand_first hfunction (hbegins _ (by decide) _)
    (htake (by decide) Parser.Consumes.nil) ?_
  exact htake (by decide) hdefinitionConsumes

/-- A header with the tokens of the declaration of an empty class is accepted. -/
lemma exists_parse_emptyClass {header : Text}
    (h : (SchemaTokenizer.tokenize header).map Token.token = emptyClassKinds) :
    ∃ fuel all, parse fuel header = some (.tree all) := by
  have hne : SchemaTokenizer.tokenize header ≠ [] := by
    intro hnil
    rw [hnil] at h
    exact absurd h (by decide)
  refine (Parser.parse_tree_iff (Parser.build grammar) hne).mpr ?_
  rw [h]
  exact consumes_emptyClass

end SchemaParser

/-! ## Which headers lose more -/

variable {header : Text} {fuel : ℕ} {all : List (ParseNode String Text)} {f : Forest String Text}

/-- The parse tree of a header. -/
lemma exists_parseTree (hparse : SchemaParser.parse fuel header = some (.tree all)) :
    ∃ tree : Forest.Subtree String Text, tree.node = 0 ∧ (tree.tree "START").Holds all ∧
      tree.nodes.Nodup ∧ Derivation SchemaParser.grammar (tree.tree "START") ∧
      (tree.tree "START").tokens = SchemaTokenizer.tokenize header := by
  obtain ⟨value, children, hholds, hnodup, hderivation, htokens⟩ :=
    SchemaParser.isParseTree_of_parse hparse
  refine ⟨⟨0, value, children⟩, rfl, hholds, ?_, hderivation, htokens⟩
  rw [Forest.nodes, Forest.nodes, List.append_nil] at hnodup
  exact hnodup

/-- **The SWIG header of an accepted header**: `remove_directives` and `getValue` finish, and what
is written has the texts of all tokens that are not removed. -/
lemma swig_of_parse (hparse : SchemaParser.parse fuel header = some (.tree all))
    (hholds : f.Holds all) (hroots : f.roots = [0]) :
    f.tokens = SchemaTokenizer.tokenize header ∧
      swig all = some (keptText (placedTokens .outside f)) := by
  obtain ⟨tree, hroot, htree, hnodup, hderivation, htokens⟩ := exists_parseTree hparse
  obtain rfl : f = tree.tree "START" := hholds.unique htree (by rw [hroots, ← hroot]; rfl)
  exact ⟨htokens, swig_eq htree hnodup hderivation hroot⟩

/-- Every name, parenthesis and semicolon that is deleted from an accepted header has a kind with
one spelling. -/
lemma token_mem_markerSymbols_of_parse
    (hparse : SchemaParser.parse fuel header = some (.tree all)) (hholds : f.Holds all)
    (hroots : f.roots = [0]) : ∀ token ∈ markers f, token.token ∈ markerSymbols := by
  obtain ⟨tree, hroot, htree, -, hderivation, -⟩ := exists_parseTree hparse
  obtain rfl : f = tree.tree "START" := hholds.unique htree (by rw [hroots, ← hroot]; rfl)
  intro token htoken
  obtain ⟨⟨place, token⟩, hentry, rfl⟩ := List.mem_map.mp htoken
  obtain ⟨hentry, hplace⟩ := List.mem_filter.mp hentry
  obtain rfl : place = .marker := of_decide_eq_true hplace
  exact token_mem_markerSymbols hderivation (fun heq => absurd heq (by decide)) token hentry

/-- Every token of an accepted header stands for some text. -/
lemma value_ne_nil_of_tokens (htokens : f.tokens = SchemaTokenizer.tokenize header) :
    ∀ token ∈ f.tokens, token.value ≠ [] := by
  intro token htoken
  rw [htokens] at htoken
  exact (SchemaTokenizer.isToken_tokenize header token htoken).value_ne

/-- The tokens of a declaration have their places in the whole tree. -/
lemma placedTokens_subtree {t : Forest.Subtree String Text}
    (ht : t ∈ f.subtrees "SchemaDeclaration") :
    ∀ entry ∈ placedTokens .declaration t.children, entry ∈ placedTokens .outside f := by
  induction f with
  | nil => exact absurd ht List.not_mem_nil
  | cons node symbol value children rest ihchildren ihrest =>
    intro entry hentry
    rw [Forest.subtrees] at ht
    rw [placedTokens, Place.below]
    split at ht
    next hsymbol =>
      rw [if_pos hsymbol]
      rcases List.mem_cons.mp ht with rfl | ht
      · exact List.mem_append_left _ (List.mem_append_right _ hentry)
      · exact List.mem_append_right _ (ihrest ht entry hentry)
    next hsymbol =>
      rw [if_neg hsymbol]
      rcases List.mem_append.mp ht with ht | ht
      · exact List.mem_append_left _ (List.mem_append_right _ (ihchildren ht entry hentry))
      · exact List.mem_append_right _ (ihrest ht entry hentry)

/-- An accepted header has a declaration, and the opening parenthesis of that is deleted. -/
lemma exists_lparen_mem_markers (hparse : SchemaParser.parse fuel header = some (.tree all))
    (hholds : f.Holds all) (hroots : f.roots = [0]) (hne : SchemaTokenizer.tokenize header ≠ []) :
    ∃ text, ⟨"LPAREN", text⟩ ∈ markers f := by
  obtain ⟨tree, hroot, htree, -, hderivation, htokens⟩ := exists_parseTree hparse
  obtain rfl : f = tree.tree "START" := hholds.unique htree (by rw [hroots, ← hroot]; rfl)
  obtain ⟨t, ht⟩ := SchemaParser.exists_schemaDeclaration hderivation (htokens ▸ hne)
  have htDerivation := hderivation.subtree t ht
  obtain ⟨n₀, v₀, c₀, f₀, hchildren, h₀⟩ :=
    Forest.exists_cons (SchemaParser.symbols_schemaDeclaration htDerivation)
  obtain ⟨n₁, v₁, c₁, f₁, rfl, -⟩ := Forest.exists_cons h₀
  have hderivation' := htDerivation.children
  rw [hchildren] at hderivation'
  obtain ⟨text, rfl⟩ := hderivation'.rest.value_of_terminal
    (by simp [SchemaParser.grammar, SchemaTokenizer.expressions])
  refine ⟨text, List.mem_map.mpr ⟨(.marker, ⟨"LPAREN", text⟩), List.mem_filter.mpr ⟨?_, rfl⟩, rfl⟩⟩
  refine placedTokens_subtree ht _ ?_
  rw [hchildren]
  simp [placedTokens, Place.below]

/-- A header on one line, without anything to be lost. -/
def lineHeader : Text := "DECLARE_INTERNAL_SCHEMA(class A {});".toList

/-- The same header with a newline behind the opening parenthesis. -/
def newlineHeader : Text := "DECLARE_INTERNAL_SCHEMA(\nclass A {});".toList

/-- The tokens of the header on one line. -/
lemma tokenize_lineHeader : SchemaTokenizer.tokenize lineHeader =
    [⟨"DECLARE_INTERNAL_SCHEMA", "DECLARE_INTERNAL_SCHEMA".toList⟩, ⟨"LPAREN", ['(']⟩,
      ⟨"SIMPLE_IDENTIFIER", "class".toList⟩, ⟨"WHITESPACE", [' ']⟩, ⟨"SIMPLE_IDENTIFIER", ['A']⟩,
      ⟨"WHITESPACE", [' ']⟩, ⟨"LBRACKET", ['\x7b']⟩, ⟨"RBRACKET", ['\x7d']⟩, ⟨"RPAREN", [')']⟩,
      ⟨"SEMICOLON", [';']⟩] := by
  decide +kernel

/-- The tokens of the other header: the newline belongs to the parenthesis. -/
lemma tokenize_newlineHeader : SchemaTokenizer.tokenize newlineHeader =
    [⟨"DECLARE_INTERNAL_SCHEMA", "DECLARE_INTERNAL_SCHEMA".toList⟩, ⟨"LPAREN", ['(', '\n']⟩,
      ⟨"SIMPLE_IDENTIFIER", "class".toList⟩, ⟨"WHITESPACE", [' ']⟩, ⟨"SIMPLE_IDENTIFIER", ['A']⟩,
      ⟨"WHITESPACE", [' ']⟩, ⟨"LBRACKET", ['\x7b']⟩, ⟨"RBRACKET", ['\x7d']⟩, ⟨"RPAREN", [')']⟩,
      ⟨"SEMICOLON", [';']⟩] := by
  decide +kernel

/-- On one line the names and signs of directives are spelled as their kinds are; with the newline
the parenthesis is not. -/
lemma spelling_headers :
    (∀ token ∈ SchemaTokenizer.tokenize lineHeader,
      token.token ∈ markerSymbols → token.value = spelling token.token) ∧
    ∀ token ∈ SchemaTokenizer.tokenize newlineHeader,
      token.token = "LPAREN" → token.value ≠ spelling token.token := by
  rw [tokenize_lineHeader, tokenize_newlineHeader]
  decide

/-- A header with the tokens of the declaration of an empty class has a parse tree. -/
lemma exists_parseTree_emptyClass
    (h : (SchemaTokenizer.tokenize header).map Token.token = SchemaParser.emptyClassKinds) :
    ∃ fuel all, ∃ f : Forest String Text, SchemaParser.parse fuel header = some (.tree all) ∧ f.Holds all ∧
      f.roots = [0] := by
  obtain ⟨fuel, all, hparse⟩ := SchemaParser.exists_parse_emptyClass h
  obtain ⟨tree, hroot, hholds, -, -, -⟩ := exists_parseTree hparse
  refine ⟨fuel, all, tree.tree "START", hparse, hholds, ?_⟩
  rw [← hroot]
  rfl

example : leftover ⟨"LPAREN", ['(', '\n']⟩ = ['\n'] := by decide

end NaoSoccer
