import NaoSoccer.Schema.ParserEndings
import NaoSoccer.Schema.TypeGrammar

/-!
# What the parsers of headers and types report

Neither grammar has left recursion, so both parsers come to an end on every text.  They raise an
error exactly on the texts that break off in front of a terminal, such as the beginning of a
declaration up to its first parenthesis.
-/

namespace NaoSoccer

open Grammar

namespace SchemaParser

/-- The nonterminals, each behind those that can stand in front of its rules. -/
def heightOrder : List String :=
  ["Ignored", "SchemaDeclarationFunction", "SchemaDeclaration", "SchemaDeclarations", "START",
    "Identifier", "SchemaDefinition", "TypeIdentifier", "SchemaName", "BaseClassList",
    "AccessModifier", "BaseClass", "BaseClasses", "BaseClassesEnd", "MemberDeclarationsBlock",
    "NoSchema", "SchemaDeserialization", "SchemaField", "SchemaMethods",
    "SchemaPostDeserialization", "SchemaPostSerialization", "SchemaPreDeserialization",
    "SchemaPreSerialization", "SchemaSerialization", "MemberDeclaration", "MemberDeclarations",
    "Boundary", "Expression", "CompoundExpression", "Operator", "CompoundExpressionListEnd",
    "CompoundExpressionList", "MemberDeclarationsEnd", "OptionalValue", "NameIdentifier",
    "ValueIdentifier", "TypeIdentifierEnd", "TemplateArgs", "TemplateArgsEnd", "MemberArgument",
    "MemberArguments", "MemberArgumentsEnd", "IdentifierEnd", "IgnoredEnd"]

/-- No rule is given twice, and there is no left recursion. -/
lemma nodup_leftRanked : grammar.rules.Nodup ∧ grammar.LeftRanked heightOrder.idxOf :=
  ⟨@nodup_rules_of_ruleSets _ grammar ruleSets rfl (by decide) (by decide),
    by decide +kernel⟩

end SchemaParser

namespace TypeParser

/-- The nonterminals, each behind those that can stand in front of its rules. -/
def heightOrder : List String :=
  ["Boundary", "Identifier", "Type", "START", "IdentifierEnd", "TemplateArgs", "TypeEnd",
    "TemplateArg", "TemplateArgList", "TemplateArgsEnd"]

/-- No rule is given twice, and there is no left recursion. -/
lemma nodup_leftRanked : grammar.rules.Nodup ∧ grammar.LeftRanked heightOrder.idxOf :=
  ⟨@nodup_rules_of_ruleSets _ grammar ruleSets rfl (by decide) (by decide),
    by decide⟩

end TypeParser

/-- **The loop of the header parser comes to an end** on every list of tokens: with enough passes
there is a result, and more passes do not change it. -/
theorem schemaParser_terminates {τ : Type*} (tokens : List (Token String τ)) :
    ∃ fuel result, ∀ fuel' ≥ fuel,
      (Parser.build SchemaParser.grammar).parse fuel' tokens = some result := by
  obtain ⟨fuel, result, hrun⟩ := Parser.parse_total SchemaParser.nodup_leftRanked.1
    SchemaParser.nodup_leftRanked.2 tokens
  exact ⟨fuel, result, fun fuel' hle => Parser.parse_of_le hle hrun⟩

/-- **The parsers of headers and of types report a tree or a failure exactly on the texts whose
tokens do not break off in front of a terminal.** -/
theorem parsers_report_iff (s : Text) :
    ((∃ fuel result, SchemaParser.parse fuel s = some result ∧ result ≠ .keyError) ↔
        ¬ SchemaParser.grammar.BreaksOff ((SchemaTokenizer.tokenize s).map Token.token)) ∧
      ((∃ fuel result, TypeParser.parse fuel s = some result ∧ result ≠ .keyError) ↔
        ¬ TypeParser.grammar.BreaksOff ((TypeTokenizer.tokenize s).map Token.token)) := by
  constructor
  · exact Parser.parse_reports_iff SchemaParser.nodup_leftRanked.1 SchemaParser.nodup_leftRanked.2
      fun token htoken => SchemaParser.grammar.notMem_nonterminals _
        (SchemaTokenizer.isToken_tokenize s token htoken).kind
  · exact Parser.parse_reports_iff TypeParser.nodup_leftRanked.1 TypeParser.nodup_leftRanked.2
      (TypeParser.tokenize_notMem_nonterminals s)

namespace SchemaParser

/-- The name of the function alone breaks off in front of the parenthesis. -/
lemma breaksOff_function : grammar.BreaksOff ["DECLARE_INTERNAL_SCHEMA"] := by
  have hdeclaration : grammar.Begins grammar.HasEmptyRule
      ["SchemaDeclarationFunction", "LPAREN", "SchemaDefinition", "RPAREN", "SEMICOLON"]
      "DECLARE_INTERNAL_SCHEMA" :=
    Begins.expand (r := ["DECLARE_INTERNAL_SCHEMA"]) (by decide)
      (Begins.terminal (by decide))
  have hdeclarations : grammar.Begins grammar.HasEmptyRule
      ["Ignored", "SchemaDeclaration", "Ignored", "SchemaDeclarations"]
      "DECLARE_INTERNAL_SCHEMA" :=
    Begins.skip (Or.inr (by decide)) (Begins.expand (by decide) hdeclaration)
  have hstart : grammar.Begins grammar.HasEmptyRule ["SchemaDeclarations"]
      "DECLARE_INTERNAL_SCHEMA" := Begins.expand (by decide) hdeclarations
  refine ⟨[], "LPAREN", ["SchemaDefinition", "RPAREN", "SEMICOLON", "Ignored",
    "SchemaDeclarations"], ?_, fun A hA => absurd hA List.not_mem_nil, by decide⟩
  refine Reads.expand_head (by decide) hstart ?_
  refine Reads.expand_head (by decide) hdeclarations ?_
  refine Reads.erase_heads (by decide) (by decide) ?_
  refine Reads.expand_head (by decide) hdeclaration ?_
  refine Reads.expand_head (r := ["DECLARE_INTERNAL_SCHEMA"]) (by decide)
    (Begins.terminal (by decide)) ?_
  exact Reads.terminal (by decide) Reads.stop

end SchemaParser

namespace TypeParser

/-- An identifier with a single colon breaks off in front of the second one. -/
lemma breaksOff_colon : grammar.BreaksOff ["SIMPLE_IDENTIFIER", "COLON"] := by
  have hidentifier : grammar.Begins grammar.HasEmptyRule ["SIMPLE_IDENTIFIER", "IdentifierEnd"]
      "SIMPLE_IDENTIFIER" := Begins.terminal (by decide)
  have htype : grammar.Begins grammar.HasEmptyRule ["Identifier", "TypeEnd"] "SIMPLE_IDENTIFIER" :=
    Begins.expand (by decide) hidentifier
  have hstart : grammar.Begins grammar.HasEmptyRule ["Boundary", "Type"] "SIMPLE_IDENTIFIER" :=
    Begins.skip (Or.inr (by decide)) (Begins.expand (by decide) htype)
  refine ⟨[], "COLON", ["Identifier", "TypeEnd"], ?_, fun A hA => absurd hA List.not_mem_nil,
    by decide⟩
  refine Reads.expand_head (by decide) hstart ?_
  refine Reads.erase_heads (by decide) (by decide) ?_
  refine Reads.expand_head (by decide) htype ?_
  refine Reads.expand_head (by decide) hidentifier ?_
  refine Reads.terminal (by decide) ?_
  refine Reads.expand_head (r := ["COLON", "COLON", "Identifier"]) (by decide)
    (Begins.terminal (by decide)) ?_
  exact Reads.terminal (by decide) Reads.stop

end TypeParser

/-- The name of a declaration's function, and an identifier with one colon, make the parsers raise
a `KeyError`. -/
theorem parsers_raise :
    (∃ fuel, SchemaParser.parse fuel "DECLARE_INTERNAL_SCHEMA".toList = some .keyError) ∧
      (∃ fuel, TypeParser.parse fuel "a:".toList = some .keyError) ∧
      (¬ ∀ s, ∃ fuel result, SchemaParser.parse fuel s = some result ∧ result ≠ .keyError) ∧
      ¬ ∀ s, ∃ fuel result, TypeParser.parse fuel s = some result ∧ result ≠ .keyError := by
  have htokens : (SchemaTokenizer.tokenize "DECLARE_INTERNAL_SCHEMA".toList).map Token.token =
      ["DECLARE_INTERNAL_SCHEMA"] := by decide +kernel
  have htokens' : (TypeTokenizer.tokenize "a:".toList).map Token.token =
      ["SIMPLE_IDENTIFIER", "COLON"] := by decide
  have hschema : ∃ fuel, SchemaParser.parse fuel "DECLARE_INTERNAL_SCHEMA".toList =
      some .keyError := by
    refine (Parser.parse_keyError_iff SchemaParser.nodup_leftRanked.1 fun token htoken => ?_).mpr
      (htokens ▸ SchemaParser.breaksOff_function)
    exact SchemaParser.grammar.notMem_nonterminals _
      (SchemaTokenizer.isToken_tokenize _ token htoken).kind
  have htype : ∃ fuel, TypeParser.parse fuel "a:".toList = some .keyError :=
    (Parser.parse_keyError_iff TypeParser.nodup_leftRanked.1
      (TypeParser.tokenize_notMem_nonterminals _)).mpr (htokens' ▸ TypeParser.breaksOff_colon)
  refine ⟨hschema, htype, fun h => ?_, fun h => ?_⟩
  · obtain ⟨fuel, hraise⟩ := hschema
    obtain ⟨fuel', result, hrun, hne⟩ := h "DECLARE_INTERNAL_SCHEMA".toList
    exact hne (Parser.parse_unique hrun hraise)
  · obtain ⟨fuel, hraise⟩ := htype
    obtain ⟨fuel', result, hrun, hne⟩ := h "a:".toList
    exact hne (Parser.parse_unique hrun hraise)

end NaoSoccer
