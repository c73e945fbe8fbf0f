import NaoSoccer.Foundation.Grammar
import NaoSoccer.Foundation.Saturation
import Mathlib.Data.Finset.Prod

/-!
# The table-driven parser

The schema generator parses headers and type names with a predictive parser of its own.  From the
rules and terminals it is given, `Parser.build` computes first and follow sets by sweeping over the
rules until nothing changes, and `Parser.parse` expands an explicit stack of symbols by the rule
that the table gives for the top symbol and the next token.

The sets of all symbols are kept as one set of pairs: `(X, s)` says that `s` is in the set of `X`.
`Parser.nonterminals` is a Python dictionary, so the order in which its sweeps visit the
nonterminals is not fixed; here they visit the rules in the order in which these were added.  A rule
with a symbol that is neither terminal nor nonterminal makes `build` raise a `TypeError`, and a
`Grammar` has no such rule.  The printing under `DEBUG`, the message on a rule that is not unique
and the links between the nodes (`parent`, `prev`, `next`, `tree`) are left out, since nothing that
the parser decides depends on them.
-/

namespace NaoSoccer

open Saturation

/-- A token: its kind, which is compared with grammar symbols, and the text it stands for. -/
structure Token (σ τ : Type*) where
  /-- The kind. -/
  token : σ
  /-- The text. -/
  value : τ
  deriving DecidableEq

variable {σ τ : Type*} [DecidableEq σ]

namespace Parser

/-! ## First and follow sets -/

/-- The set that a set of pairs gives for a symbol. -/
def setOf (sets : Finset (σ × σ)) (X : σ) : Finset σ :=
  (sets.filter fun entry => entry.1 = X).image Prod.snd

/-- `Parser.lookupFirstSet` -/
def lookupFirstSet (g : Grammar σ) (firstSets : Finset (σ × σ)) : List σ → Finset σ
  | [] => ∅
  | symbol :: symbols =>
    if symbol ∈ g.terminals then {symbol}
    else if symbol ∈ g.nonterminals then
      if g.emptyString ∉ setOf firstSets symbol then setOf firstSets symbol
      else (setOf firstSets symbol).erase g.emptyString ∪ lookupFirstSet g firstSets symbols
    else if symbol = g.emptyString then {g.emptyString}
    -- the source returns `None` here, for a symbol that no `Grammar` has
    else ∅

/-- The body of the loop in `Parser.buildFirstSets`. -/
def addFirst (g : Grammar σ) (rule : σ × List σ) (firstSets : Finset (σ × σ)) :
    Finset (σ × σ) :=
  firstSets ∪ (lookupFirstSet g firstSets rule.2).image fun s => (rule.1, s)

/-- `Parser.buildFirstSets` -/
def buildFirstSets (g : Grammar σ) : Finset (σ × σ) :=
  saturate (sweep (g.rules.map (addFirst g)))
    (g.nonterminals.length * (g.terminals.length + 1)) ∅

/-- The follow set of one symbol is added to that of another. -/
def copyFollow (source target : σ) (followSets : Finset (σ × σ)) : Finset (σ × σ) :=
  followSets ∪ (setOf followSets source).image fun s => (target, s)

/-- Steps 2.1 and 2.2 of `Parser.buildFollowSets`, at every symbol of a rule of `A`. -/
def addRight (g : Grammar σ) (firstSets : Finset (σ × σ)) (A : σ) :
    List σ → Finset (σ × σ) → Finset (σ × σ)
  | [], followSets => followSets
  | symbol :: rightSymbols, followSets =>
    let fset := lookupFirstSet g firstSets rightSymbols
    let added := followSets ∪ (fset.filter (· ∈ g.terminals)).image fun s => (symbol, s)
    addRight g firstSets A rightSymbols
      (if g.emptyString ∈ fset then copyFollow A symbol added else added)

/-- The first loop over the rules in `Parser.buildFollowSets`. -/
def addRule (g : Grammar σ) (firstSets : Finset (σ × σ)) (rule : σ × List σ)
    (followSets : Finset (σ × σ)) : Finset (σ × σ) :=
  if rule.2.length > 1 then addRight g firstSets rule.1 rule.2 followSets else followSets

/-- Step 2.3 of `Parser.buildFollowSets` for a rule of `A`, given its symbols from the last one. -/
def inherit (g : Grammar σ) (firstSets : Finset (σ × σ)) (A : σ) :
    List σ → Finset (σ × σ) → Finset (σ × σ)
  | [], followSets => followSets
  | symbol :: symbols, followSets =>
    if symbol = g.emptyString then inherit g firstSets A symbols followSets
    else if symbol ∈ g.terminals ∨ g.emptyString ∉ setOf firstSets symbol then
      copyFollow A symbol followSets
    else inherit g firstSets A symbols (copyFollow A symbol followSets)

/-- The updates that one pass of the loop in `Parser.buildFollowSets` makes. -/
def followUpdates (g : Grammar σ) (firstSets : Finset (σ × σ)) :
    List (Finset (σ × σ) → Finset (σ × σ)) :=
  g.rules.map (addRule g firstSets) ++
    g.rules.map fun rule => inherit g firstSets rule.1 rule.2.reverse

/-- `Parser.buildFollowSets` -/
def buildFollowSets (g : Grammar σ) (firstSets : Finset (σ × σ)) : Finset (σ × σ) :=
  saturate (sweep (followUpdates g firstSets))
    ((g.terminals.length + g.nonterminals.length) * g.terminals.length) ∅

end Parser

/-! ## The parser -/

/-- A `Parser` on which `build` has been called. -/
structure Parser (σ : Type*) where
  /-- The rules and symbols. -/
  grammar : Grammar σ
  /-- The first set of every nonterminal. -/
  firstSets : Finset (σ × σ)
  /-- The follow set of every symbol. -/
  followSets : Finset (σ × σ)

namespace Parser

/-- `Parser.build`; the table is computed when it is looked up. -/
def build (g : Grammar σ) : Parser σ where
  grammar := g
  firstSets := buildFirstSets g
  followSets := buildFollowSets g (buildFirstSets g)

/-- The test in the loop of `Parser.lookupRule`. -/
def Selects (p : Parser σ) (terminal nonterminal : σ) (rule : List σ) : Prop :=
  terminal ∈ lookupFirstSet p.grammar p.firstSets rule ∨
    p.grammar.emptyString ∈ lookupFirstSet p.grammar p.firstSets rule ∧
      terminal ∈ setOf p.followSets nonterminal

instance (p : Parser σ) (terminal nonterminal : σ) (rule : List σ) :
    Decidable (p.Selects terminal nonterminal rule) :=
  inferInstanceAs (Decidable (_ ∨ _))

/-- `Parser.lookupRule`: of several rules, one that is the empty string is dropped first. -/
def lookupRule (p : Parser σ) (terminal nonterminal : σ) : Option (List σ) :=
  let selected := (p.grammar.rulesOf nonterminal).filter (p.Selects terminal nonterminal)
  if selected.length > 1 then (selected.erase [p.grammar.emptyString]).head? else selected.head?

end Parser

/-- A node of the parse tree; the children are given by their places in the list of all nodes. -/
structure ParseNode (σ τ : Type*) where
  /-- The symbol. -/
  symbol : σ
  /-- The text of the token that was matched, if one was. -/
  value : Option τ
  /-- The children, from left to right. -/
  children : List ℕ
  deriving DecidableEq

/-- An entry of the parse stack: a symbol and the node made for it. -/
structure ParseSymbol (σ : Type*) where
  /-- The symbol. -/
  symbol : σ
  /-- The place of the node. -/
  node : ℕ
  deriving DecidableEq

/-- The local state of `Parser.parse`. -/
structure ParseState (σ τ : Type*) where
  /-- All nodes made so far. -/
  nodes : List (ParseNode σ τ)
  /-- The parse stack, top first. -/
  stack : List (ParseSymbol σ)
  /-- The tokens that are left. -/
  tokens : List (Token σ τ)

/-- How `Parser.parse` ends. -/
inductive ParseResult (σ τ : Type*)
  /-- It returns the tree rooted in the first of these nodes. -/
  | tree (nodes : List (ParseNode σ τ))
  /-- It returns `False`. -/
  | failed
  /-- It looks up a symbol that is no nonterminal and raises a `KeyError`. -/
  | keyError
  deriving DecidableEq

namespace Parser

/-- A node without children or value. -/
def blank (symbol : σ) : ParseNode σ τ := ⟨symbol, none, []⟩

/-- The entries for new nodes of the given symbols, the first of them at `n`. -/
def parseSymbols : ℕ → List σ → List (ParseSymbol σ)
  | _, [] => []
  | n, symbol :: symbols => ⟨symbol, n⟩ :: parseSymbols (n + 1) symbols

/-- New nodes for the symbols of a rule become the children of the node `top`, and the entries for
them go on the stack. -/
def expand (st : ParseState σ τ) (top : ℕ) (stack : List (ParseSymbol σ)) (rule : List σ) :
    ParseState σ τ :=
  let entries := parseSymbols st.nodes.length rule
  { nodes := st.nodes.modify top (fun node =>
        { node with children := node.children ++ entries.map ParseSymbol.node }) ++
      rule.map blank,
    stack := entries ++ stack,
    tokens := st.tokens }

/-- The second loop of `Parser.parse`, over what the stack still holds at the end of the input. -/
def drain (p : Parser σ) (nodes : List (ParseNode σ τ)) : List (ParseSymbol σ) → ParseResult σ τ
  | [] => .tree nodes
  | entry :: stack =>
    if entry.symbol ∉ p.grammar.nonterminals then .keyError
    else if p.grammar.emptyString ∉ setOf p.firstSets entry.symbol then .failed
    else drain p nodes stack

/-- The loops of `Parser.parse`; `none` when the given number of passes is not enough. -/
def parseLoop (p : Parser σ) : ℕ → ParseState σ τ → Option (ParseResult σ τ)
  | 0, _ => none
  | fuel + 1, st =>
    match st.tokens, st.stack with
    | [], stack => some (drain p st.nodes stack)
    | _ :: _, [] => some .failed
    | topToken :: tokens, top :: stack =>
      if top.symbol = p.grammar.emptyString then parseLoop p fuel { st with stack := stack }
      else if top.symbol = topToken.token then
        parseLoop p fuel
          { nodes := st.nodes.modify top.node fun node =>
              { node with value := some topToken.value },
            stack := stack,
            tokens := tokens }
      else if topToken.token ∉ p.grammar.terminals then some .failed
      else if top.symbol ∉ p.grammar.nonterminals then some .failed
      else
        match p.lookupRule topToken.token top.symbol with
        | none => some .failed
        | some rule => parseLoop p fuel (expand st top.node stack rule)

/-- `Parser.parse` on a list of tokens. -/
def parse (p : Parser σ) (fuel : ℕ) (tokens : List (Token σ τ)) : Option (ParseResult σ τ) :=
  if tokens = [] then some .failed
  else parseLoop p fuel
    { nodes := [blank p.grammar.start], stack := [⟨p.grammar.start, 0⟩], tokens := tokens }

end Parser

end NaoSoccer
