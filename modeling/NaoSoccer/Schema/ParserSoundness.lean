import NaoSoccer.Schema.ParseForest
import NaoSoccer.Schema.PredictiveSets

/-!
# Soundness of the parser

If `Parser.parse` returns a tree, the tree derives the input from the start symbol.  The proof goes
backwards over the run of the loop: `Completed` says that the finished nodes hold a forest with one
tree for each entry of the stack, which derives the tokens that are left, and that the run has
touched no other node.  Each pass of the loop adds one root to the forest that the rest of the run
completes.  What is left on the stack at the end of the input derives the empty string, since the
first sets hold the empty string only where it is a rule.

The parser compares the kind of a token with the symbol on the stack before it asks whether that
symbol is a terminal, so a token whose kind is the name of a nonterminal is taken for it.  No such
token comes from a tokenizer whose kinds are the terminals of the grammar.
-/

namespace NaoSoccer

open Grammar

variable {σ τ : Type*} {g : Grammar σ}

namespace Parser

/-! ## New entries of the stack -/

/-- New entries are for the symbols of the rule. -/
@[simp] lemma map_symbol_parseSymbols (n : ℕ) (rule : List σ) :
    (parseSymbols n rule).map ParseSymbol.symbol = rule := by
  induction rule generalizing n with
  | nil => rfl
  | cons X rule ih => exact congrArg (X :: ·) (ih (n + 1))

/-- New entries are for consecutive nodes. -/
@[simp] lemma map_node_parseSymbols (n : ℕ) (rule : List σ) :
    (parseSymbols n rule).map ParseSymbol.node = List.range' n rule.length := by
  induction rule generalizing n with
  | nil => rfl
  | cons X rule ih => exact congrArg (n :: ·) (ih (n + 1))

/-- The nodes of new entries are blank. -/
lemma getElem?_blank_of_mem {rule : List σ} {n : ℕ} {entry : ParseSymbol σ}
    (h : entry ∈ parseSymbols n rule) :
    (rule.map blank : List (ParseNode σ τ))[entry.node - n]? = some (blank entry.symbol) ∧
      n ≤ entry.node := by
  induction rule generalizing n with
  | nil => exact absurd h List.not_mem_nil
  | cons X rule ih =>
    rcases List.mem_cons.mp h with rfl | h
    · simp
    · obtain ⟨hget, hle⟩ := ih h
      have hsub : entry.node - n = (entry.node - (n + 1)) + 1 := by omega
      refine ⟨?_, by omega⟩
      rw [hsub, List.map_cons, List.getElem?_cons_succ]
      exact hget

/-! ## States of the loop -/

/-- Every entry of the stack stands for a blank node of its own and a symbol of the grammar. -/
structure Ready (g : Grammar σ) (st : ParseState σ τ) : Prop where
  /-- No node is on the stack twice. -/
  nodup : (st.stack.map ParseSymbol.node).Nodup
  /-- The nodes have neither children nor a value. -/
  blank : ∀ entry ∈ st.stack, st.nodes[entry.node]? = some (blank entry.symbol)
  /-- The symbols belong to the grammar. -/
  symbol : ∀ entry ∈ st.stack, entry.symbol = g.emptyString ∨
    entry.symbol ∈ g.terminals ∨ entry.symbol ∈ g.nonterminals

/-- The finished nodes hold a forest with a tree for each entry of the stack, which derives the
tokens that are left. -/
structure Completed (g : Grammar σ) (st : ParseState σ τ) (all : List (ParseNode σ τ))
    (f : Forest σ τ) : Prop where
  /-- The roots are the nodes on the stack. -/
  roots : f.roots = st.stack.map ParseSymbol.node
  /-- The roots have the symbols on the stack. -/
  symbols : f.symbols = st.stack.map ParseSymbol.symbol
  /-- The nodes hold the forest. -/
  holds : f.Holds all
  /-- The forest is a derivation. -/
  derivation : Derivation g f
  /-- It derives the tokens. -/
  tokens : f.tokens = st.tokens
  /-- No node is shared. -/
  nodup : f.nodes.Nodup
  /-- Nodes below the roots are new. -/
  fresh : ∀ n ∈ f.nodes, n ∈ f.roots ∨ st.nodes.length ≤ n
  /-- Old nodes that are not on the stack are as they were. -/
  frame : ∀ n < st.nodes.length, n ∉ f.roots → all[n]? = st.nodes[n]?

namespace Ready

variable {nodes : List (ParseNode σ τ)} {top : ParseSymbol σ} {stack : List (ParseSymbol σ)}
  {tokens : List (Token σ τ)}

/-- The node of an entry is one of the nodes. -/
lemma node_lt {st : ParseState σ τ} (h : Ready g st) {entry : ParseSymbol σ}
    (hentry : entry ∈ st.stack) : entry.node < st.nodes.length :=
  (List.getElem?_eq_some_iff.mp (h.blank entry hentry)).1

/-- The node on the top is no other entry's. -/
lemma top_notMem (h : Ready g ⟨nodes, top :: stack, tokens⟩) :
    top.node ∉ stack.map ParseSymbol.node := (List.nodup_cons.mp h.nodup).1

/-- Popping the top and changing its node keeps the rest of the stack ready. -/
lemma pop (h : Ready g ⟨nodes, top :: stack, tokens⟩) {nodes' : List (ParseNode σ τ)}
    (hnodes : ∀ n < nodes.length, n ≠ top.node → nodes'[n]? = nodes[n]?)
    (tokens' : List (Token σ τ)) : Ready g ⟨nodes', stack, tokens'⟩ where
  nodup := (List.nodup_cons.mp h.nodup).2
  blank := by
    intro entry hentry
    have hmem : entry ∈ top :: stack := List.mem_cons_of_mem _ hentry
    rw [hnodes entry.node (h.node_lt hmem) ?_]
    · exact h.blank entry hmem
    · exact fun heq => h.top_notMem (heq ▸ List.mem_map_of_mem hentry)
  symbol := fun entry hentry => h.symbol entry (List.mem_cons_of_mem _ hentry)

/-- The nodes after the top has been expanded: the old ones but the top are as they were. -/
lemma getElem?_expand (rule : List σ) {n : ℕ} (hn : n < nodes.length) (hne : n ≠ top.node) :
    (expand ⟨nodes, top :: stack, tokens⟩ top.node stack rule).nodes[n]? = nodes[n]? := by
  rw [expand, List.getElem?_append_left (by simpa using hn), List.getElem?_modify_ne _ _ hne.symm]

/-- After the expansion the top has the new nodes as children. -/
lemma getElem?_expand_top (h : Ready g ⟨nodes, top :: stack, tokens⟩) (rule : List σ) :
    (expand ⟨nodes, top :: stack, tokens⟩ top.node stack rule).nodes[top.node]? =
      some ⟨top.symbol, none, List.range' nodes.length rule.length⟩ := by
  have hlt : top.node < nodes.length := h.node_lt List.mem_cons_self
  have htop : nodes[top.node]? = some (Parser.blank top.symbol) :=
    h.blank top List.mem_cons_self
  rw [expand, List.getElem?_append_left (by simpa using hlt), List.getElem?_modify_eq, htop]
  simp [Parser.blank]

/-- Expanding the top by a rule of the grammar keeps the stack ready. -/
lemma expand (h : Ready g ⟨nodes, top :: stack, tokens⟩) {A : σ} {rule : List σ}
    (hrule : (A, rule) ∈ g.rules) :
    Ready g (expand ⟨nodes, top :: stack, tokens⟩ top.node stack rule) where
  nodup := by
    show ((parseSymbols nodes.length rule ++ stack).map ParseSymbol.node).Nodup
    rw [List.map_append, map_node_parseSymbols, List.nodup_append]
    refine ⟨List.nodup_range', (List.nodup_cons.mp h.nodup).2, ?_⟩
    rintro n hnew m hold rfl
    obtain ⟨entry, hentry, rfl⟩ := List.mem_map.mp hold
    have hlt : entry.node < nodes.length := h.node_lt (List.mem_cons_of_mem _ hentry)
    have hle : nodes.length ≤ entry.node := (List.mem_range'_1.mp hnew).1
    omega
  blank := by
    intro entry hentry
    rcases List.mem_append.mp hentry with hnew | hold
    · obtain ⟨hget, hle⟩ := getElem?_blank_of_mem (τ := τ) hnew
      rw [Parser.expand, List.getElem?_append_right (by simpa using hle), List.length_modify]
      exact hget
    · have hmem : entry ∈ top :: stack := List.mem_cons_of_mem _ hold
      rw [getElem?_expand rule (h.node_lt hmem)]
      · exact h.blank entry hmem
      · exact fun heq => h.top_notMem (heq ▸ List.mem_map_of_mem hold)
  symbol := by
    intro entry hentry
    rcases List.mem_append.mp hentry with hnew | hold
    · have hmem : entry.symbol ∈ rule := by
        rw [← map_symbol_parseSymbols nodes.length rule]
        exact List.mem_map_of_mem hnew
      exact or_iff_not_imp_left.mpr (symbol_mem_of_mem_rule hrule hmem)
    · exact h.symbol entry (List.mem_cons_of_mem _ hold)

end Ready

/-! ## One pass of the loop -/

namespace Completed

variable {nodes all : List (ParseNode σ τ)} {top : ParseSymbol σ} {stack : List (ParseSymbol σ)}
  {tokens : List (Token σ τ)} {f : Forest σ τ}

/-- A node that the rest of the run completes is not the top of the stack. -/
lemma top_notMem {nodes' : List (ParseNode σ τ)} {tokens' : List (Token σ τ)}
    (h : Ready g ⟨nodes, top :: stack, tokens⟩) (hlength : nodes'.length = nodes.length)
    (hf : Completed g ⟨nodes', stack, tokens'⟩ all f) : top.node ∉ f.nodes := by
  intro hmem
  have hlt : top.node < nodes.length := h.node_lt List.mem_cons_self
  rcases hf.fresh _ hmem with hroot | hnew
  · exact h.top_notMem (hf.roots ▸ hroot)
  · have hnew : nodes'.length ≤ top.node := hnew
    omega

/-- **A pass that makes a leaf**: if the top becomes a leaf, possibly with a token, and the rest of
the run completes the rest of the stack, then the run completes the stack. -/
lemma leaf {nodes' : List (ParseNode σ τ)} {tokens' : List (Token σ τ)} (value : Option τ)
    (h : Ready g ⟨nodes, top :: stack, tokens⟩) (hlength : nodes'.length = nodes.length)
    (hnodes : ∀ n < nodes.length, n ≠ top.node → nodes'[n]? = nodes[n]?)
    (htop : nodes'[top.node]? = some ⟨top.symbol, value, []⟩)
    (hf : Completed g ⟨nodes', stack, tokens'⟩ all f)
    (hderivation : Derivation g (Forest.cons top.node top.symbol value .nil f))
    (htokens : (value.map fun v => Token.mk top.symbol v).toList ++ tokens' = tokens) :
    Completed g ⟨nodes, top :: stack, tokens⟩ all
      (Forest.cons top.node top.symbol value .nil f) where
  roots := congrArg (top.node :: ·) hf.roots
  symbols := congrArg (top.symbol :: ·) hf.symbols
  holds := by
    have hlt : top.node < nodes'.length := hlength ▸ h.node_lt List.mem_cons_self
    refine ⟨?_, trivial, hf.holds⟩
    rw [hf.frame top.node hlt fun hroot => h.top_notMem (hf.roots ▸ hroot)]
    exact htop
  derivation := hderivation
  tokens := by
    rw [Forest.tokens, Forest.tokens, List.append_nil, hf.tokens]
    exact htokens
  nodup := List.nodup_cons.mpr ⟨top_notMem h hlength hf, hf.nodup⟩
  fresh := by
    intro n hn
    rcases List.mem_cons.mp hn with rfl | hn
    · exact Or.inl List.mem_cons_self
    · rcases hf.fresh n hn with hroot | hnew
      · exact Or.inl (List.mem_cons_of_mem _ hroot)
      · exact Or.inr (hlength ▸ hnew)
  frame := by
    intro n hn hroot
    obtain ⟨hne, hroot⟩ := List.ne_and_not_mem_of_not_mem_cons hroot
    rw [hf.frame n (hlength ▸ hn) hroot]
    exact hnodes n hn hne

/-- **A pass that expands**: if the top is expanded by a rule and the rest of the run completes the
new stack, then the run completes the old one. -/
lemma expand {rule : List σ} (h : Ready g ⟨nodes, top :: stack, tokens⟩)
    (hrule : (top.symbol, rule) ∈ g.rules)
    (hf : Completed g (Parser.expand ⟨nodes, top :: stack, tokens⟩ top.node stack rule) all f) :
    ∃ f', Completed g ⟨nodes, top :: stack, tokens⟩ all f' := by
  have hroots : f.roots = List.range' nodes.length rule.length ++ stack.map ParseSymbol.node := by
    rw [hf.roots, ← map_node_parseSymbols, ← List.map_append]
    rfl
  have hsymbols : f.symbols = rule ++ stack.map ParseSymbol.symbol := by
    rw [hf.symbols, ← map_symbol_parseSymbols nodes.length rule, ← List.map_append,
      map_symbol_parseSymbols]
    rfl
  obtain ⟨children, rest, rfl, hchildren, hrest⟩ := Forest.exists_append hroots
  rw [Forest.symbols_append] at hsymbols
  obtain ⟨hchildrenSymbols, hrestSymbols⟩ := List.append_inj hsymbols (by
    rw [Forest.length_symbols, hchildren, List.length_range'])
  obtain ⟨hchildrenDerivation, hrestDerivation⟩ := derivation_append.mp hf.derivation
  have hlt : top.node < nodes.length := h.node_lt List.mem_cons_self
  have hlength : nodes.length ≤
      (Parser.expand ⟨nodes, top :: stack, tokens⟩ top.node stack rule).nodes.length := by
    simp [Parser.expand]
  -- a node that is neither new nor on the stack is not a root of the forest
  have hroot {n : ℕ} (hn : n < nodes.length) (hstack : n ∉ stack.map ParseSymbol.node) :
      n ∉ (children.append rest).roots := by
    rw [hroots]
    intro hmem
    rcases List.mem_append.mp hmem with hnew | hold
    · have hle := (List.mem_range'_1.mp hnew).1
      omega
    · exact hstack hold
  refine ⟨Forest.cons top.node top.symbol none children rest, ?_⟩
  constructor
  · exact congrArg (top.node :: ·) hrest
  · exact congrArg (top.symbol :: ·) hrestSymbols
  · refine ⟨?_, (Forest.holds_append.mp hf.holds).1, (Forest.holds_append.mp hf.holds).2⟩
    rw [hf.frame top.node (hlt.trans_le hlength) (hroot hlt h.top_notMem),
      h.getElem?_expand_top, hchildren]
  · exact Derivation.expanded (hchildrenSymbols ▸ hrule) hchildrenDerivation hrestDerivation
  · have htokens := hf.tokens
    rw [Forest.tokens_append] at htokens
    exact htokens
  · have hnodup := hf.nodup
    rw [Forest.nodes_append] at hnodup
    refine List.nodup_cons.mpr ⟨fun hmem => ?_, hnodup⟩
    rw [← Forest.nodes_append] at hmem
    rcases hf.fresh _ hmem with hold | hnew
    · exact hroot hlt h.top_notMem hold
    · omega
  · intro n hn
    rcases List.mem_cons.mp hn with rfl | hn
    · exact Or.inl List.mem_cons_self
    rw [← Forest.nodes_append] at hn
    rcases hf.fresh n hn with hold | hnew
    · rw [Forest.roots_append, hchildren] at hold
      rcases List.mem_append.mp hold with hnew | hold
      · exact Or.inr (List.mem_range'_1.mp hnew).1
      · exact Or.inl (List.mem_cons_of_mem _ hold)
    · exact Or.inr (hlength.trans hnew)
  · intro n hn hnroot
    obtain ⟨hne, hnroot⟩ := List.ne_and_not_mem_of_not_mem_cons hnroot
    rw [hrest] at hnroot
    rw [hf.frame n (hn.trans_le hlength) (hroot hn hnroot)]
    exact Ready.getElem?_expand rule hn hne

end Completed

/-! ## The whole run -/

variable [DecidableEq σ]

/-- What the second loop accepts: nonterminals of which the empty string is a rule. -/
lemma drain_eq_tree {nodes all : List (ParseNode σ τ)} {stack : List (ParseSymbol σ)}
    (h : drain (build g) nodes stack = .tree all) :
    all = nodes ∧ ∀ entry ∈ stack,
      entry.symbol ∈ g.nonterminals ∧ (entry.symbol, [g.emptyString]) ∈ g.rules := by
  induction stack with
  | nil =>
    rw [drain, ParseResult.tree.injEq] at h
    exact ⟨h.symm, fun entry hentry => absurd hentry List.not_mem_nil⟩
  | cons entry stack ih =>
    rw [drain] at h
    split at h
    · exact absurd h (by simp)
    next hA =>
      split at h
      · exact absurd h (by simp)
      next hempty =>
        obtain ⟨hall, hstack⟩ := ih h
        refine ⟨hall, List.forall_mem_cons.mpr ⟨⟨not_not.mp hA, ?_⟩, hstack⟩⟩
        exact emptyString_mem_first_iff.mp (mem_setOf.mp (not_not.mp hempty))

omit [DecidableEq σ] in
/-- The stack that is accepted at the end of the input is completed by childless nonterminals. -/
lemma completed_of_drain {nodes : List (ParseNode σ τ)} {stack : List (ParseSymbol σ)}
    (h : Ready g ⟨nodes, stack, []⟩) (hstack : ∀ entry ∈ stack,
      entry.symbol ∈ g.nonterminals ∧ (entry.symbol, [g.emptyString]) ∈ g.rules) :
    ∃ f, Completed g ⟨nodes, stack, []⟩ nodes f := by
  induction stack with
  | nil =>
    refine ⟨Forest.nil, rfl, rfl, trivial, Derivation.nil, rfl, List.nodup_nil, ?_, ?_⟩
    · exact fun n hn => absurd hn List.not_mem_nil
    · exact fun n _ _ => rfl
  | cons top stack ih =>
    obtain ⟨⟨hA, hrule⟩, hrest⟩ := List.forall_mem_cons.mp hstack
    obtain ⟨f, hf⟩ := ih (h.pop (fun _ _ _ => rfl) []) hrest
    exact ⟨_, hf.leaf none h rfl (fun _ _ _ => rfl) (h.blank top List.mem_cons_self)
      (Derivation.childless hA (HasEmptyRule.nullable (Or.inr hrule)) hf.derivation) rfl⟩

/-- A rule that is looked up is one that is selected. -/
lemma mem_selected_of_lookupRule {p : Parser σ} {t A : σ} {rule : List σ}
    (h : p.lookupRule t A = some rule) :
    rule ∈ (p.grammar.rulesOf A).filter (p.Selects t A) := by
  rw [lookupRule] at h
  split at h
  · exact List.mem_of_mem_erase (List.mem_of_head? h)
  · exact List.mem_of_head? h

/-- A rule that is looked up is a rule of the nonterminal. -/
lemma lookupRule_mem {p : Parser σ} {t A : σ} {rule : List σ} (h : p.lookupRule t A = some rule) :
    (A, rule) ∈ p.grammar.rules :=
  mem_rulesOf.mp (List.mem_filter.mp (mem_selected_of_lookupRule h)).1

/-- **A run of the loop**: from a ready state, a run that ends in a tree completes the stack. -/
theorem completed_of_parseLoop {fuel : ℕ} {st : ParseState σ τ} {all : List (ParseNode σ τ)}
    (h : Ready g st) (hkinds : ∀ token ∈ st.tokens, token.token ∉ g.nonterminals)
    (hrun : parseLoop (build g) fuel st = some (.tree all)) : ∃ f, Completed g st all f := by
  induction fuel generalizing st with
  | zero => exact absurd hrun (by simp [parseLoop])
  | succ fuel ih =>
    obtain ⟨nodes, stack, tokens⟩ := st
    cases tokens with
    | nil =>
      obtain ⟨rfl, hstack⟩ := drain_eq_tree (Option.some.inj hrun)
      exact completed_of_drain h hstack
    | cons token tokens =>
      cases stack with
      | nil => exact absurd hrun (by simp [parseLoop])
      | cons top stack =>
        have htop : nodes[top.node]? = some (Parser.blank top.symbol) :=
          h.blank top List.mem_cons_self
        rw [parseLoop] at hrun
        dsimp only at hrun
        split at hrun
        next hempty =>
          obtain ⟨f, hf⟩ := ih (h.pop (fun _ _ _ => rfl) _) hkinds hrun
          refine ⟨_, hf.leaf none h rfl (fun _ _ _ => rfl) htop ?_ rfl⟩
          exact hempty ▸ Derivation.empty hf.derivation
        split at hrun
        next hne hmatch =>
          have hother : ∀ n < nodes.length, n ≠ top.node →
              (nodes.modify top.node fun node => { node with value := some token.value })[n]? =
                nodes[n]? := fun n _ hn => List.getElem?_modify_ne _ _ hn.symm
          obtain ⟨f, hf⟩ := ih (h.pop hother tokens)
            (fun t ht => hkinds t (List.mem_cons_of_mem _ ht)) hrun
          have hterminal : top.symbol ∈ g.terminals := by
            have hkind : top.symbol ∉ g.nonterminals := hmatch ▸ hkinds token List.mem_cons_self
            exact ((h.symbol top List.mem_cons_self).resolve_left hne).resolve_right hkind
          refine ⟨_, hf.leaf (some token.value) h (List.length_modify _ _ _) hother ?_
            (Derivation.leaf hterminal hf.derivation) ?_⟩
          · rw [List.getElem?_modify_eq, htop]
            rfl
          · rw [hmatch]
            rfl
        split at hrun
        · exact absurd hrun (by simp)
        split at hrun
        · exact absurd hrun (by simp)
        split at hrun
        · exact absurd hrun (by simp)
        next rule hlookup =>
          have hrule : (top.symbol, rule) ∈ g.rules := lookupRule_mem hlookup
          obtain ⟨f, hf⟩ := ih (h.expand hrule) hkinds hrun
          exact hf.expand h hrule

omit [DecidableEq σ] in
/-- The state in which the loop begins is ready. -/
lemma ready_start (g : Grammar σ) (tokens : List (Token σ τ)) :
    Ready g ⟨[Parser.blank g.start], [⟨g.start, 0⟩], tokens⟩ where
  nodup := List.nodup_singleton 0
  blank := by
    intro entry hentry
    rw [List.mem_singleton.mp hentry]
    rfl
  symbol := by
    intro entry hentry
    rw [List.mem_singleton.mp hentry]
    exact Or.inr (Or.inr g.start_mem)

/-- A finished run of `parse` returns a tree whose nodes are a derivation of the tokens. -/
lemma isParseTree_of_parseLoop {fuel : ℕ} {tokens : List (Token σ τ)} {all : List (ParseNode σ τ)}
    (hkinds : ∀ token ∈ tokens, token.token ∉ g.nonterminals)
    (hrun : parseLoop (build g) fuel ⟨[Parser.blank g.start], [⟨g.start, 0⟩], tokens⟩ =
      some (.tree all)) : IsParseTree g all tokens := by
  obtain ⟨f, hf⟩ := completed_of_parseLoop (ready_start g tokens) hkinds hrun
  cases f with
  | nil => exact absurd hf.roots (by simp [Forest.roots])
  | cons node symbol value children rest =>
    obtain ⟨rfl, hroots⟩ := List.cons.inj hf.roots
    obtain ⟨rfl, -⟩ := List.cons.inj hf.symbols
    cases rest with
    | nil => exact ⟨value, children, hf.holds, hf.nodup, hf.derivation, hf.tokens⟩
    | cons => exact absurd hroots (by simp [Forest.roots])

/-- **Soundness of the parser**: if no token has the name of a nonterminal as its kind, a tree that
`parse` returns is a derivation of the tokens from the start symbol. -/
theorem parse_sound (g : Grammar σ) {fuel : ℕ} {tokens : List (Token σ τ)}
    {all : List (ParseNode σ τ)} (hkinds : ∀ token ∈ tokens, token.token ∉ g.nonterminals)
    (h : (build g).parse fuel tokens = some (.tree all)) : IsParseTree g all tokens := by
  rw [parse] at h
  split at h
  · exact absurd h (by simp)
  · exact isParseTree_of_parseLoop hkinds h

/-- A grammar with a nonterminal `A` that derives the empty string only through `B`. -/
def chainGrammar : Grammar String where
  emptyString := "EMPTY_STRING"
  start := "START"
  terminals := ["b", "c"]
  nonterminals := ["START", "A", "B"]
  rules := [("START", ["A", "b"]), ("A", ["B"]), ("B", ["c"]), ("B", ["EMPTY_STRING"])]
  emptyString_notMem_terminals := by decide
  emptyString_notMem_nonterminals := by decide
  notMem_nonterminals := by decide
  start_mem := by decide
  rule_mem := by decide
  rule_symbols := by decide

/-- The tree of a word of two tokens is a derivation. -/
theorem parse_sound_chain : ∃ all, (build chainGrammar).parse 10 [⟨"c", 'x'⟩, ⟨"b", 'y'⟩] =
      some (.tree all) ∧ IsParseTree chainGrammar all [⟨"c", 'x'⟩, ⟨"b", 'y'⟩] := by
  have h : (build chainGrammar).parse 10 [⟨"c", 'x'⟩, ⟨"b", 'y'⟩] = some (.tree
      [⟨"START", none, [1, 2]⟩, ⟨"A", none, [3]⟩, ⟨"b", some 'y', []⟩, ⟨"B", none, [4]⟩,
        ⟨"c", some 'x', []⟩]) := by
    decide +kernel
  exact ⟨_, h, parse_sound chainGrammar (by decide) h⟩

/-- **A token named like a nonterminal**: a token of kind `START` is taken for the whole tree, which
then is a `START` without children, although `START` does not derive the empty string. -/
theorem parse_nonterminal_token :
    (build chainGrammar).parse 10 [⟨"START", 'x'⟩] = some (.tree [⟨"START", some 'x', []⟩]) ∧
      ¬ chainGrammar.Nullable "START" ∧
      ¬ IsParseTree chainGrammar [⟨"START", some 'x', []⟩] [⟨"START", 'x'⟩] := by
  refine ⟨by decide +kernel, ?_, ?_⟩
  · intro h
    rcases nullable_iff.mp h with heq | ⟨r, hrule, hr⟩
    · exact absurd heq (by decide)
    have hrule : r = ["A", "b"] := by simpa [chainGrammar] using hrule
    exact not_nullable_of_terminal (by decide) (hr "b" (by simp [hrule]))
  · rintro ⟨value, children, ⟨hnode, -⟩, -, hderivation, -⟩
    have hvalue : some 'x' = value := (ParseNode.mk.inj (Option.some.inj hnode)).2.1
    rw [← hvalue] at hderivation
    exact absurd hderivation.mem_terminals (by decide)

end Parser

end NaoSoccer
