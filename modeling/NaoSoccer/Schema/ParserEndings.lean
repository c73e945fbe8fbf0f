import NaoSoccer.Schema.ParserCompleteness
import NaoSoccer.Foundation.GreedyReading
import NaoSoccer.Foundation.SententialForms
import Mathlib.Data.List.Dedup

/-!
# How the parser ends

For a grammar without left recursion the parser always comes to an end, LL(1) or not: an expansion
that takes no token puts lower symbols on top of the stack.  Where the table would have several
rules, it has the first of those that begin with the next terminal, so the loop reads the tokens as
`Grammar.Reads` does.

Behind the last token `parse` drops the symbols that have the empty string in their first set.  It
looks the first set up as that of a nonterminal, so when the first symbol that cannot be dropped is
a terminal, it raises a `KeyError` where it should return `False`.
-/

namespace NaoSoccer

open Grammar

variable {σ τ : Type*} [DecidableEq σ] {g : Grammar σ}

namespace Parser

/-! ## The table -/

/-- The table has the first rule that begins with the next terminal. -/
lemma lookupRule_of_firstRule (hrules : g.rules.Nodup) {A t : σ} {rule : List σ}
    (h : g.FirstRule A t rule) : (build g).lookupRule t A = some rule := by
  obtain ⟨before, after, hrulesOf, hbegins, hbefore⟩ := h
  have hnodup : (g.rulesOf A).Nodup := by
    refine (hrules.filter _).map_on fun rule hrule rule' hrule' heq => ?_
    have h := of_decide_eq_true (List.mem_filter.mp hrule).2
    have h' := of_decide_eq_true (List.mem_filter.mp hrule').2
    exact Prod.ext (h.trans h'.symm) heq
  rw [hrulesOf] at hnodup
  exact lookupRule_begins hrulesOf (List.nodup_append.mp hnodup).1 hbegins hbefore

/-- **What the table can have**: the first rule that begins with the next terminal, or, if there is
none, the empty string. -/
lemma lookupRule_cases (hrules : g.rules.Nodup) {A t : σ} {rule : List σ} (ht : t ∈ g.terminals)
    (h : (build g).lookupRule t A = some rule) : g.FirstRule A t rule ∨
      rule = [g.emptyString] ∧ (A, [g.emptyString]) ∈ g.rules ∧
        ∀ r, (A, r) ∈ g.rules → ¬ g.Begins g.HasEmptyRule r t := by
  by_cases hsome : ∃ r, (A, r) ∈ g.rules ∧ g.Begins g.HasEmptyRule r t
  · obtain ⟨r, hr, hbegins⟩ := hsome
    obtain ⟨first, hfirst⟩ := exists_firstRule hr hbegins
    obtain rfl := Option.some.inj (h.symm.trans (lookupRule_of_firstRule hrules hfirst))
    exact Or.inl hfirst
  · have hnone : ∀ r, (A, r) ∈ g.rules → ¬ g.Begins g.HasEmptyRule r t :=
      fun r hr hbegins => hsome ⟨r, hr, hbegins⟩
    obtain ⟨hmem, hselects⟩ := List.mem_filter.mp (mem_selected_of_lookupRule h)
    rw [mem_rulesOf] at hmem
    rcases (selects_iff hmem ht).mp (of_decide_eq_true hselects) with hbegins | ⟨rfl, -⟩
    · exact absurd hbegins (hnone rule hmem)
    · exact Or.inr ⟨rfl, hmem, hnone⟩

/-! ## The parser comes to an end -/

/-- From every state with these symbols and kinds the loop comes to an end. -/
def Halts (τ : Type*) (p : Parser σ) (ss ts : List σ) : Prop :=
  EndsIn p (fun _ : ParseResult σ τ => True) ss ts

section Halts

variable {rank : σ → ℕ} {t : σ} {ts : List σ}

/-- With `X` on the stack the loop comes to an end; if the next terminal is none of those that `X`
begins with, provided that it does so with the rest of the stack. -/
def HaltsBefore (τ : Type*) (g : Grammar σ) (t : σ) (ts : List σ) (X : σ) : Prop :=
  ∀ ss, (¬ g.Begins g.HasEmptyRule [X] t → Halts τ (build g) ss (t :: ts)) →
    Halts τ (build g) (X :: ss) (t :: ts)

/-- A rule that begins with the next terminal never gets behind the symbols in its front. -/
lemma halts_of_leading {rule : List σ} (hbegins : g.Begins g.HasEmptyRule rule t)
    (hempty : g.emptyString ∉ rule) (hleading : ∀ X ∈ g.leading rule, HaltsBefore τ g t ts X)
    (ss : List σ) : Halts τ (build g) (rule ++ ss) (t :: ts) := by
  induction rule with
  | nil => exact absurd hbegins not_begins_nil
  | cons X rule ih =>
    obtain ⟨hX, hrest⟩ := List.ne_and_not_mem_of_not_mem_cons hempty
    refine hleading X List.mem_cons_self _ fun hnot => ?_
    -- `X` does not begin with the terminal, so it is dropped and the rest of the rule does
    rcases begins_cons_iff.mp hbegins with ⟨rfl, ht⟩ | ⟨r, hr, hbegins⟩ | ⟨hskip, hbegins⟩
    · exact absurd (Begins.terminal ht) hnot
    · exact absurd (Begins.expand hr hbegins) hnot
    · have hrule : (X, [g.emptyString]) ∈ g.rules := hskip.resolve_left (Ne.symm hX)
      refine ih hbegins hrest fun Y hY => hleading Y ?_
      rw [leading, if_pos hrule]
      exact List.mem_cons_of_mem _ hY

/-- A symbol that is no nonterminal is never expanded. -/
lemma haltsBefore_of_notMem (hnext : ∀ ss, Halts τ (build g) ss ts) {X : σ}
    (hX : X ∉ g.nonterminals) : HaltsBefore τ g t ts X := by
  intro ss hss
  by_cases hempty : X = g.emptyString
  · rw [hempty] at hss ⊢
    exact EndsIn.skip (p := build g) (hss not_begins_empty)
  by_cases hmatch : X = t
  · rw [← hmatch]
    exact EndsIn.take hempty (hnext ss)
  · exact EndsIn.noRule hempty hmatch (Or.inr (Or.inl hX)) trivial

/-- **The step lemma**: one symbol on the stack does not keep the loop from its end, if the loop
ends with one token less.  The induction is on the height of the symbol. -/
lemma haltsBefore (hrules : g.rules.Nodup) (hrank : g.LeftRanked rank)
    (hnext : ∀ ss, Halts τ (build g) ss ts) (X : σ) : HaltsBefore τ g t ts X := by
  induction hn : rank X using Nat.strongRecOn generalizing X with
  | ind n ih =>
    by_cases hX : X ∈ g.nonterminals
    swap
    · exact haltsBefore_of_notMem hnext hX
    intro ss hss
    have hempty : X ≠ g.emptyString := ne_emptyString_of_nonterminal hX
    by_cases hmatch : X = t
    · rw [← hmatch]
      exact EndsIn.take hempty (hnext ss)
    by_cases ht : t ∈ g.terminals
    swap
    · exact EndsIn.noRule hempty hmatch (Or.inl ht) trivial
    rcases hlookup : (build g).lookupRule t X with _ | rule
    · exact EndsIn.noRule hempty hmatch (Or.inr (Or.inr hlookup)) trivial
    refine EndsIn.expand hempty hmatch ht hX hlookup ?_
    rcases lookupRule_cases hrules ht hlookup with hfirst | ⟨rfl, -, hnone⟩
    · refine halts_of_leading hfirst.begins hfirst.emptyString_notMem (fun Y hY => ?_) ss
      by_cases hYmem : Y ∈ g.nonterminals
      · exact ih (rank Y) (hn ▸ hrank _ hfirst.mem Y hY hYmem) Y rfl
      · exact haltsBefore_of_notMem hnext hYmem
    · refine EndsIn.skip (p := build g) (hss fun hbegins => ?_)
      rcases begins_cons_iff.mp hbegins with ⟨rfl, -⟩ | ⟨r, hr, hbegins⟩ | ⟨-, hbegins⟩
      · exact hmatch rfl
      · exact hnone r hr hbegins
      · exact not_begins_nil hbegins

/-- **The loop comes to an end**, whatever is on the stack and whatever is left of the input. -/
lemma halts (hrules : g.rules.Nodup) (hrank : g.LeftRanked rank) (ss ts : List σ) :
    Halts τ (build g) ss ts := by
  induction ts generalizing ss with
  | nil => exact EndsIn.finish fun _ _ _ => trivial
  | cons t ts ihts =>
    induction ss with
    | nil => exact EndsIn.noStack trivial
    | cons X ss ihss => exact haltsBefore hrules hrank ihts X ss fun _ => ihss

end Halts

/-- **The parser comes to an end on every list of tokens.** -/
theorem parse_total {rank : σ → ℕ} (hrules : g.rules.Nodup) (hrank : g.LeftRanked rank)
    (tokens : List (Token σ τ)) : ∃ fuel result, (build g).parse fuel tokens = some result := by
  by_cases hne : tokens = []
  · exact ⟨0, .failed, if_pos hne⟩
  · obtain ⟨fuel, result, hrun, -⟩ := halts hrules hrank [g.start] (tokens.map Token.token)
      ⟨[blank g.start], [⟨g.start, 0⟩], tokens⟩ rfl rfl
    exact ⟨fuel, result, (if_neg hne).trans hrun⟩

/-! ## The second loop on a terminal -/

/-- The symbols can be dropped up to a terminal. -/
def StuckOn (g : Grammar σ) (ss : List σ) : Prop :=
  ∃ dropped t rest, ss = dropped ++ t :: rest ∧ (∀ A ∈ dropped, (A, [g.emptyString]) ∈ g.rules) ∧
    t ∈ g.terminals

/-- All symbols are terminals and nonterminals. -/
def Proper (g : Grammar σ) (ss : List σ) : Prop := ∀ X ∈ ss, X ∈ g.terminals ∨ X ∈ g.nonterminals

omit [DecidableEq σ] in
/-- A rule that is not the empty string is proper. -/
lemma proper_rule {A : σ} {r : List σ} (hrule : (A, r) ∈ g.rules) (hempty : g.emptyString ∉ r) :
    Proper g r :=
  fun _ hX => symbol_mem_of_mem_rule hrule hX fun heq => hempty (heq ▸ hX)

/-- A word breaks off if the symbols that are left of the start symbol get stuck. -/
lemma breaksOff_iff {w : List σ} :
    g.BreaksOff w ↔ ∃ left, g.Reads [g.start] w left ∧ StuckOn g left := by
  constructor
  · rintro ⟨dropped, t, rest, hreads, hdropped, ht⟩
    exact ⟨_, hreads, dropped, t, rest, rfl, hdropped, ht⟩
  · rintro ⟨left, hreads, dropped, t, rest, rfl, hdropped, ht⟩
    exact ⟨dropped, t, rest, hreads, hdropped, ht⟩

omit [DecidableEq σ] in
/-- Symbols get stuck on the first one if it is a terminal, and behind it if it can be dropped. -/
lemma stuckOn_cons_iff {X : σ} {ss : List σ} :
    StuckOn g (X :: ss) ↔ X ∈ g.terminals ∨ (X, [g.emptyString]) ∈ g.rules ∧ StuckOn g ss := by
  constructor
  · rintro ⟨_ | ⟨Y, dropped⟩, t, rest, heq, hdropped, ht⟩
    · obtain ⟨rfl, -⟩ := List.cons.inj heq
      exact Or.inl ht
    · obtain ⟨rfl, rfl⟩ := List.cons.inj heq
      obtain ⟨hX, hdropped⟩ := List.forall_mem_cons.mp hdropped
      exact Or.inr ⟨hX, dropped, t, rest, rfl, hdropped, ht⟩
  · rintro (ht | ⟨hX, dropped, t, rest, rfl, hdropped, ht⟩)
    · exact ⟨[], X, ss, rfl, fun A hA => absurd hA List.not_mem_nil, ht⟩
    · exact ⟨X :: dropped, t, rest, rfl, List.forall_mem_cons.mpr ⟨hX, hdropped⟩, ht⟩

/-- **The second loop raises an error exactly if it gets stuck on a terminal.** -/
lemma drain_eq_keyError_iff (nodes : List (ParseNode σ τ)) {stack : List (ParseSymbol σ)}
    (hsymbols : Proper g (stack.map ParseSymbol.symbol)) :
    drain (build g) nodes stack = .keyError ↔ StuckOn g (stack.map ParseSymbol.symbol) := by
  induction stack with
  | nil =>
    refine ⟨fun h => absurd h (by simp [drain]), ?_⟩
    rintro ⟨dropped, t, rest, h, -⟩
    exact absurd h.symm (List.append_ne_nil_of_right_ne_nil _ (List.cons_ne_nil _ _))
  | cons top stack ih =>
    obtain ⟨htop, hrest⟩ := List.forall_mem_cons.mp hsymbols
    have hfirst : (build g).grammar.emptyString ∈ setOf (build g).firstSets top.symbol ↔
        (top.symbol, [g.emptyString]) ∈ g.rules :=
      mem_setOf.trans emptyString_mem_first_iff
    rw [List.map_cons, stuckOn_cons_iff, ← ih hrest, drain]
    by_cases hA : top.symbol ∈ (build g).grammar.nonterminals
    · have hnot : top.symbol ∉ g.terminals := notMem_terminals hA
      rw [if_neg (not_not.mpr hA)]
      by_cases hrule : (top.symbol, [g.emptyString]) ∈ g.rules
      · rw [if_neg (not_not.mpr (hfirst.mpr hrule))]
        exact ⟨fun h => Or.inr ⟨hrule, h⟩, fun h => (h.resolve_left hnot).2⟩
      · rw [if_pos (mt hfirst.mp hrule)]
        exact ⟨fun h => absurd h (by simp), fun h => absurd (h.resolve_left hnot).1 hrule⟩
    · rw [if_pos hA]
      exact ⟨fun _ => Or.inl (htop.resolve_right hA), fun _ => rfl⟩

/-! ## Reading and the loop -/

omit [DecidableEq σ] in
/-- The symbols of a rule fit in the place of its nonterminal. -/
lemma Fits.expand {A : σ} {r ss : List σ} (h : Fits g (A :: ss) []) (hrule : (A, r) ∈ g.rules) :
    Fits g (r ++ ss) [] := by
  rintro α X β t heq hnext
  rcases append_eq_append_cons heq with ⟨c, rfl, rfl⟩ | ⟨a, rfl, rfl⟩
  · rcases hnext with hbegins | ⟨-, hnone⟩
    · rcases begins_append_iff.mp hbegins with hc | ⟨hc, hss⟩
      · exact Follows.right hrule hc
      · exact Follows.inherit hrule hc (h [] A ss t rfl (Or.inl hss))
    · exact absurd hnone nofun
  · exact h.tail a X β t rfl hnext

/-- **From reading to the loop**: when the symbols on the stack read the tokens, the second loop
decides on what is left of them. -/
lemma endsIn_of_reads (hrules : g.rules.Nodup) {Q : ParseResult σ τ → Prop} {ss w left : List σ}
    (h : g.Reads ss w left) (hsymbols : Proper g ss) (hfits : Fits g ss [])
    (hend : ∀ nodes (stack : List (ParseSymbol σ)), stack.map ParseSymbol.symbol = left →
      Proper g left → Q (drain (build g) nodes stack)) :
    EndsIn (build g) Q ss w := by
  induction h with
  | stop => exact EndsIn.finish fun nodes stack hstack => hend nodes stack hstack hsymbols
  | terminal ht _ ih =>
    exact EndsIn.take (ne_emptyString_of_terminal ht)
      (ih (List.forall_mem_cons.mp hsymbols).2 hfits.tail hend)
  | @expand A t r ss w left hfirst _ ih =>
    have hA : A ∈ g.nonterminals := g.rule_mem _ hfirst.mem
    have ht : t ∈ g.terminals := hfirst.begins.mem_terminals
    have hproper : Proper g (r ++ ss) := List.forall_mem_append.mpr
      ⟨proper_rule hfirst.mem hfirst.emptyString_notMem, (List.forall_mem_cons.mp hsymbols).2⟩
    exact EndsIn.expand (ne_emptyString_of_nonterminal hA) (fun heq => notMem_terminals hA (heq ▸ ht))
      ht hA (lookupRule_of_firstRule hrules hfirst) (ih hproper (hfits.expand hfirst.mem) hend)
  | @erase A t ss w left hrule hnone hreads ih =>
    have hA : A ∈ g.nonterminals := g.rule_mem _ hrule
    have hbegins : g.Begins g.HasEmptyRule ss t := hreads.begins rfl
    have hfollows : g.Follows g.HasEmptyRule A t := hfits [] A ss t rfl (Or.inl hbegins)
    have ht : t ∈ g.terminals := hbegins.mem_terminals
    exact EndsIn.expand (ne_emptyString_of_nonterminal hA) (fun heq => notMem_terminals hA (heq ▸ ht))
      ht hA (lookupRule_empty hrule hfollows hnone)
      (EndsIn.skip (p := build g) (ih (List.forall_mem_cons.mp hsymbols).2 hfits.tail hend))

/-- **From the loop to reading**: when the loop raises an error, the symbols on the stack read the
tokens and get stuck.  The induction is on the number of passes; a nonterminal that is dropped takes
two. -/
lemma reads_of_keyError (hrules : g.rules.Nodup) {fuel : ℕ} {st : ParseState σ τ}
    (h : parseLoop (build g) fuel st = some .keyError)
    (hsymbols : Proper g (st.stack.map ParseSymbol.symbol))
    (hkinds : ∀ token ∈ st.tokens, token.token ∉ g.nonterminals) :
    ∃ left, g.Reads (st.stack.map ParseSymbol.symbol) (st.tokens.map Token.token) left ∧
      StuckOn g left := by
  induction fuel using Nat.strongRecOn generalizing st with
  | ind fuel ih =>
    obtain ⟨nodes, stack, tokens⟩ := st
    cases fuel with
    | zero => exact absurd h (by simp [parseLoop])
    | succ fuel =>
      rcases tokens with _ | ⟨token, tokens⟩
      · exact ⟨_, Reads.stop, (drain_eq_keyError_iff nodes hsymbols).mp (Option.some.inj h)⟩
      rcases stack with _ | ⟨top, stack⟩
      · exact absurd (Option.some.inj h) (by simp)
      obtain ⟨htop, hrest⟩ := List.forall_mem_cons.mp hsymbols
      obtain ⟨hkind, hkinds'⟩ := List.forall_mem_cons.mp hkinds
      have hempty : top.symbol ≠ g.emptyString := fun heq => htop.elim
        (fun ht => ne_emptyString_of_terminal ht heq)
        (fun hA => ne_emptyString_of_nonterminal hA heq)
      rw [parseLoop] at h
      dsimp only at h
      rw [if_neg (show ¬ top.symbol = (build g).grammar.emptyString from hempty)] at h
      split at h
      next hmatch =>
        obtain ⟨left, hreads, hstuck⟩ := ih fuel (Nat.lt_succ_self fuel) h hrest hkinds'
        have ht : token.token ∈ g.terminals :=
          hmatch ▸ htop.resolve_right (hmatch ▸ hkind)
        rw [List.map_cons, List.map_cons, hmatch]
        exact ⟨left, Reads.terminal ht hreads, hstuck⟩
      split at h
      · exact absurd h (by simp)
      next ht =>
      split at h
      · exact absurd h (by simp)
      split at h
      · exact absurd h (by simp)
      next rule hlookup =>
      rcases lookupRule_cases hrules (not_not.mp ht) hlookup with hfirst | ⟨rfl, hrule, hnone⟩
      · have hsymbols' : (expand ⟨nodes, top :: stack, token :: tokens⟩ top.node stack rule).stack.map
            ParseSymbol.symbol = rule ++ stack.map ParseSymbol.symbol := by
          rw [expand, List.map_append, map_symbol_parseSymbols]
        have hproper : Proper g (rule ++ stack.map ParseSymbol.symbol) :=
          List.forall_mem_append.mpr ⟨proper_rule hfirst.mem hfirst.emptyString_notMem, hrest⟩
        obtain ⟨left, hreads, hstuck⟩ :=
          ih fuel (Nat.lt_succ_self fuel) h (hsymbols' ▸ hproper) hkinds
        rw [hsymbols'] at hreads
        exact ⟨left, Reads.expand hfirst hreads, hstuck⟩
      · -- the next pass pops the empty string again
        cases fuel with
        | zero => exact absurd h (by simp [parseLoop])
        | succ fuel =>
          rw [parseLoop] at h
          dsimp only [expand, parseSymbols, List.cons_append, List.nil_append] at h
          rw [if_pos (show g.emptyString = (build g).grammar.emptyString from rfl)] at h
          obtain ⟨left, hreads, hstuck⟩ := ih fuel (by omega) h hrest hkinds
          exact ⟨left, Reads.erase hrule hnone hreads, hstuck⟩

omit [DecidableEq σ] in
/-- The start symbol is proper. -/
lemma proper_start (g : Grammar σ) : Proper g [g.start] :=
  fun _ hX => Or.inr (List.mem_singleton.mp hX ▸ g.start_mem)

/-- The start symbol does not break off before it has read anything. -/
lemma not_breaksOff_nil : ¬ g.BreaksOff [] := by
  intro h
  obtain ⟨left, hreads, hstuck⟩ := breaksOff_iff.mp h
  cases hreads
  rcases stuckOn_cons_iff.mp hstuck with ht | ⟨-, dropped, t, rest, heq, -⟩
  · exact notMem_terminals g.start_mem ht
  · exact absurd heq.symm (List.append_ne_nil_of_right_ne_nil _ (List.cons_ne_nil _ _))

/-- **The parser raises an error exactly on the words that break off in front of a terminal.** -/
theorem parse_keyError_iff (hrules : g.rules.Nodup) {tokens : List (Token σ τ)}
    (hkinds : ∀ token ∈ tokens, token.token ∉ g.nonterminals) :
    (∃ fuel, (build g).parse fuel tokens = some .keyError) ↔
      g.BreaksOff (tokens.map Token.token) := by
  by_cases hne : tokens = []
  · have hnil : ¬ g.BreaksOff (tokens.map Token.token) := by
      rw [hne]
      exact not_breaksOff_nil
    refine ⟨?_, fun h => absurd h hnil⟩
    rintro ⟨fuel, h⟩
    rw [parse, if_pos hne] at h
    exact absurd (Option.some.inj h) (by simp)
  · rw [breaksOff_iff]
    constructor
    · rintro ⟨fuel, h⟩
      rw [parse, if_neg hne] at h
      exact reads_of_keyError hrules h (proper_start g) hkinds
    · rintro ⟨left, hreads, hstuck⟩
      have hraises : EndsIn (build g) (fun result : ParseResult σ τ => result = .keyError)
          [g.start] (tokens.map Token.token) := by
        refine endsIn_of_reads hrules hreads (proper_start g) (fits_start g) ?_
        rintro nodes stack rfl hproper
        exact (drain_eq_keyError_iff nodes hproper).mpr hstuck
      obtain ⟨fuel, result, hrun, rfl⟩ :=
        hraises ⟨[blank g.start], [⟨g.start, 0⟩], tokens⟩ rfl rfl
      exact ⟨fuel, (if_neg hne).trans hrun⟩

/-- The second loop drops nonterminals of which the empty string is a rule. -/
lemma drain_of_dropped (nodes : List (ParseNode σ τ)) {stack : List (ParseSymbol σ)}
    (h : ∀ A ∈ stack.map ParseSymbol.symbol, (A, [g.emptyString]) ∈ g.rules) :
    drain (build g) nodes stack = .tree nodes := by
  induction stack with
  | nil => rfl
  | cons top stack ih =>
    obtain ⟨htop, hrest⟩ := List.forall_mem_cons.mp h
    have hfirst : (build g).grammar.emptyString ∈ setOf (build g).firstSets top.symbol :=
      mem_setOf.mpr (emptyString_mem_first_iff.mpr htop)
    have hA : top.symbol ∈ (build g).grammar.nonterminals := g.rule_mem _ htop
    rw [drain, if_neg (not_not.mpr hA), if_neg (not_not.mpr hfirst), ih hrest]

/-- **The parser returns a tree on the words that the start symbol accepts**, LL(1) or not. -/
theorem exists_tree_of_accepts (hrules : g.rules.Nodup) {tokens : List (Token σ τ)}
    (hne : tokens ≠ []) (h : g.Accepts [g.start] (tokens.map Token.token)) :
    ∃ fuel all, (build g).parse fuel tokens = some (.tree all) := by
  obtain ⟨left, hreads, hleft⟩ := h
  have hreturns : EndsIn (build g) (fun result : ParseResult σ τ => ∃ all, result = .tree all)
      [g.start] (tokens.map Token.token) := by
    refine endsIn_of_reads hrules hreads (proper_start g) (fits_start g) ?_
    rintro nodes stack rfl -
    exact ⟨nodes, drain_of_dropped nodes hleft⟩
  obtain ⟨fuel, result, hrun, all, rfl⟩ :=
    hreturns ⟨[blank g.start], [⟨g.start, 0⟩], tokens⟩ rfl rfl
  exact ⟨fuel, all, (if_neg hne).trans hrun⟩

/-- With more passes the parser has the same result. -/
lemma parse_of_le {p : Parser σ} {fuel fuel' : ℕ} {tokens : List (Token σ τ)}
    {result : ParseResult σ τ} (hle : fuel ≤ fuel') (h : p.parse fuel tokens = some result) :
    p.parse fuel' tokens = some result := by
  unfold parse at h ⊢
  split at h
  · next hne => rw [if_pos hne, h]
  · next hne => rw [if_neg hne, parseLoop_of_le hle h]

/-- **The parser has one result**, whatever number of passes it is given. -/
lemma parse_unique {p : Parser σ} {fuel fuel' : ℕ} {tokens : List (Token σ τ)}
    {result result' : ParseResult σ τ} (h : p.parse fuel tokens = some result)
    (h' : p.parse fuel' tokens = some result') : result = result' := by
  rcases Nat.le_total fuel fuel' with hle | hle
  · exact Option.some.inj ((parse_of_le hle h).symm.trans h')
  · exact Option.some.inj (h.symm.trans (parse_of_le hle h'))

/-- **The parser reports what it finds, a tree or a failure, exactly on the words that do not break
off in front of a terminal.** -/
theorem parse_reports_iff {rank : σ → ℕ} (hrules : g.rules.Nodup) (hrank : g.LeftRanked rank)
    {tokens : List (Token σ τ)} (hkinds : ∀ token ∈ tokens, token.token ∉ g.nonterminals) :
    (∃ fuel result, (build g).parse fuel tokens = some result ∧ result ≠ .keyError) ↔
      ¬ g.BreaksOff (tokens.map Token.token) := by
  rw [← parse_keyError_iff hrules hkinds]
  constructor
  · rintro ⟨fuel, result, hrun, hresult⟩ ⟨fuel', hrun'⟩
    exact hresult (parse_unique hrun hrun')
  · intro hnot
    obtain ⟨fuel, result, hrun⟩ := parse_total hrules hrank tokens
    exact ⟨fuel, result, hrun, fun heq => hnot ⟨fuel, heq ▸ hrun⟩⟩

end Parser

end NaoSoccer
