import NaoSoccer.Schema.ParserSteps

/-!
# Completeness of the parser

For an LL(1) grammar the parser returns a tree exactly for the words that are derived *directly*:
wherever a nonterminal derives the empty string, it does so by its own rule for it.  A word that has
only other derivations is in the language of the grammar, but `lookupFirstSet` does not see that a
rule of nonterminals which all derive the empty string derives it too, so the table has no rule for
such a nonterminal, and `parse` returns `False`.

`Consumes` is the loop of `parse` as a relation on symbols and kinds of tokens: with `ss` on top of
the stack, the parser goes from the tokens `ts` to the tokens `w` and has popped exactly `ss`.  It
composes along the stack, so that both directions are inductions on derivations: on `Consumes` for
what the parser accepts, on `DerivesDirectly` for what it has to accept.
-/

namespace NaoSoccer

open Grammar

variable {σ τ : Type*} [DecidableEq σ] {g : Grammar σ}

namespace Parser

/-! ## The loop as a relation -/

/-- With `ss` on top of the stack the parser goes from the tokens of one list of kinds to those of
another and has popped exactly `ss`. -/
inductive Consumes (p : Parser σ) : List σ → List σ → List σ → Prop
  /-- Nothing is popped. -/
  | nil {ts} : Consumes p [] ts ts
  /-- The empty string is popped while there are tokens. -/
  | skip {ss t ts w} : Consumes p ss (t :: ts) w →
      Consumes p (p.grammar.emptyString :: ss) (t :: ts) w
  /-- The top is the kind of the next token. -/
  | take {t ss ts w} : t ≠ p.grammar.emptyString → Consumes p ss ts w →
      Consumes p (t :: ss) (t :: ts) w
  /-- The top is expanded by the rule in the table. -/
  | expand {A t rule ss ts v w} : A ≠ p.grammar.emptyString → A ≠ t → t ∈ p.grammar.terminals →
      A ∈ p.grammar.nonterminals → p.lookupRule t A = some rule → Consumes p rule (t :: ts) v →
      Consumes p ss v w → Consumes p (A :: ss) (t :: ts) w
  /-- At the end of the input the top has the empty string in its first set. -/
  | drain {A ss w} : A ∈ p.grammar.nonterminals → (A, p.grammar.emptyString) ∈ p.firstSets →
      Consumes p ss [] w → Consumes p (A :: ss) [] w

/-- What is popped in one go is popped part by part. -/
lemma Consumes.split {p : Parser σ} {top rest ts w : List σ}
    (h : Consumes p (top ++ rest) ts w) : ∃ v, Consumes p top ts v ∧ Consumes p rest v w := by
  induction top generalizing ts with
  | nil => exact ⟨ts, Consumes.nil, h⟩
  | cons X top ih =>
    cases h with
    | skip h =>
      obtain ⟨v, htop, hrest⟩ := ih h
      exact ⟨v, Consumes.skip htop, hrest⟩
    | take hne h =>
      obtain ⟨v, htop, hrest⟩ := ih h
      exact ⟨v, Consumes.take hne htop, hrest⟩
    | expand hempty hne ht hA hlookup hrule h =>
      obtain ⟨v, htop, hrest⟩ := ih h
      exact ⟨v, Consumes.expand hempty hne ht hA hlookup hrule htop, hrest⟩
    | drain hA hempty h =>
      obtain ⟨v, htop, hrest⟩ := ih h
      exact ⟨v, Consumes.drain hA hempty htop, hrest⟩

/-- The second loop pops the whole stack. -/
lemma consumes_of_drain {p : Parser σ} {nodes all : List (ParseNode σ τ)}
    {stack : List (ParseSymbol σ)} (h : drain p nodes stack = .tree all) :
    Consumes p (stack.map ParseSymbol.symbol) [] [] := by
  induction stack with
  | nil => exact Consumes.nil
  | cons entry stack ih =>
    rw [drain] at h
    split at h
    · exact absurd h (by simp)
    next hA =>
      split at h
      · exact absurd h (by simp)
      next hempty =>
        exact Consumes.drain (not_not.mp hA) (mem_setOf.mp (not_not.mp hempty)) (ih h)

/-- A run of the loop that ends in a tree pops the whole stack and takes all tokens. -/
lemma consumes_of_parseLoop {p : Parser σ} {fuel : ℕ} {st : ParseState σ τ}
    {all : List (ParseNode σ τ)} (h : parseLoop p fuel st = some (.tree all)) :
    Consumes p (st.stack.map ParseSymbol.symbol) (st.tokens.map Token.token) [] := by
  induction fuel generalizing st with
  | zero => exact absurd h (by simp [parseLoop])
  | succ fuel ih =>
    obtain ⟨nodes, stack, tokens⟩ := st
    cases tokens with
    | nil => exact consumes_of_drain (Option.some.inj h)
    | cons token tokens =>
      cases stack with
      | nil => exact absurd h (by simp [parseLoop])
      | cons top stack =>
        rw [parseLoop] at h
        dsimp only at h
        split at h
        next hempty =>
          rw [List.map_cons, hempty]
          exact Consumes.skip (ih h)
        split at h
        next hne hmatch =>
          rw [List.map_cons, List.map_cons, ← hmatch]
          exact Consumes.take hne (ih h)
        split at h
        · exact absurd h (by simp)
        split at h
        · exact absurd h (by simp)
        split at h
        · exact absurd h (by simp)
        next hempty hne ht hA _ rule hlookup =>
          have hrun := ih h
          rw [expand, List.map_append, map_symbol_parseSymbols] at hrun
          obtain ⟨v, hrule, hrest⟩ := hrun.split
          exact Consumes.expand hempty hne (not_not.mp ht) (not_not.mp hA) hlookup hrule hrest

/-- From every state with these symbols on the stack and these kinds of tokens left, the loop
returns a tree. -/
def Succeeds (τ : Type*) (p : Parser σ) (ss ts : List σ) : Prop :=
  ∀ st : ParseState σ τ, st.stack.map ParseSymbol.symbol = ss → st.tokens.map Token.token = ts →
    ∃ fuel all, parseLoop p fuel st = some (.tree all)

namespace Succeeds

variable {p : Parser σ} {ss ts : List σ} {t : σ}

/-- Success is one way to end. -/
lemma iff_endsIn : Succeeds τ p ss ts ↔
    EndsIn p (fun result : ParseResult σ τ => ∃ all, result = .tree all) ss ts := by
  constructor
  · intro h st hstack htokens
    obtain ⟨fuel, all, hrun⟩ := h st hstack htokens
    exact ⟨fuel, .tree all, hrun, all, rfl⟩
  · intro h st hstack htokens
    obtain ⟨fuel, result, hrun, all, rfl⟩ := h st hstack htokens
    exact ⟨fuel, all, hrun⟩

/-- Without stack and tokens the loop returns a tree. -/
lemma nil : Succeeds τ p [] [] := by
  refine iff_endsIn.mpr (EndsIn.finish fun nodes stack hstack => ⟨nodes, ?_⟩)
  obtain rfl : stack = [] := List.map_eq_nil_iff.mp hstack
  rfl

/-- A pass that pops the empty string. -/
lemma skip (h : Succeeds τ p ss (t :: ts)) :
    Succeeds τ p (p.grammar.emptyString :: ss) (t :: ts) :=
  iff_endsIn.mpr (iff_endsIn.mp h).skip

/-- A pass that takes a token. -/
lemma take (hne : t ≠ p.grammar.emptyString) (h : Succeeds τ p ss ts) :
    Succeeds τ p (t :: ss) (t :: ts) :=
  iff_endsIn.mpr ((iff_endsIn.mp h).take hne)

/-- A pass that expands the top. -/
lemma expand {A : σ} {rule : List σ} (hempty : A ≠ p.grammar.emptyString) (hne : A ≠ t)
    (ht : t ∈ p.grammar.terminals) (hA : A ∈ p.grammar.nonterminals)
    (hlookup : p.lookupRule t A = some rule) (h : Succeeds τ p (rule ++ ss) (t :: ts)) :
    Succeeds τ p (A :: ss) (t :: ts) :=
  iff_endsIn.mpr ((iff_endsIn.mp h).expand hempty hne ht hA hlookup)

/-- A pass of the second loop. -/
lemma drain {A : σ} (hA : A ∈ p.grammar.nonterminals)
    (hempty : (A, p.grammar.emptyString) ∈ p.firstSets) (h : Succeeds τ p ss []) :
    Succeeds τ p (A :: ss) [] := by
  rintro ⟨nodes, stack, tokens⟩ hstack htokens
  obtain ⟨top, stack, rfl, htop, hrest⟩ := List.map_eq_cons_iff.mp hstack
  obtain rfl : tokens = [] := List.map_eq_nil_iff.mp htokens
  obtain ⟨fuel, all, hrun⟩ := h ⟨nodes, stack, []⟩ hrest rfl
  cases fuel with
  | zero => exact absurd hrun (by simp [parseLoop])
  | succ fuel =>
    refine ⟨1, all, congrArg some ?_⟩
    rw [Parser.drain, htop, if_neg (not_not.mpr hA),
      if_neg (not_not.mpr (mem_setOf.mpr hempty))]
    exact Option.some.inj hrun

end Succeeds

/-- If the parser can pop `ss` and succeeds with what is then left, it succeeds. -/
lemma Consumes.succeeds {p : Parser σ} {ss ts w : List σ} (h : Consumes p ss ts w) {rest : List σ}
    (hrest : Succeeds τ p rest w) : Succeeds τ p (ss ++ rest) ts := by
  induction h generalizing rest with
  | nil => exact hrest
  | skip _ ih => exact (ih hrest).skip
  | take hne _ ih => exact (ih hrest).take hne
  | @expand A t rule ss ts v w hempty hne ht hA hlookup _ _ ihrule ihss =>
    exact (ihrule (ihss hrest)).expand hempty hne ht hA hlookup
  | drain hA hempty _ ih => exact (ih hrest).drain hA hempty

/-- **The loop as a relation**: the parser returns a tree exactly for the token lists that are
consumed by the start symbol. -/
theorem parse_tree_iff (p : Parser σ) {tokens : List (Token σ τ)} (hne : tokens ≠ []) :
    (∃ fuel all, p.parse fuel tokens = some (.tree all)) ↔
      Consumes p [p.grammar.start] (tokens.map Token.token) [] := by
  constructor
  · rintro ⟨fuel, all, h⟩
    rw [parse, if_neg hne] at h
    exact consumes_of_parseLoop h
  · intro h
    have hrun : Succeeds τ p [p.grammar.start] (tokens.map Token.token) := h.succeeds Succeeds.nil
    obtain ⟨fuel, all, hrun⟩ := hrun ⟨[blank p.grammar.start], [⟨p.grammar.start, 0⟩], tokens⟩ rfl rfl
    refine ⟨fuel, all, ?_⟩
    rw [parse, if_neg hne]
    exact hrun

/-! ## The table of an LL(1) grammar -/

/-- When a rule is selected: the next terminal is one that it begins with, or the rule is the empty
string and the terminal follows its nonterminal. -/
lemma selects_iff {A t : σ} {rule : List σ} (hrule : (A, rule) ∈ g.rules) (ht : t ∈ g.terminals) :
    (build g).Selects t A rule ↔ g.Begins g.HasEmptyRule rule t ∨
      rule = [g.emptyString] ∧ g.Follows g.HasEmptyRule A t := by
  have hA : A ≠ g.emptyString := ne_emptyString_of_nonterminal (g.rule_mem _ hrule)
  have hne : t ≠ g.emptyString := ne_emptyString_of_terminal ht
  rw [Selects, mem_setOf]
  show t ∈ lookupFirstSet g (buildFirstSets g) rule ∨
    g.emptyString ∈ lookupFirstSet g (buildFirstSets g) rule ∧
      (A, t) ∈ buildFollowSets g (buildFirstSets g) ↔ _
  rw [mem_follow_iff hA]
  by_cases hr : rule = [g.emptyString]
  · rw [hr, lookupFirstSet_empty, Finset.mem_singleton, Finset.mem_singleton]
    simp [hne, not_begins_empty]
  · have hempty := emptyString_notMem_rule hrule hr
    rw [mem_lookupFirstSet_iff hempty]
    simp [hr, emptyString_notMem_lookupFirstSet hempty]

/-- A rule that the parser selects is selectable by the sets of the textbook. -/
lemma Selects.selectable {A t : σ} {rule : List σ} (h : (build g).Selects t A rule)
    (hrule : (A, rule) ∈ g.rules) (ht : t ∈ g.terminals) : g.Selectable A rule t := by
  have hnullable : ∀ X, g.HasEmptyRule X → g.Nullable X := fun X hX => hX.nullable
  rcases (selects_iff hrule ht).mp h with hbegins | ⟨rfl, hfollows⟩
  · exact Or.inl (hbegins.mono hnullable)
  · refine Or.inr ⟨fun X hX => ?_, hfollows.mono hnullable⟩
    rw [List.mem_singleton.mp hX]
    exact Nullable.empty

/-- The table has the first of the rules that begin with the next terminal. -/
lemma lookupRule_begins {A t : σ} {rule : List σ} {before after : List (List σ)}
    (hrules : g.rulesOf A = before ++ rule :: after) (hnodup : before.Nodup)
    (hbegins : g.Begins g.HasEmptyRule rule t)
    (hbefore : ∀ r ∈ before, ¬ g.Begins g.HasEmptyRule r t) :
    (build g).lookupRule t A = some rule := by
  have ht : t ∈ g.terminals := hbegins.mem_terminals
  have hmem {r : List σ} (h : r ∈ before ++ rule :: after) : (A, r) ∈ g.rules := by
    rwa [← mem_rulesOf, hrules]
  have hselects : (build g).Selects t A rule :=
    (selects_iff (hmem (by simp)) ht).mpr (Or.inl hbegins)
  have hne : rule ≠ [g.emptyString] := by
    rintro rfl
    exact not_begins_empty hbegins
  -- a rule before it is selected only if it is the empty string
  have hall : ∀ r ∈ before.filter ((build g).Selects t A), r = [g.emptyString] := by
    intro r hr
    obtain ⟨hr, hsel⟩ := List.mem_filter.mp hr
    rcases (selects_iff (hmem (List.mem_append_left _ hr)) ht).mp (of_decide_eq_true hsel) with
      hb | ⟨hempty, -⟩
    · exact absurd hb (hbefore r hr)
    · exact hempty
  have hfilter : (g.rulesOf A).filter ((build g).Selects t A) =
      before.filter ((build g).Selects t A) ++
        rule :: after.filter ((build g).Selects t A) := by
    rw [hrules, List.filter_append, List.filter_cons_of_pos
      (p := fun r => decide ((build g).Selects t A r)) (decide_eq_true hselects)]
  rw [lookupRule]
  show (if ((g.rulesOf A).filter ((build g).Selects t A)).length > 1 then
    (((g.rulesOf A).filter ((build g).Selects t A)).erase [g.emptyString]).head?
      else ((g.rulesOf A).filter ((build g).Selects t A)).head?) = some rule
  have hnodup' := hnodup.filter fun r => decide ((build g).Selects t A r)
  rw [hfilter]
  generalize before.filter (fun r => decide ((build g).Selects t A r)) = front at hall hnodup' ⊢
  rcases front with _ | ⟨first, _ | ⟨second, front⟩⟩
  · rw [List.nil_append, List.erase_cons_tail (by simpa using hne)]
    split <;> rfl
  · rw [hall first List.mem_cons_self]
    simp
  · have hsecond := hall second (List.mem_cons_of_mem _ List.mem_cons_self)
    rw [hall first List.mem_cons_self, hsecond] at hnodup'
    exact absurd List.mem_cons_self (List.nodup_cons.mp hnodup').1

/-- The table has the first rule of a nonterminal where the rule begins with the next terminal. -/
lemma lookupRule_first {A t : σ} {rule : List σ} (hfirst : (g.rulesOf A).head? = some rule)
    (hbegins : g.Begins g.HasEmptyRule rule t) : (build g).lookupRule t A = some rule := by
  obtain ⟨rules, hrules⟩ := List.head?_eq_some_iff.mp hfirst
  exact lookupRule_begins (show g.rulesOf A = [] ++ rule :: rules from hrules) List.nodup_nil hbegins
    fun r hr => absurd hr List.not_mem_nil

/-- The table has the empty string for a nonterminal where the next terminal follows it and none of
its other rules begins with that terminal. -/
lemma lookupRule_empty {A t : σ} (hrule : (A, [g.emptyString]) ∈ g.rules)
    (hfollows : g.Follows g.HasEmptyRule A t)
    (hothers : ∀ rule, (A, rule) ∈ g.rules → ¬ g.Begins g.HasEmptyRule rule t) :
    (build g).lookupRule t A = some [g.emptyString] := by
  set selected := (g.rulesOf A).filter ((build g).Selects t A) with hselected
  have hall : ∀ rule ∈ selected, rule = [g.emptyString] := by
    intro rule hmem
    obtain ⟨hmem, hselects⟩ := List.mem_filter.mp hmem
    rw [mem_rulesOf] at hmem
    rcases (selects_iff hmem hfollows.mem_terminals).mp (of_decide_eq_true hselects) with
      hbegins | ⟨hempty, -⟩
    · exact absurd hbegins (hothers rule hmem)
    · exact hempty
  have hmem : [g.emptyString] ∈ selected := List.mem_filter.mpr ⟨mem_rulesOf.mpr hrule,
    decide_eq_true ((selects_iff hrule hfollows.mem_terminals).mpr (Or.inr ⟨rfl, hfollows⟩))⟩
  rw [lookupRule]
  show (if selected.length > 1 then (selected.erase [g.emptyString]).head? else selected.head?) = _
  rcases hcases : selected with _ | ⟨first, _ | ⟨second, rest⟩⟩
  · rw [hcases] at hmem
    exact absurd hmem List.not_mem_nil
  · rw [hall first (by simp [hcases])]
    rfl
  · rw [hall first (by simp [hcases]), hall second (by simp [hcases])]
    simp

/-- The top is expanded by its first rule if that begins with the next terminal. -/
lemma Consumes.expand_first {A t : σ} {rule ss ts v w : List σ}
    (hfirst : (g.rulesOf A).head? = some rule) (hbegins : g.Begins g.HasEmptyRule rule t)
    (hrule : Consumes (build g) rule (t :: ts) v) (h : Consumes (build g) ss v w) :
    Consumes (build g) (A :: ss) (t :: ts) w := by
  have hmem : (A, rule) ∈ g.rules := mem_rulesOf.mp (List.mem_of_head? hfirst)
  have hA : A ∈ g.nonterminals := g.rule_mem _ hmem
  have ht : t ∈ g.terminals := hbegins.mem_terminals
  exact Consumes.expand (ne_emptyString_of_nonterminal hA)
    (fun heq => notMem_terminals hA (heq ▸ ht)) ht hA (lookupRule_first hfirst hbegins) hrule h

/-- The top is dropped if the next terminal follows it and none of its rules begins with that. -/
lemma Consumes.expand_empty {A t : σ} {ss ts w : List σ} (hrule : (A, [g.emptyString]) ∈ g.rules)
    (hfollows : g.Follows g.HasEmptyRule A t)
    (hothers : ∀ rule, (A, rule) ∈ g.rules → ¬ g.Begins g.HasEmptyRule rule t)
    (h : Consumes (build g) ss (t :: ts) w) : Consumes (build g) (A :: ss) (t :: ts) w := by
  have hA : A ∈ g.nonterminals := g.rule_mem _ hrule
  have ht : t ∈ g.terminals := hfollows.mem_terminals
  exact Consumes.expand (ne_emptyString_of_nonterminal hA)
    (fun heq => notMem_terminals hA (heq ▸ ht)) ht hA (lookupRule_empty hrule hfollows hothers)
    (Consumes.skip Consumes.nil) h

/-- At the end of the input the top is dropped if the empty string is one of its rules. -/
lemma Consumes.drain_empty {A : σ} {ss w : List σ} (hrule : (A, [g.emptyString]) ∈ g.rules)
    (h : Consumes (build g) ss [] w) : Consumes (build g) (A :: ss) [] w :=
  Consumes.drain (g.rule_mem _ hrule) (emptyString_mem_first_iff.mpr hrule) h

/-- **The table**: for an LL(1) grammar it has the rule that is selected. -/
theorem lookupRule_eq_some_iff (hLL1 : g.IsLL1) {A t : σ} {rule : List σ} (ht : t ∈ g.terminals) :
    (build g).lookupRule t A = some rule ↔
      (A, rule) ∈ g.rules ∧ (build g).Selects t A rule := by
  set selected := (g.rulesOf A).filter ((build g).Selects t A) with hselected
  have hmem {r : List σ} : r ∈ selected ↔ (A, r) ∈ g.rules ∧ (build g).Selects t A r := by
    rw [hselected, List.mem_filter, mem_rulesOf, decide_eq_true_eq]
  have hpairwise : selected.Pairwise fun _ _ => False := by
    by_cases hA : A ∈ g.nonterminals
    · refine ((hLL1 A hA).filter _).imp_of_mem fun hr hr' hnot => ?_
      obtain ⟨hrule, hsel⟩ := hmem.mp hr
      obtain ⟨hrule', hsel'⟩ := hmem.mp hr'
      exact hnot t ht ⟨hsel.selectable hrule ht, hsel'.selectable hrule' ht⟩
    · have hnil : selected = [] := by
        refine List.eq_nil_iff_forall_not_mem.mpr fun r hr => hA ?_
        exact g.rule_mem _ (hmem.mp hr).1
      rw [hnil]
      exact List.Pairwise.nil
  rw [← hmem, lookupRule]
  show (if selected.length > 1 then _ else selected.head?) = some rule ↔ rule ∈ selected
  rcases hcases : selected with _ | ⟨first, _ | ⟨second, rest⟩⟩
  · simp
  · simp [eq_comm]
  · rw [hcases] at hpairwise
    exact absurd ((List.pairwise_cons.mp hpairwise).1 second List.mem_cons_self) id

/-- No other rule of the nonterminal is selected. -/
lemma Selects.unique (hLL1 : g.IsLL1) {A t : σ} {rule rule' : List σ} (ht : t ∈ g.terminals)
    (hrule : (A, rule) ∈ g.rules) (hrule' : (A, rule') ∈ g.rules)
    (h : (build g).Selects t A rule) (h' : (build g).Selects t A rule') : rule = rule' := by
  have hlookup := (lookupRule_eq_some_iff hLL1 ht).mpr ⟨hrule, h⟩
  have hlookup' := (lookupRule_eq_some_iff hLL1 ht).mpr ⟨hrule', h'⟩
  exact Option.some.inj (hlookup.symm.trans hlookup')

/-! ## What the parser accepts is derived directly -/

/-- **The step lemma of necessity**: what is consumed is derived directly.  If the next terminal is
one with which the symbols begin, at least that one is consumed; so a rule that is selected for its
first terminal never derives the empty word. -/
lemma Consumes.derivesDirectly (hLL1 : g.IsLL1) {ss ts w : List σ}
    (h : Consumes (build g) ss ts w) (hts : ∀ t ∈ ts, t ∈ g.terminals) :
    ∃ u, ts = u ++ w ∧ g.DerivesDirectly ss u ∧
      ∀ t v, ts = t :: v → g.Begins g.HasEmptyRule ss t → u ≠ [] := by
  induction h with
  | nil => exact ⟨[], rfl, DerivesDirectly.nil, fun t v _ hb => absurd hb not_begins_nil⟩
  | skip _ ih =>
    obtain ⟨u, hu, hderives, hnext⟩ := ih hts
    refine ⟨u, hu, DerivesDirectly.empty hderives, fun t v hv hb => ?_⟩
    rcases begins_cons_iff.mp hb with ⟨rfl, hmem⟩ | ⟨r, hrule, -⟩ | ⟨-, hb⟩
    · exact absurd hmem g.emptyString_notMem_terminals
    · exact absurd (g.rule_mem _ hrule) g.emptyString_notMem_nonterminals
    · exact hnext t v hv hb
  | @take t ss ts w _ _ ih =>
    obtain ⟨ht, hts⟩ := List.forall_mem_cons.mp hts
    obtain ⟨u, rfl, hderives, -⟩ := ih hts
    exact ⟨t :: u, rfl, DerivesDirectly.terminal ht hderives, fun _ _ _ _ => List.cons_ne_nil _ _⟩
  | @expand A t rule ss ts v w _ _ ht hA hlookup _ _ ihrule ihss =>
    obtain ⟨hrule, hselects⟩ := (lookupRule_eq_some_iff hLL1 ht).mp hlookup
    obtain ⟨u, hu, hderives, hnext⟩ := ihrule hts
    obtain ⟨u', rfl, hderives', hnext'⟩ := ihss fun s hs =>
      hts s (hu ▸ List.mem_append_right u hs)
    rcases (selects_iff hrule ht).mp hselects with hbegins | ⟨rfl, -⟩
    · -- the rule begins with the next terminal, so it consumes something
      have hne : u ≠ [] := hnext t ts rfl hbegins
      refine ⟨u ++ u', by rw [hu, List.append_assoc],
        DerivesDirectly.expand hrule hderives (fun h => absurd h hne) hderives', ?_⟩
      exact fun _ _ _ _ h => hne (List.append_eq_nil_iff.mp h).1
    · -- the rule is the empty string, and the symbols behind the nonterminal begin instead
      obtain rfl : u = [] := hderives.eq_nil_of_empty
      refine ⟨u', hu, DerivesDirectly.expand hrule hderives (fun _ => rfl) hderives', ?_⟩
      intro t' v' hv' hb
      obtain ⟨rfl, -⟩ := List.cons.inj hv'
      rcases begins_cons_iff.mp hb with ⟨rfl, hmem⟩ | ⟨r, hr, hbegins⟩ | ⟨-, hb⟩
      · exact absurd hmem (notMem_terminals hA)
      · have hsel := (selects_iff hr ht).mpr (Or.inl hbegins)
        rw [hsel.unique hLL1 ht hr hrule hselects] at hbegins
        exact absurd hbegins not_begins_empty
      · exact hnext' t ts hu.symm hb
  | @drain A ss w _ hempty _ ih =>
    obtain ⟨u, hu, hderives, -⟩ := ih hts
    have hrule : (A, [g.emptyString]) ∈ g.rules := emptyString_mem_first_iff.mp hempty
    refine ⟨u, hu, ?_, fun t v hv => absurd hv.symm (List.cons_ne_nil t v)⟩
    exact DerivesDirectly.expand hrule (DerivesDirectly.empty DerivesDirectly.nil)
      (fun _ => rfl) hderives

/-! ## What is derived directly is accepted -/

/-- The symbols stand in a place where the word `w` comes next: whatever can stand directly behind
one of them follows it. -/
def Fits (g : Grammar σ) (ss w : List σ) : Prop :=
  ∀ α X β t, ss = α ++ X :: β →
    g.Begins g.HasEmptyRule β t ∨ (∀ Y ∈ β, g.HasEmptyRule Y) ∧ w.head? = some t →
      g.Follows g.HasEmptyRule X t

omit [DecidableEq σ] in
/-- Symbols behind fitting symbols fit. -/
lemma Fits.tail {X : σ} {ss w : List σ} (h : Fits g (X :: ss) w) : Fits g ss w := by
  rintro α Y β t rfl hnext
  exact h (X :: α) Y β t rfl hnext

omit [DecidableEq σ] in
/-- What comes behind the first of the fitting symbols follows it. -/
lemma Fits.follows {A : σ} {ss u w : List σ} (h : Fits g (A :: ss) w)
    (hss : g.DerivesDirectly ss u) {t : σ} (ht : (u ++ w).head? = some t) :
    g.Follows g.HasEmptyRule A t := by
  refine h [] A ss t rfl ?_
  cases u with
  | nil => exact Or.inr ⟨hss.hasEmptyRule rfl, ht⟩
  | cons s u =>
    obtain rfl : s = t := Option.some.inj ht
    exact Or.inl (hss.begins rfl)

omit [DecidableEq σ] in
/-- A rule fits where its nonterminal does. -/
lemma fits_rule {A : σ} {rule w : List σ} (hrule : (A, rule) ∈ g.rules)
    (hA : ∀ t, w.head? = some t → g.Follows g.HasEmptyRule A t) : Fits g rule w := by
  rintro α X β t rfl (hbegins | ⟨hβ, hnext⟩)
  · exact Follows.right hrule hbegins
  · exact Follows.inherit hrule hβ (hA t hnext)

/-- **The step lemma of sufficiency**: fitting symbols consume every word that they derive
directly. -/
lemma consumes_of_derivesDirectly (hLL1 : g.IsLL1) {ss u w : List σ}
    (h : g.DerivesDirectly ss u) (hss : g.emptyString ∉ ss) (hfits : Fits g ss w) :
    Consumes (build g) ss (u ++ w) w := by
  induction h generalizing w with
  | nil => exact Consumes.nil
  | empty => exact absurd List.mem_cons_self hss
  | terminal ht _ ih =>
    have hrest := List.not_mem_of_not_mem_cons hss
    exact Consumes.take (ne_emptyString_of_terminal ht) (ih hrest hfits.tail)
  | @expand A rule u ss v hrule hderives hempty hrest ihrule ihss =>
    have hA : A ∈ g.nonterminals := g.rule_mem _ hrule
    have hconsumes := ihss (List.not_mem_of_not_mem_cons hss) hfits.tail
    have hfollows : ∀ t, (v ++ w).head? = some t → g.Follows g.HasEmptyRule A t :=
      fun t ht => hfits.follows hrest ht
    rw [List.append_assoc]
    cases u with
    | nil =>
      obtain rfl := hempty rfl
      rw [List.nil_append]
      cases hnext : v ++ w with
      | nil =>
        rw [hnext] at hconsumes
        exact Consumes.drain hA (emptyString_mem_first_iff.mpr hrule) hconsumes
      | cons t ts =>
        have hfollow : g.Follows g.HasEmptyRule A t := hfollows t (by rw [hnext]; rfl)
        have ht : t ∈ g.terminals := hfollow.mem_terminals
        have hselects := (selects_iff hrule ht).mpr (Or.inr ⟨rfl, hfollow⟩)
        rw [hnext] at hconsumes
        exact Consumes.expand (ne_emptyString_of_nonterminal hA)
          (fun heq => notMem_terminals hA (heq ▸ ht)) ht hA
          ((lookupRule_eq_some_iff hLL1 ht).mpr ⟨hrule, hselects⟩) (Consumes.skip Consumes.nil)
          hconsumes
    | cons t u =>
      have hbegins : g.Begins g.HasEmptyRule rule t := hderives.begins rfl
      have ht : t ∈ g.terminals := hbegins.mem_terminals
      have hselects := (selects_iff hrule ht).mpr (Or.inl hbegins)
      have hne : rule ≠ [g.emptyString] := by
        rintro rfl
        exact not_begins_empty hbegins
      exact Consumes.expand (ne_emptyString_of_nonterminal hA)
        (fun heq => notMem_terminals hA (heq ▸ ht)) ht hA
        ((lookupRule_eq_some_iff hLL1 ht).mpr ⟨hrule, hselects⟩)
        (ihrule (emptyString_notMem_rule hrule hne) (fits_rule hrule hfollows)) hconsumes

omit [DecidableEq σ] in
/-- The start symbol fits at the end of the input. -/
lemma fits_start (g : Grammar σ) : Fits g [g.start] [] := by
  rintro α X β t heq (hbegins | ⟨-, hnext⟩)
  · have hlength := congrArg List.length heq
    simp only [List.length_append, List.length_cons, List.length_nil] at hlength
    obtain rfl : β = [] := List.length_eq_zero_iff.mp (by omega)
    exact absurd hbegins not_begins_nil
  · exact absurd hnext (by simp)

/-- **Completeness of the parser, exactly**: for an LL(1) grammar and a token list that is derived
from the start symbol, `parse` returns a tree if and only if the tokens have a derivation in which
every nonterminal that derives the empty string does so by its own rule for it. -/
theorem parse_returns_tree_iff (hLL1 : g.IsLL1) {tokens : List (Token σ τ)} (hne : tokens ≠ [])
    (hderives : g.Derives [g.start] (tokens.map Token.token)) :
    (∃ fuel all, (build g).parse fuel tokens = some (.tree all)) ↔
      g.DerivesDirectly [g.start] (tokens.map Token.token) := by
  rw [parse_tree_iff (build g) hne]
  constructor
  · intro h
    obtain ⟨u, hu, hdirect, -⟩ := h.derivesDirectly hLL1 hderives.mem_terminals
    rw [hu, List.append_nil]
    exact hdirect
  · intro h
    have hstart : g.emptyString ∉ [g.start] := fun hmem =>
      ne_emptyString_of_nonterminal g.start_mem (List.mem_singleton.mp hmem).symm
    have hconsumes := consumes_of_derivesDirectly hLL1 h hstart (fits_start g)
    rw [List.append_nil] at hconsumes
    exact hconsumes

/-! ## A nonterminal that is empty only through another one -/

/-- What stands behind a symbol in a rule of the grammar. -/
lemma chain_right {A X : String} {α β : List String}
    (h : (A, α ++ X :: β) ∈ chainGrammar.rules) : β = [] ∨ β = ["b"] := by
  simp only [chainGrammar, List.mem_cons, Prod.mk.injEq, List.not_mem_nil, or_false] at h
  rcases h with ⟨-, h⟩ | ⟨-, h⟩ | ⟨-, h⟩ | ⟨-, h⟩ <;>
    rcases α with _ | ⟨Y, _ | ⟨Z, α⟩⟩ <;> simp_all

/-- Only `b` follows a symbol. -/
lemma chain_follows {X t : String} (h : chainGrammar.Follows chainGrammar.Nullable X t) :
    t = "b" := by
  induction h with
  | right hrule hbegins =>
    rcases chain_right hrule with rfl | rfl
    · exact absurd hbegins not_begins_nil
    · exact begins_singleton_terminal (by decide) (not_nullable_of_terminal (by decide)) hbegins
  | inherit _ _ _ ih => exact ih

/-- The grammar is LL(1). -/
lemma chain_isLL1 : chainGrammar.IsLL1 := by
  intro A hA
  have hcases : A = "START" ∨ A = "A" ∨ A = "B" := by simpa [chainGrammar] using hA
  rcases hcases with rfl | rfl | rfl
  · exact List.pairwise_singleton _ _
  · exact List.pairwise_singleton _ _
  · refine List.pairwise_cons.mpr ⟨?_, List.pairwise_singleton _ _⟩
    rintro r hr t _ ⟨hfirst, hsecond⟩
    obtain rfl := List.mem_singleton.mp hr
    have hb : t = "b" := by
      rcases hsecond with hbegins | ⟨-, hfollows⟩
      · exact absurd hbegins not_begins_empty
      · exact chain_follows hfollows
    have hc : t = "c" := by
      rcases hfirst with hbegins | ⟨hnull, -⟩
      · exact begins_singleton_terminal (by decide) (not_nullable_of_terminal (by decide)) hbegins
      · exact absurd (hnull "c" (by simp)) (not_nullable_of_terminal (by decide))
    exact absurd (hb.symm.trans hc) (by decide)

/-- Words derived from the start symbol: what `A` derives and then `b`. -/
lemma chain_derives {u : List String} (h : chainGrammar.Derives ["B"] u) :
    chainGrammar.Derives ["START"] (u ++ ["b"]) := by
  have hA : chainGrammar.Derives ["A"] (u ++ []) :=
    Derives.expand (r := ["B"]) (by decide) h Derives.nil
  have hstart : chainGrammar.Derives ["A", "b"] (u ++ ["b"]) :=
    Derives.expand (r := ["B"]) (by decide) h (Derives.terminal (by decide) Derives.nil)
  have hall : chainGrammar.Derives ["START"] ((u ++ ["b"]) ++ []) :=
    Derives.expand (r := ["A", "b"]) (by decide) hstart Derives.nil
  rwa [List.append_nil] at hall

/-- The word of two tokens is parsed if and only if it is derived directly. -/
theorem parse_returns_tree_chain :
    (∃ fuel all, (build chainGrammar).parse fuel [⟨"c", 'x'⟩, ⟨"b", 'y'⟩] = some (.tree all)) ↔
      chainGrammar.DerivesDirectly ["START"] ["c", "b"] :=
  parse_returns_tree_iff chain_isLL1 (by simp) (chain_derives (u := ["c"])
    (Derives.expand (r := ["c"]) (u := ["c"]) (by decide)
      (Derives.terminal (by decide) Derives.nil) Derives.nil))

/-- **A sentence that is not parsed**: in an LL(1) grammar the token `b` is derived from `START`,
with an `A` that derives the empty string through `B`, and `parse` returns `False`. -/
theorem parse_chain_failed :
    chainGrammar.IsLL1 ∧ chainGrammar.Derives ["START"] ["b"] ∧
      (build chainGrammar).parse 5 [⟨"b", 'y'⟩] = some .failed := by
  refine ⟨chain_isLL1, ?_, by decide +kernel⟩
  exact chain_derives (u := []) (Derives.expand (r := ["EMPTY_STRING"]) (u := []) (by decide)
    (Derives.empty Derives.nil) Derives.nil)

end Parser

end NaoSoccer
