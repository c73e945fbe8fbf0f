import Mathlib.Data.List.Nodup

/-!
# Context-free grammars with a symbol for the empty string

A grammar has terminals, nonterminals and rules, each a nonterminal with a list of symbols.  The
empty string is written as a symbol of its own, which is neither terminal nor nonterminal and
stands in a rule only alone.

`Derives` says which words a list of symbols derives.  The sets that a predictive parser is built
from, the terminals with which a list of symbols begins and those that follow a symbol, are
relations here, defined for any notion `N` of the symbols that may be passed over.  With
`N := Nullable` they are the sets of the textbook, and `IsLL1` is stated with these.  With
`N := HasEmptyRule` a nonterminal is passed over only for a rule of its own for the empty string;
the derivations of that kind are `DerivesDirectly`.
-/

/-- A context-free grammar in which the empty string is a symbol. -/
structure Grammar (σ : Type*) where
  /-- The symbol that spells the empty string. -/
  emptyString : σ
  /-- The nonterminal that all derivations start from. -/
  start : σ
  /-- The symbols that words are made of. -/
  terminals : List σ
  /-- The symbols that have rules. -/
  nonterminals : List σ
  /-- Every rule: its nonterminal and its symbols. -/
  rules : List (σ × List σ)
  /-- The empty string is no terminal. -/
  emptyString_notMem_terminals : emptyString ∉ terminals
  /-- The empty string is no nonterminal. -/
  emptyString_notMem_nonterminals : emptyString ∉ nonterminals
  /-- No symbol is both a terminal and a nonterminal. -/
  notMem_nonterminals : ∀ t ∈ terminals, t ∉ nonterminals
  /-- The start symbol is a nonterminal. -/
  start_mem : start ∈ nonterminals
  /-- Rules belong to nonterminals. -/
  rule_mem : ∀ rule ∈ rules, rule.1 ∈ nonterminals
  /-- A rule is the empty string alone or has only terminals and nonterminals. -/
  rule_symbols : ∀ rule ∈ rules,
    rule.2 = [emptyString] ∨ ∀ X ∈ rule.2, X ∈ terminals ∨ X ∈ nonterminals

namespace Grammar

variable {σ : Type*} (g : Grammar σ)

/-! ## Derivations -/

/-- The word `w` of terminals is derived from the list of symbols `ss`. -/
inductive Derives : List σ → List σ → Prop
  /-- No symbol derives the empty word. -/
  | nil : Derives [] []
  /-- The empty string adds nothing. -/
  | empty {ss w} : Derives ss w → Derives (g.emptyString :: ss) w
  /-- A terminal derives itself. -/
  | terminal {t ss w} : t ∈ g.terminals → Derives ss w → Derives (t :: ss) (t :: w)
  /-- A nonterminal derives what one of its rules derives. -/
  | expand {A r u ss w} : (A, r) ∈ g.rules → Derives r u → Derives ss w →
      Derives (A :: ss) (u ++ w)

/-- The word `w` is derived from `ss`, and wherever a nonterminal derives the empty word it does so
by its own rule for the empty string. -/
inductive DerivesDirectly : List σ → List σ → Prop
  /-- No symbol derives the empty word. -/
  | nil : DerivesDirectly [] []
  /-- The empty string adds nothing. -/
  | empty {ss w} : DerivesDirectly ss w → DerivesDirectly (g.emptyString :: ss) w
  /-- A terminal derives itself. -/
  | terminal {t ss w} : t ∈ g.terminals → DerivesDirectly ss w →
      DerivesDirectly (t :: ss) (t :: w)
  /-- A nonterminal derives what one of its rules derives; the empty word only by the rule for the
  empty string. -/
  | expand {A r u ss w} : (A, r) ∈ g.rules → DerivesDirectly r u →
      (u = [] → r = [g.emptyString]) → DerivesDirectly ss w → DerivesDirectly (A :: ss) (u ++ w)

/-- The symbol derives the empty word. -/
inductive Nullable : σ → Prop
  /-- The empty string does. -/
  | empty : Nullable g.emptyString
  /-- A nonterminal does if all symbols of one of its rules do. -/
  | rule {A r} : (A, r) ∈ g.rules → (∀ X ∈ r, Nullable X) → Nullable A

/-- The symbol is the empty string or has it as a rule. -/
def HasEmptyRule (X : σ) : Prop := X = g.emptyString ∨ (X, [g.emptyString]) ∈ g.rules

/-! ## First and follow sets -/

/-- A word derived from `ss` can begin with `t`, where only symbols in `N` are passed over. -/
inductive Begins (N : σ → Prop) : List σ → σ → Prop
  /-- A terminal begins with itself. -/
  | terminal {t ss} : t ∈ g.terminals → Begins N (t :: ss) t
  /-- A nonterminal begins as its rules do. -/
  | expand {A r ss t} : (A, r) ∈ g.rules → Begins N r t → Begins N (A :: ss) t
  /-- The first symbol is passed over. -/
  | skip {X ss t} : N X → Begins N ss t → Begins N (X :: ss) t

/-- The terminal `t` can follow the symbol `X`, where only symbols in `N` are passed over. -/
inductive Follows (N : σ → Prop) : σ → σ → Prop
  /-- What stands behind `X` in a rule begins with `t`. -/
  | right {A α X β t} : (A, α ++ X :: β) ∈ g.rules → Begins g N β t → Follows N X t
  /-- What stands behind `X` in a rule of `A` is passed over, and `t` follows `A`. -/
  | inherit {A α X β t} : (A, α ++ X :: β) ∈ g.rules → (∀ Y ∈ β, N Y) → Follows N A t →
      Follows N X t

/-- The rule `r` of `A` is selectable on the next terminal `t`. -/
def Selectable (A : σ) (r : List σ) (t : σ) : Prop :=
  g.Begins g.Nullable r t ∨ (∀ X ∈ r, g.Nullable X) ∧ g.Follows g.Nullable A t

/-- The rules of a nonterminal, in order. -/
def rulesOf [DecidableEq σ] (A : σ) : List (List σ) :=
  (g.rules.filter fun rule => rule.1 = A).map Prod.snd

/-- No two rules of a nonterminal are selectable on the same terminal. -/
def IsLL1 [DecidableEq σ] : Prop :=
  ∀ A ∈ g.nonterminals, (g.rulesOf A).Pairwise fun r r' =>
    ∀ t ∈ g.terminals, ¬ (g.Selectable A r t ∧ g.Selectable A r' t)

variable {g}

/-! ## Symbols of rules -/

/-- The rules of `A` are those that the grammar lists for it. -/
@[simp] lemma mem_rulesOf [DecidableEq σ] {A : σ} {r : List σ} :
    r ∈ g.rulesOf A ↔ (A, r) ∈ g.rules := by
  simp [rulesOf]

/-- Where the rules are given nonterminal by nonterminal, those of `A` are given with `A`. -/
lemma rulesOf_of_ruleSets [DecidableEq σ] {ruleSets : List (σ × List (List σ))}
    (hrules : g.rules = ruleSets.flatMap fun entry => entry.2.map fun rule => (entry.1, rule))
    (A : σ) :
    g.rulesOf A = (ruleSets.filter fun entry => entry.1 = A).flatMap Prod.snd := by
  rw [rulesOf, hrules]
  clear hrules
  induction ruleSets with
  | nil => rfl
  | cons entry ruleSets ih =>
    rw [List.flatMap_cons, List.filter_append, List.map_append, ih]
    by_cases heq : entry.1 = A <;> simp [heq, List.filter_map, Function.comp_def]

/-- Where the rules are given nonterminal by nonterminal, no rule is given twice if no nonterminal
is and no rule of a nonterminal is. -/
lemma nodup_rules_of_ruleSets {ruleSets : List (σ × List (List σ))}
    (hrules : g.rules = ruleSets.flatMap fun entry => entry.2.map fun rule => (entry.1, rule))
    (hkeys : (ruleSets.map Prod.fst).Nodup) (hentries : ∀ entry ∈ ruleSets, entry.2.Nodup) :
    g.rules.Nodup := by
  rw [hrules, List.nodup_flatMap]
  constructor
  · exact fun entry hentry => (hentries entry hentry).map fun r r' heq => congrArg Prod.snd heq
  · refine (List.pairwise_map.mp hkeys).imp fun {entry entry'} hne => ?_
    intro rule hrule hrule'
    obtain ⟨r, -, rfl⟩ := List.mem_map.mp hrule
    obtain ⟨r', -, heq⟩ := List.mem_map.mp hrule'
    exact hne (congrArg Prod.fst heq).symm

/-- A nonterminal is no terminal. -/
lemma notMem_terminals {A : σ} (h : A ∈ g.nonterminals) : A ∉ g.terminals :=
  fun ht => g.notMem_nonterminals A ht h

/-- A terminal is not the empty string. -/
lemma ne_emptyString_of_terminal {t : σ} (h : t ∈ g.terminals) : t ≠ g.emptyString :=
  fun heq => g.emptyString_notMem_terminals (heq ▸ h)

/-- A nonterminal is not the empty string. -/
lemma ne_emptyString_of_nonterminal {A : σ} (h : A ∈ g.nonterminals) : A ≠ g.emptyString :=
  fun heq => g.emptyString_notMem_nonterminals (heq ▸ h)

/-- A rule that is not the empty string alone does not have it. -/
lemma emptyString_notMem_rule {A : σ} {r : List σ} (h : (A, r) ∈ g.rules)
    (hne : r ≠ [g.emptyString]) : g.emptyString ∉ r := by
  intro hmem
  rcases g.rule_symbols _ h with heq | hsymbols
  · exact hne heq
  · rcases hsymbols _ hmem with ht | hA
    · exact g.emptyString_notMem_terminals ht
    · exact g.emptyString_notMem_nonterminals hA

/-- A symbol of a rule is the empty string, a terminal or a nonterminal. -/
lemma symbol_mem_of_mem_rule {A X : σ} {r : List σ} (h : (A, r) ∈ g.rules) (hX : X ∈ r)
    (hne : X ≠ g.emptyString) : X ∈ g.terminals ∨ X ∈ g.nonterminals := by
  rcases g.rule_symbols _ h with heq | hsymbols
  · exact absurd (List.mem_singleton.mp (heq ▸ hX)) hne
  · exact hsymbols X hX

/-- A symbol derives the empty word if it is the empty string or has a rule of such symbols. -/
lemma nullable_iff {X : σ} :
    g.Nullable X ↔ X = g.emptyString ∨ ∃ r, (X, r) ∈ g.rules ∧ ∀ Y ∈ r, g.Nullable Y := by
  constructor
  · intro h
    cases h with
    | empty => exact Or.inl rfl
    | rule hrule hr => exact Or.inr ⟨_, hrule, hr⟩
  · rintro (rfl | ⟨r, hrule, hr⟩)
    · exact Nullable.empty
    · exact Nullable.rule hrule hr

/-- No terminal derives the empty word. -/
lemma not_nullable_of_terminal {t : σ} (ht : t ∈ g.terminals) : ¬ g.Nullable t := by
  intro h
  rcases nullable_iff.mp h with rfl | ⟨r, hrule, -⟩
  · exact g.emptyString_notMem_terminals ht
  · exact g.notMem_nonterminals t ht (g.rule_mem _ hrule)

/-- Symbols of which every rule has a terminal or another such symbol do not derive the empty
word. -/
lemma not_nullable_of_rules [DecidableEq σ] {solid : List σ} (hempty : g.emptyString ∉ solid)
    (hrules : ∀ A ∈ solid, ∀ rule ∈ g.rulesOf A, ∃ X ∈ rule, X ∈ g.terminals ∨ X ∈ solid) {X : σ}
    (hX : X ∈ solid) : ¬ g.Nullable X := by
  intro h
  induction h with
  | empty => exact hempty hX
  | rule hrule hr ih =>
    obtain ⟨Y, hY, ht | hsolid⟩ := hrules _ hX _ (mem_rulesOf.mpr hrule)
    · exact not_nullable_of_terminal ht (hr Y hY)
    · exact ih Y hY hsolid

/-- A symbol with a rule for the empty string derives the empty word. -/
lemma HasEmptyRule.nullable {X : σ} (h : g.HasEmptyRule X) : g.Nullable X := by
  rcases h with rfl | hrule
  · exact Nullable.empty
  · refine Nullable.rule hrule fun Y hY => ?_
    rw [List.mem_singleton.mp hY]
    exact Nullable.empty

/-! ## Words -/

/-- A derived word has only terminals. -/
lemma Derives.mem_terminals {ss w : List σ} (h : g.Derives ss w) : ∀ t ∈ w, t ∈ g.terminals := by
  induction h with
  | nil => exact fun t ht => absurd ht List.not_mem_nil
  | empty _ ih => exact ih
  | terminal hmem _ ih =>
    intro s hs
    rcases List.mem_cons.mp hs with rfl | hs
    · exact hmem
    · exact ih s hs
  | expand _ _ _ ihr ihss =>
    intro t ht
    rcases List.mem_append.mp ht with ht | ht
    · exact ihr t ht
    · exact ihss t ht

/-- The empty string derives only the empty word. -/
lemma DerivesDirectly.eq_nil_of_empty {w : List σ} (h : g.DerivesDirectly [g.emptyString] w) :
    w = [] := by
  cases h with
  | empty h => cases h; rfl
  | terminal hmem _ => exact absurd hmem g.emptyString_notMem_terminals
  | expand hrule _ _ _ => exact absurd (g.rule_mem _ hrule) g.emptyString_notMem_nonterminals

/-- What derives the empty word directly has only symbols with a rule for the empty string. -/
lemma DerivesDirectly.hasEmptyRule {ss w : List σ} (h : g.DerivesDirectly ss w) (hw : w = []) :
    ∀ X ∈ ss, g.HasEmptyRule X := by
  induction h with
  | nil => exact fun X hX => absurd hX List.not_mem_nil
  | empty _ ih =>
    intro X hX
    rcases List.mem_cons.mp hX with rfl | hX
    · exact Or.inl rfl
    · exact ih hw X hX
  | terminal => exact absurd hw (List.cons_ne_nil _ _)
  | expand hrule _ hempty _ _ ih =>
    obtain ⟨hu, hw⟩ := List.append_eq_nil_iff.mp hw
    intro X hX
    rcases List.mem_cons.mp hX with rfl | hX
    · exact Or.inr (hempty hu ▸ hrule)
    · exact ih hw X hX

/-- A word that is derived directly begins as its symbols do. -/
lemma DerivesDirectly.begins {ss w : List σ} (h : g.DerivesDirectly ss w) {t : σ} {v : List σ}
    (hw : w = t :: v) : g.Begins g.HasEmptyRule ss t := by
  induction h generalizing v with
  | nil => exact absurd hw.symm (List.cons_ne_nil _ _)
  | empty _ ih => exact Begins.skip (Or.inl rfl) (ih hw)
  | terminal hmem _ _ =>
    obtain ⟨rfl, -⟩ := List.cons.inj hw
    exact Begins.terminal hmem
  | @expand A r u ss w hrule _ hempty _ ihr ihss =>
    cases u with
    | nil => exact Begins.skip (Or.inr (hempty rfl ▸ hrule)) (ihss hw)
    | cons s u =>
      obtain ⟨rfl, -⟩ := List.cons.inj hw
      exact Begins.expand hrule (ihr rfl)

/-! ## What may be passed over -/

/-- What begins with `t` does so when more symbols may be passed over. -/
lemma Begins.mono {N N' : σ → Prop} (hN : ∀ X, N X → N' X) {ss : List σ} {t : σ}
    (h : g.Begins N ss t) : g.Begins N' ss t := by
  induction h with
  | terminal hmem => exact Begins.terminal hmem
  | expand hrule _ ih => exact Begins.expand hrule ih
  | skip hX _ ih => exact Begins.skip (hN _ hX) ih

/-- What follows `X` does so when more symbols may be passed over. -/
lemma Follows.mono {N N' : σ → Prop} (hN : ∀ X, N X → N' X) {X t : σ}
    (h : g.Follows N X t) : g.Follows N' X t := by
  induction h with
  | right hrule hbegins => exact Follows.right hrule (hbegins.mono hN)
  | inherit hrule hβ _ ih => exact Follows.inherit hrule (fun Y hY => hN Y (hβ Y hY)) ih

/-- No symbol begins with a terminal. -/
lemma not_begins_nil {N : σ → Prop} {t : σ} : ¬ g.Begins N [] t := by
  intro h
  cases h

/-- A list of symbols begins as its first symbol does, or as the others if that is passed over. -/
lemma begins_cons_iff {N : σ → Prop} {X : σ} {ss : List σ} {t : σ} :
    g.Begins N (X :: ss) t ↔ (X = t ∧ t ∈ g.terminals) ∨
      (∃ r, (X, r) ∈ g.rules ∧ g.Begins N r t) ∨ (N X ∧ g.Begins N ss t) := by
  constructor
  · intro h
    cases h with
    | terminal hmem => exact Or.inl ⟨rfl, hmem⟩
    | expand hrule hr => exact Or.inr (Or.inl ⟨_, hrule, hr⟩)
    | skip hX hss => exact Or.inr (Or.inr ⟨hX, hss⟩)
  · rintro (⟨rfl, hmem⟩ | ⟨r, hrule, hr⟩ | ⟨hX, hss⟩)
    · exact Begins.terminal hmem
    · exact Begins.expand hrule hr
    · exact Begins.skip hX hss

/-- A terminal that is not passed over begins only with itself. -/
lemma begins_singleton_terminal {N : σ → Prop} {t s : σ} (ht : t ∈ g.terminals) (hN : ¬ N t)
    (h : g.Begins N [t] s) : s = t := by
  rcases begins_cons_iff.mp h with ⟨rfl, -⟩ | ⟨r, hrule, -⟩ | ⟨hskip, -⟩
  · rfl
  · exact absurd (g.rule_mem _ hrule) (g.notMem_nonterminals t ht)
  · exact absurd hskip hN

/-- A rule does not begin with `t` if its first symbol is another terminal, or one of a set of
nonterminals all of whose rules begin in this way. -/
lemma not_begins_of_rules [DecidableEq σ] {solid : List σ} {t : σ} (hempty : g.emptyString ∉ solid)
    (ht : t ∉ solid) (hrules : ∀ A ∈ solid, ∀ rule ∈ g.rulesOf A,
      ∃ X ∈ rule.head?, X ∈ g.terminals ∧ X ≠ t ∨ X ∈ solid) {ss : List σ}
    (hss : ∃ X ∈ ss.head?, X ∈ g.terminals ∧ X ≠ t ∨ X ∈ solid) :
    ¬ g.Begins g.HasEmptyRule ss t := by
  intro h
  induction h with
  | terminal _ =>
    obtain ⟨X, hX, ⟨-, hne⟩ | hsolid⟩ := hss
    · exact hne (Option.some.inj hX).symm
    · exact ht (Option.some.inj hX ▸ hsolid)
  | expand hrule _ ih =>
    obtain ⟨X, hX, ⟨hterminal, -⟩ | hsolid⟩ := hss
    · obtain rfl := Option.some.inj hX
      exact g.notMem_nonterminals _ hterminal (g.rule_mem _ hrule)
    · obtain rfl := Option.some.inj hX
      exact ih ht hrules (hrules _ hsolid _ (mem_rulesOf.mpr hrule))
  | skip hskip _ _ =>
    obtain ⟨X, hX, hcase⟩ := hss
    obtain rfl := Option.some.inj hX
    rcases hskip with rfl | hrule
    · exact hcase.elim (fun h => g.emptyString_notMem_terminals h.1) hempty
    · rcases hcase with ⟨hterminal, -⟩ | hsolid
      · exact g.notMem_nonterminals _ hterminal (g.rule_mem _ hrule)
      · obtain ⟨Y, hY, ⟨hterminal, -⟩ | hsolid'⟩ := hrules _ hsolid _ (mem_rulesOf.mpr hrule)
        · obtain rfl := Option.some.inj hY
          exact g.emptyString_notMem_terminals hterminal
        · obtain rfl := Option.some.inj hY
          exact hempty hsolid'

/-- Nothing begins with what is no terminal. -/
lemma Begins.mem_terminals {N : σ → Prop} {ss : List σ} {t : σ} (h : g.Begins N ss t) :
    t ∈ g.terminals := by
  induction h with
  | terminal hmem => exact hmem
  | expand _ _ ih => exact ih
  | skip _ _ ih => exact ih

/-- Nothing follows a symbol but terminals. -/
lemma Follows.mem_terminals {N : σ → Prop} {X t : σ} (h : g.Follows N X t) : t ∈ g.terminals := by
  induction h with
  | right _ hbegins => exact hbegins.mem_terminals
  | inherit _ _ _ ih => exact ih

/-- A symbol that is followed by something is the empty string or a symbol of the grammar. -/
lemma Follows.symbol_mem {N : σ → Prop} {X t : σ} (h : g.Follows N X t) (hX : X ≠ g.emptyString) :
    X ∈ g.terminals ∨ X ∈ g.nonterminals := by
  cases h with
  | right hrule _ => exact symbol_mem_of_mem_rule hrule (by simp) hX
  | inherit hrule _ _ => exact symbol_mem_of_mem_rule hrule (by simp) hX

/-- No word begins in the empty string. -/
lemma not_begins_empty {N : σ → Prop} {t : σ} : ¬ g.Begins N [g.emptyString] t := by
  intro h
  rcases begins_cons_iff.mp h with ⟨rfl, hmem⟩ | ⟨r, hrule, -⟩ | ⟨-, h⟩
  · exact g.emptyString_notMem_terminals hmem
  · exact g.emptyString_notMem_nonterminals (g.rule_mem _ hrule)
  · exact not_begins_nil h

/-- A nonterminal has no rule that begins with `t` if each of them is the empty string, or has such
a first symbol. -/
lemma not_begins_of_heads [DecidableEq σ] {A t : σ} {solid : List σ}
    (hempty : g.emptyString ∉ solid) (ht : t ∉ solid)
    (hrules : ∀ A ∈ solid, ∀ rule ∈ g.rulesOf A,
      ∃ X ∈ rule.head?, X ∈ g.terminals ∧ X ≠ t ∨ X ∈ solid)
    (hheads : ∀ rule ∈ g.rulesOf A, rule = [g.emptyString] ∨
      ∃ X ∈ rule.head?, X ∈ g.terminals ∧ X ≠ t ∨ X ∈ solid) :
    ∀ rule, (A, rule) ∈ g.rules → ¬ g.Begins g.HasEmptyRule rule t := by
  intro rule hrule
  rcases hheads rule (mem_rulesOf.mpr hrule) with rfl | hhead
  · exact not_begins_empty
  · exact not_begins_of_rules hempty ht hrules hhead

/-- A nonterminal has no rule that begins with `t` if each of them is the empty string, or begins
with another terminal. -/
lemma not_begins_of_terminals [DecidableEq σ] {A t : σ} (hheads : ∀ rule ∈ g.rulesOf A,
    rule = [g.emptyString] ∨ ∃ X ∈ rule.head?, X ∈ g.terminals ∧ X ≠ t) :
    ∀ rule, (A, rule) ∈ g.rules → ¬ g.Begins g.HasEmptyRule rule t := by
  refine not_begins_of_heads List.not_mem_nil List.not_mem_nil
    (fun _ hmem => absurd hmem List.not_mem_nil) fun rule hrule => ?_
  exact (hheads rule hrule).imp id fun ⟨X, hX, h⟩ => ⟨X, hX, Or.inl h⟩

end Grammar
