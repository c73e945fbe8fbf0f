import NaoSoccer.Foundation.Grammar

/-!
# Reading a word without looking back

A list of symbols reads a word from left to right and looks one terminal ahead: a nonterminal in
front becomes the first of its rules that begins with the next terminal, and if none does and the
empty string is one of them, it is dropped.  The choice is never taken back, so what is left of the
symbols behind the last terminal is determined, whether or not the word is the beginning of a
sentence.

If no nonterminal comes back to itself without a terminal in between, the nonterminals have a
height over those that can stand in front of what they become, and reading comes to an end.
-/

namespace Grammar

variable {σ : Type*} [DecidableEq σ] (g : Grammar σ)

/-- The rule is the first of its nonterminal that begins with `t`. -/
def FirstRule (A t : σ) (r : List σ) : Prop :=
  ∃ before after, g.rulesOf A = before ++ r :: after ∧ g.Begins g.HasEmptyRule r t ∧
    ∀ r' ∈ before, ¬ g.Begins g.HasEmptyRule r' t

/-- The symbols read a word, and others are left of them. -/
inductive Reads : List σ → List σ → List σ → Prop
  /-- The word is read. -/
  | stop {ss} : Reads ss [] ss
  /-- A terminal reads itself. -/
  | terminal {t ss w left} : t ∈ g.terminals → Reads ss w left → Reads (t :: ss) (t :: w) left
  /-- A nonterminal becomes the first of its rules that begins with the next terminal. -/
  | expand {A t r ss w left} : g.FirstRule A t r → Reads (r ++ ss) (t :: w) left →
      Reads (A :: ss) (t :: w) left
  /-- A nonterminal is dropped. -/
  | erase {A t ss w left} : (A, [g.emptyString]) ∈ g.rules →
      (∀ r, (A, r) ∈ g.rules → ¬ g.Begins g.HasEmptyRule r t) → Reads ss (t :: w) left →
      Reads (A :: ss) (t :: w) left

/-- The symbols read a word, and what is left of them can be dropped. -/
def Accepts (ss w : List σ) : Prop :=
  ∃ left, g.Reads ss w left ∧ ∀ A ∈ left, (A, [g.emptyString]) ∈ g.rules

/-- The word breaks off in front of a terminal: of what the start symbol leaves when it has read the
word, the first symbol that cannot be dropped is a terminal. -/
def BreaksOff (w : List σ) : Prop :=
  ∃ dropped t rest, g.Reads [g.start] w (dropped ++ t :: rest) ∧
    (∀ A ∈ dropped, (A, [g.emptyString]) ∈ g.rules) ∧ t ∈ g.terminals

/-- The symbols that can come to stand in front when those before them are dropped. -/
def leading : List σ → List σ
  | [] => []
  | X :: ss => X :: if (X, [g.emptyString]) ∈ g.rules then leading ss else []

/-- A nonterminal is higher than those that can come to stand in front of its rules. -/
def LeftRanked (rank : σ → ℕ) : Prop :=
  ∀ rule ∈ g.rules, ∀ X ∈ g.leading rule.2, X ∈ g.nonterminals → rank X < rank rule.1

instance (rank : σ → ℕ) : Decidable (g.LeftRanked rank) :=
  inferInstanceAs (Decidable (∀ rule ∈ g.rules, _))

variable {g}

/-- A first rule is a rule. -/
lemma FirstRule.mem {A t : σ} {r : List σ} (h : g.FirstRule A t r) : (A, r) ∈ g.rules := by
  obtain ⟨before, after, hrules, -, -⟩ := h
  rw [← mem_rulesOf, hrules]
  exact List.mem_append_right _ List.mem_cons_self

/-- A first rule begins with its terminal. -/
lemma FirstRule.begins {A t : σ} {r : List σ} (h : g.FirstRule A t r) :
    g.Begins g.HasEmptyRule r t := h.choose_spec.choose_spec.2.1

/-- The empty string is no first rule. -/
lemma FirstRule.emptyString_notMem {A t : σ} {r : List σ} (h : g.FirstRule A t r) :
    g.emptyString ∉ r := by
  refine emptyString_notMem_rule h.mem ?_
  rintro rfl
  exact not_begins_empty h.begins

/-- If some rule begins with the terminal, one of them is the first. -/
lemma exists_firstRule {A t : σ} {r : List σ} (hrule : (A, r) ∈ g.rules)
    (hbegins : g.Begins g.HasEmptyRule r t) : ∃ r', g.FirstRule A t r' := by
  classical
  have hfind : ∃ r', (g.rulesOf A).find? (fun r => decide (g.Begins g.HasEmptyRule r t)) =
      some r' := by
    rw [← Option.isSome_iff_exists, List.find?_isSome]
    exact ⟨r, mem_rulesOf.mpr hrule, decide_eq_true hbegins⟩
  obtain ⟨r', hr'⟩ := hfind
  obtain ⟨hbegins', before, after, hrules, hbefore⟩ := List.find?_eq_some_iff_append.mp hr'
  refine ⟨r', before, after, hrules, of_decide_eq_true hbegins', fun b hb => ?_⟩
  simpa using hbefore b hb

/-- Symbols that read a word begin as the word does. -/
lemma Reads.begins {ss v left : List σ} (h : g.Reads ss v left) {t : σ} {w : List σ}
    (hv : v = t :: w) : g.Begins g.HasEmptyRule ss t := by
  induction h with
  | stop => exact absurd hv.symm (List.cons_ne_nil _ _)
  | terminal hmem _ _ =>
    obtain ⟨rfl, -⟩ := List.cons.inj hv
    exact Begins.terminal hmem
  | expand hfirst _ _ =>
    obtain ⟨rfl, -⟩ := List.cons.inj hv
    exact Begins.expand hfirst.mem hfirst.begins
  | erase hrule _ _ ih => exact Begins.skip (Or.inr hrule) (ih hv)

/-- A nonterminal becomes its first rule if that begins with the next terminal. -/
lemma Reads.expand_head {A t : σ} {r ss w left : List σ} (hhead : (g.rulesOf A).head? = some r)
    (hbegins : g.Begins g.HasEmptyRule r t) (h : g.Reads (r ++ ss) (t :: w) left) :
    g.Reads (A :: ss) (t :: w) left := by
  obtain ⟨after, hrules⟩ := List.head?_eq_some_iff.mp hhead
  exact Reads.expand ⟨[], after, hrules, hbegins, fun r' hr' => absurd hr' List.not_mem_nil⟩ h

/-- A nonterminal is dropped if its other rules begin with other terminals. -/
lemma Reads.erase_heads {A t : σ} {ss w left : List σ} (hrule : (A, [g.emptyString]) ∈ g.rules)
    (hheads : ∀ rule ∈ g.rulesOf A, rule = [g.emptyString] ∨
      ∃ X ∈ rule.head?, X ∈ g.terminals ∧ X ≠ t)
    (h : g.Reads ss (t :: w) left) : g.Reads (A :: ss) (t :: w) left := by
  exact Reads.erase hrule (not_begins_of_terminals hheads) h

namespace Accepts

variable {ss w : List σ}

/-- No symbols accept the empty word. -/
lemma nil : g.Accepts [] [] := ⟨[], Reads.stop, fun _ hA => absurd hA List.not_mem_nil⟩

/-- A terminal accepts itself. -/
lemma terminal {t : σ} (ht : t ∈ g.terminals) (h : g.Accepts ss w) :
    g.Accepts (t :: ss) (t :: w) := by
  obtain ⟨left, hreads, hleft⟩ := h
  exact ⟨left, Reads.terminal ht hreads, hleft⟩

/-- A nonterminal accepts what its first rule does, if that begins with the next terminal. -/
lemma expand_head {A t : σ} {r : List σ} (hhead : (g.rulesOf A).head? = some r)
    (hbegins : g.Begins g.HasEmptyRule r t) (h : g.Accepts (r ++ ss) (t :: w)) :
    g.Accepts (A :: ss) (t :: w) := by
  obtain ⟨left, hreads, hleft⟩ := h
  exact ⟨left, Reads.expand_head hhead hbegins hreads, hleft⟩

/-- A nonterminal is dropped if none of its rules begins with the next terminal. -/
lemma erase {A : σ} (hrule : (A, [g.emptyString]) ∈ g.rules)
    (hnone : ∀ t, w.head? = some t → ∀ r, (A, r) ∈ g.rules → ¬ g.Begins g.HasEmptyRule r t)
    (h : g.Accepts ss w) : g.Accepts (A :: ss) w := by
  obtain ⟨left, hreads, hleft⟩ := h
  cases w with
  | nil =>
    cases hreads
    exact ⟨A :: ss, Reads.stop, List.forall_mem_cons.mpr ⟨hrule, hleft⟩⟩
  | cons t w => exact ⟨left, Reads.erase hrule (hnone t rfl) hreads, hleft⟩

/-- A nonterminal is dropped if its other rules begin with other terminals. -/
lemma erase_heads {A : σ} (hrule : (A, [g.emptyString]) ∈ g.rules)
    (hheads : ∀ t, w.head? = some t → ∀ rule ∈ g.rulesOf A, rule = [g.emptyString] ∨
      ∃ X ∈ rule.head?, X ∈ g.terminals ∧ X ≠ t)
    (h : g.Accepts ss w) : g.Accepts (A :: ss) w :=
  h.erase hrule fun t ht => not_begins_of_terminals (hheads t ht)

end Accepts

end Grammar
