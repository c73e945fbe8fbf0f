import Mathlib.Data.List.Basic

/-!
# Runs of a labelled transition function

A system is given by a function `step : α → σ → σ`: the label `a : α` says who moves and with
which input, and `step a s` is the state after the move.  A run is a list of labels, so a
statement over all lists of labels is a statement over all interleavings of the parties.

`Guarded` says that every move of a run is made in a state that allows it.  The invariant rule
`run_invariant` needs the step lemma for guarded moves only, and `exists_first_unguarded` splits a
run that breaks its guard at the first bad move.

`Happens` says that the move at a place of the run is of a certain kind, and `invariant_between`
is the invariant rule for the part of a run between two places.
-/

namespace LabelledRun

variable {α σ : Type*} (step : α → σ → σ)

/-- The state reached from `s` by the moves of a list, first move first. -/
def run (s : σ) : List α → σ
  | [] => s
  | a :: as => run (step a s) as

/-- Every move of the list is made in a state in which `G` allows it. -/
def Guarded (G : α → σ → Prop) (s : σ) : List α → Prop
  | [] => True
  | a :: as => G a s ∧ Guarded G (step a s) as

/-- Whether a run is guarded can be computed move by move. -/
instance decidableGuarded (G : α → σ → Prop) [∀ a s, Decidable (G a s)] (s : σ) :
    ∀ as, Decidable (Guarded step G s as)
  | [] => inferInstanceAs (Decidable True)
  | a :: as =>
    have := decidableGuarded G (step a s) as
    inferInstanceAs (Decidable (_ ∧ _))

/-- The empty run stays where it is. -/
@[simp] lemma run_nil (s : σ) : run step s [] = s := rfl

/-- A run makes its first move and goes on from there. -/
@[simp] lemma run_cons (s : σ) (a : α) (as : List α) :
    run step s (a :: as) = run step (step a s) as := rfl

/-- Running a concatenation is running its parts one after the other. -/
@[simp] lemma run_append (s : σ) (as bs : List α) :
    run step s (as ++ bs) = run step (run step s as) bs := by
  induction as generalizing s with
  | nil => rfl
  | cons a as ih => exact ih (step a s)

/-- The empty run is guarded. -/
@[simp] lemma guarded_nil (G : α → σ → Prop) (s : σ) : Guarded step G s [] := trivial

/-- A run is guarded if its first move is allowed and the rest is guarded. -/
@[simp] lemma guarded_cons {G : α → σ → Prop} {s : σ} {a : α} {as : List α} :
    Guarded step G s (a :: as) ↔ G a s ∧ Guarded step G (step a s) as := Iff.rfl

/-- A concatenation is guarded exactly when both parts are, each from where it starts. -/
@[simp] lemma guarded_append {G : α → σ → Prop} {s : σ} {as bs : List α} :
    Guarded step G s (as ++ bs) ↔ Guarded step G s as ∧ Guarded step G (run step s as) bs := by
  induction as generalizing s with
  | nil => simp
  | cons a as ih => simp [ih, and_assoc]

variable {step}

/-- The invariant rule: what every allowed move preserves holds after every guarded run. -/
theorem run_invariant {G : α → σ → Prop} {I : σ → Prop}
    (hstep : ∀ a s, G a s → I s → I (step a s)) {s : σ} {as : List α}
    (hs : I s) (hg : Guarded step G s as) : I (run step s as) := by
  induction as generalizing s with
  | nil => exact hs
  | cons a as ih => exact ih (hstep a s hg.1 hs) hg.2

/-- The invariant rule when every move is allowed. -/
theorem run_preserves {I : σ → Prop} (hstep : ∀ a s, I s → I (step a s)) {s : σ} (hs : I s)
    (as : List α) : I (run step s as) := by
  induction as generalizing s with
  | nil => exact hs
  | cons a as ih => exact ih (hstep a s hs)

/-- Moves that are allowed in every state of a guarded run: those that its invariant allows. -/
theorem Guarded.of_invariant {G G' : α → σ → Prop} {I : σ → Prop}
    (hstep : ∀ a s, G a s → I s → I (step a s)) (hallow : ∀ a s, G a s → I s → G' a s) {s : σ}
    {as : List α} (hs : I s) (hg : Guarded step G s as) : Guarded step G' s as := by
  induction as generalizing s with
  | nil => trivial
  | cons a as ih => exact ⟨hallow a s hg.1 hs, ih (hstep a s hg.1 hs) hg.2⟩

/-- The beginning of a guarded run is guarded. -/
lemma Guarded.of_prefix {G : α → σ → Prop} {s : σ} {pre as : List α} (h : Guarded step G s as)
    (hpre : pre <+: as) : Guarded step G s pre := by
  obtain ⟨rest, rfl⟩ := hpre
  exact ((guarded_append step).mp h).1

/-- What is known of every move of a run can be added to its guard. -/
lemma Guarded.and_forall {G : α → σ → Prop} {P : α → Prop} {s : σ} {as : List α}
    (h : Guarded step G s as) (hP : ∀ a ∈ as, P a) :
    Guarded step (fun a s => P a ∧ G a s) s as := by
  induction as generalizing s with
  | nil => trivial
  | cons a as ih =>
    obtain ⟨ha, has⟩ := List.forall_mem_cons.mp hP
    exact ⟨⟨ha, h.1⟩, ih h.2 has⟩

/-- The exact guard of an invariant: if a move keeps the invariant just when `G` allows it, then the
invariant holds all along a run just when the run is guarded. -/
theorem forall_prefix_iff_guarded {G : α → σ → Prop} {I : σ → Prop}
    (hstep : ∀ a s, I s → (I (step a s) ↔ G a s)) {s : σ} {as : List α} (hs : I s) :
    (∀ pre, pre <+: as → I (run step s pre)) ↔ Guarded step G s as := by
  induction as generalizing s with
  | nil =>
    refine ⟨fun _ => trivial, fun _ pre hpre => ?_⟩
    rw [List.prefix_nil.mp hpre]
    exact hs
  | cons a as ih =>
    rw [guarded_cons]
    constructor
    · intro h
      have hnext : I (step a s) := h [a] (List.cons_prefix_cons.mpr ⟨rfl, List.nil_prefix⟩)
      refine ⟨(hstep a s hs).mp hnext, (ih hnext).mp fun pre hpre => ?_⟩
      exact h (a :: pre) (List.cons_prefix_cons.mpr ⟨rfl, hpre⟩)
    · rintro ⟨ha, hrest⟩ pre hpre
      have hnext : I (step a s) := (hstep a s hs).mpr ha
      cases pre with
      | nil => exact hs
      | cons b pre =>
        obtain ⟨rfl, htail⟩ := List.cons_prefix_cons.mp hpre
        exact (ih hnext).mpr hrest pre htail

/-- A run that is not guarded has a first move that is not allowed. -/
theorem exists_first_unguarded {G : α → σ → Prop} {s : σ} {as : List α}
    (h : ¬ Guarded step G s as) :
    ∃ pre a post, as = pre ++ a :: post ∧ Guarded step G s pre ∧ ¬ G a (run step s pre) := by
  induction as generalizing s with
  | nil => exact absurd trivial h
  | cons a as ih =>
    by_cases ha : G a s
    · obtain ⟨pre, b, post, rfl, hpre, hb⟩ := ih fun hrest => h ⟨ha, hrest⟩
      exact ⟨a :: pre, b, post, rfl, ⟨ha, hpre⟩, hb⟩
    · exact ⟨[], a, as, rfl, trivial, ha⟩

/-! ## Places in a run -/

variable (step)

/-- The state before the move at place `i`. -/
def stateAt (s : σ) (as : List α) (i : ℕ) : σ := run step s (as.take i)

/-- There is a move at place `i`, and it is of the kind `E`. -/
def Happens (E : α → σ → Prop) (s : σ) (as : List α) (i : ℕ) : Prop :=
  ∃ a, as[i]? = some a ∧ E a (stateAt step s as i)

/-- Before the first move the state is the initial one. -/
@[simp] lemma stateAt_zero (s : σ) (as : List α) : stateAt step s as 0 = s := rfl

variable {step}

/-- The move at place `i` leads to the next state. -/
lemma stateAt_succ {s : σ} {as : List α} {i : ℕ} {a : α} (h : as[i]? = some a) :
    stateAt step s as (i + 1) = step a (stateAt step s as i) := by
  obtain ⟨hi, rfl⟩ := List.getElem?_eq_some_iff.mp h
  rw [stateAt, List.take_add_one, List.getElem?_eq_getElem hi, Option.toList_some, run_append]
  rfl

/-- Behind the end of the run the state stays. -/
lemma stateAt_succ_of_none {s : σ} {as : List α} {i : ℕ} (h : as[i]? = none) :
    stateAt step s as (i + 1) = stateAt step s as i := by
  rw [stateAt, List.take_add_one, h, Option.toList_none, List.append_nil]
  rfl

/-- No place of a guarded run has a move that is not allowed. -/
lemma Guarded.not_happens {G : α → σ → Prop} {s : σ} {as : List α} (h : Guarded step G s as)
    (i : ℕ) : ¬ Happens step (fun a s => ¬ G a s) s as i := by
  rintro ⟨a, ha, hnot⟩
  obtain ⟨hi, rfl⟩ := List.getElem?_eq_some_iff.mp ha
  rw [← List.take_append_drop i as, List.drop_eq_getElem_cons hi, guarded_append] at h
  exact hnot h.2.1

/-- The invariant rule between two places: what every move but those of the kind `E` preserves
holds at the second place if no such move is made in between. -/
theorem invariant_between {E : α → σ → Prop} {I : σ → Prop}
    (hstep : ∀ a s, ¬ E a s → I s → I (step a s)) {s : σ} {as : List α} {i j : ℕ} (hij : i ≤ j)
    (hi : I (stateAt step s as i)) (hno : ∀ k, i ≤ k → k < j → ¬ Happens step E s as k) :
    I (stateAt step s as j) := by
  induction hij with
  | refl => exact hi
  | @step j hij ih =>
    have hj : I (stateAt step s as j) :=
      ih fun k hik hkj => hno k hik (Nat.lt_succ_of_lt hkj)
    cases hmove : as[j]? with
    | none =>
      rw [stateAt_succ_of_none hmove]
      exact hj
    | some a =>
      rw [stateAt_succ hmove]
      refine hstep a _ (fun hE => ?_) hj
      exact hno j hij (Nat.lt_succ_self j) ⟨a, hmove, hE⟩

end LabelledRun
