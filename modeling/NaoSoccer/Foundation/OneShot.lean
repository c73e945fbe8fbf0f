import Mathlib.Data.Set.Lattice
import Mathlib.Logic.Function.Basic

/-!
# Events that happen once

A machine that emits a list of events at every step.  Its state says which events are *spent*.
`Spends P evs Q` is the contract of a step: its events are new, and they are spent afterwards.  Such
steps can be put one after the other (`Spends.append`), side by side (`Spends.gather`) and next to
something that does not change (`Spends.union_right`).

A run of such steps emits no event that was spent before (`spends_trace`).  So two runs that emit
the same events cannot start from states of which one has spent what the other will emit
(`notMem_of_trace_eq`).
-/

namespace OneShot

variable {α β ι σ : Type*}

/-- With the events of `P` spent, the events `evs` are new and lead to `Q`. -/
structure Spends (P : Set α) (evs : List α) (Q : Set α) : Prop where
  /-- What is spent afterwards was spent before or is one of the events. -/
  mem_iff : ∀ e, e ∈ Q ↔ e ∈ P ∨ e ∈ evs
  /-- No event was spent before. -/
  new : ∀ e ∈ evs, e ∉ P

namespace Spends

variable {P Q R : Set α} {evs evs' : List α}

/-- Nothing happens. -/
lemma refl (P : Set α) : Spends P [] P where
  mem_iff e := by simp
  new e he := absurd he (List.not_mem_nil)

/-- One step after the other. -/
lemma append (h : Spends P evs Q) (h' : Spends Q evs' R) : Spends P (evs ++ evs') R where
  mem_iff e := by
    rw [h'.mem_iff, h.mem_iff, List.mem_append, or_assoc]
  new e he := by
    rcases List.mem_append.mp he with he | he
    · exact h.new e he
    · intro hP
      exact h'.new e he ((h.mem_iff e).mpr (Or.inl hP))

/-- What is spent stays spent. -/
lemma subset (h : Spends P evs Q) : P ⊆ Q := fun e he => (h.mem_iff e).mpr (Or.inl he)

/-- The events are spent afterwards. -/
lemma mem_of_mem (h : Spends P evs Q) {e : α} (he : e ∈ evs) : e ∈ Q :=
  (h.mem_iff e).mpr (Or.inr he)

/-- Next to a part that has nothing to do with the events. -/
lemma union_right (h : Spends P evs Q) (hR : ∀ e ∈ evs, e ∉ R) :
    Spends (P ∪ R) evs (Q ∪ R) where
  mem_iff e := by
    rw [Set.mem_union, Set.mem_union, h.mem_iff]
    exact or_right_comm
  new e he := by
    rintro (hP | hR')
    · exact h.new e he hP
    · exact hR e he hR'

/-- Next to a part that has nothing to do with the events, the other way round. -/
lemma union_left (h : Spends P evs Q) (hR : ∀ e ∈ evs, e ∉ R) :
    Spends (R ∪ P) evs (R ∪ Q) := by
  rw [Set.union_comm R P, Set.union_comm R Q]
  exact h.union_right hR

end Spends

/-! ## Events with a place -/

section Places

variable (place : ι → α → β)

/-- The events of a family, each at the place of its member. -/
def gather (P : ι → Set α) : Set β := {b | ∃ i a, a ∈ P i ∧ place i a = b}

variable {place} (hplace : Function.Injective2 place)
include hplace

/-- An event at the place `i` comes from the member `i`. -/
lemma mem_gather_iff {P : ι → Set α} {i : ι} {a : α} : place i a ∈ gather place P ↔ a ∈ P i := by
  constructor
  · rintro ⟨j, b, hb, heq⟩
    obtain ⟨rfl, rfl⟩ := hplace heq
    exact hb
  · intro ha
    exact ⟨i, a, ha, rfl⟩

/-- One member makes a step and the others stay as they are. -/
lemma Spends.gather_single {P Q : ι → Set α} {i : ι} {evs : List α} (h : Spends (P i) evs (Q i))
    (hother : ∀ j, j ≠ i → Q j = P j) :
    Spends (gather place P) (evs.map (place i)) (gather place Q) where
  mem_iff b := by
    constructor
    · rintro ⟨j, a, ha, rfl⟩
      by_cases hj : j = i
      · subst hj
        rcases (h.mem_iff a).mp ha with ha | ha
        · exact Or.inl ⟨j, a, ha, rfl⟩
        · exact Or.inr (List.mem_map_of_mem ha)
      · rw [hother j hj] at ha
        exact Or.inl ⟨j, a, ha, rfl⟩
    · rintro (⟨j, a, ha, rfl⟩ | hb)
      · by_cases hj : j = i
        · subst hj
          exact ⟨j, a, h.subset ha, rfl⟩
        · exact ⟨j, a, (hother j hj).symm ▸ ha, rfl⟩
      · obtain ⟨a, ha, rfl⟩ := List.mem_map.mp hb
        exact ⟨i, a, h.mem_of_mem ha, rfl⟩
  new b hb := by
    obtain ⟨a, ha, rfl⟩ := List.mem_map.mp hb
    rw [mem_gather_iff hplace]
    exact h.new a ha

/-- All members make a step, in the order of a list in which every one of them is. -/
lemma Spends.gather {P Q : ι → Set α} {evs : ι → List α} (h : ∀ i, Spends (P i) (evs i) (Q i))
    {members : List ι} (hmembers : ∀ i, i ∈ members) :
    Spends (gather place P) (members.flatMap fun i => (evs i).map (place i)) (gather place Q) where
  mem_iff b := by
    constructor
    · rintro ⟨i, a, ha, rfl⟩
      rcases ((h i).mem_iff a).mp ha with ha | ha
      · exact Or.inl ⟨i, a, ha, rfl⟩
      · exact Or.inr (List.mem_flatMap.mpr ⟨i, hmembers i, List.mem_map_of_mem ha⟩)
    · rintro (⟨i, a, ha, rfl⟩ | hb)
      · exact ⟨i, a, (h i).subset ha, rfl⟩
      · obtain ⟨i, -, hb⟩ := List.mem_flatMap.mp hb
        obtain ⟨a, ha, rfl⟩ := List.mem_map.mp hb
        exact ⟨i, a, (h i).mem_of_mem ha, rfl⟩
  new b hb := by
    obtain ⟨i, -, hb⟩ := List.mem_flatMap.mp hb
    obtain ⟨a, ha, rfl⟩ := List.mem_map.mp hb
    rw [mem_gather_iff hplace]
    exact (h i).new a ha

end Places

/-! ## Runs -/

section Runs

variable (step : σ → σ × List α)

/-- The state after some steps. -/
def after : ℕ → σ → σ
  | 0, s => s
  | n + 1, s => after n (step s).1

/-- The events of each of some steps, the first step first. -/
def trace : ℕ → σ → List (List α)
  | 0, _ => []
  | n + 1, s => (step s).2 :: trace n (step s).1

variable {step}

/-- Two states with the same first step run alike. -/
lemma trace_eq_of_step_eq {s s' : σ} (h : step s = step s') (n : ℕ) :
    trace step n s = trace step n s' := by
  cases n with
  | zero => rfl
  | succ n => rw [trace, trace, h]

/-- What every step preserves holds after some steps. -/
lemma after_preserves {I : σ → Prop} (hstep : ∀ s, I s → I (step s).1) {s : σ} (hs : I s) (n : ℕ) :
    I (after step n s) := by
  induction n generalizing s with
  | zero => exact hs
  | succ n ih => exact ih (hstep s hs)

variable {spent : σ → Set α} (hspends : ∀ s, Spends (spent s) (step s).2 (spent (step s).1))
include hspends

/-- **The run lemma**: a run spends all its events, and none of them was spent before. -/
theorem spends_trace (n : ℕ) (s : σ) :
    Spends (spent s) (trace step n s).flatten (spent (after step n s)) := by
  induction n generalizing s with
  | zero => exact Spends.refl _
  | succ n ih =>
    rw [trace, List.flatten_cons]
    exact (hspends s).append (ih _)

/-- When a run emits the same events as one from `s`, the events that the run from `s` adds were not
spent at its own beginning. -/
theorem notMem_of_trace_eq {n : ℕ} {s s' : σ} (htrace : trace step n s' = trace step n s) {e : α}
    (he : e ∈ spent (after step n s)) (hnew : e ∉ spent s) : e ∉ spent s' := by
  have hmem : e ∈ (trace step n s).flatten :=
    (((spends_trace hspends n s).mem_iff e).mp he).resolve_left hnew
  rw [← htrace] at hmem
  exact (spends_trace hspends n s').new e hmem

end Runs

end OneShot
