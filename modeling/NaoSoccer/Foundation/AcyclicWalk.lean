import Mathlib.Data.List.Nodup
import Mathlib.Data.List.Perm.Subperm
import Mathlib.Logic.Relation

/-!
# Walks along an acyclic relation

A relation is acyclic if no element can be reached from itself.  A walk along it visits no element
twice, so if only finitely many elements have a successor, then no walk has more steps than there
are such elements.
-/

namespace AcyclicWalk

variable {α : Type*} {R : α → α → Prop}

/-- No element is reached from itself. -/
def Acyclic (R : α → α → Prop) : Prop := ∀ a, ¬ Relation.TransGen R a a

/-- A relation along which a rank goes down is acyclic. -/
theorem acyclic_of_rank (rank : α → ℕ) (h : ∀ a b, R a b → rank b < rank a) : Acyclic R := by
  have hdown : ∀ a b, Relation.TransGen R a b → rank b < rank a := by
    intro a b hab
    induction hab with
    | single hstep => exact h _ _ hstep
    | tail _ hstep ih => exact Nat.lt_trans (h _ _ hstep) ih
  intro a ha
  exact Nat.lt_irrefl _ (hdown a a ha)

/-- An element of a walk is reached from every earlier one. -/
lemma reaches {f : ℕ → α} {n : ℕ} (hf : ∀ i < n, R (f i) (f (i + 1))) {i j : ℕ} (hij : i < j)
    (hj : j ≤ n) : Relation.TransGen R (f i) (f j) := by
  induction hij with
  | refl => exact .single (hf i hj)
  | step hij ih => exact (ih (Nat.le_of_succ_le hj)).tail (hf _ hj)

/-- A walk visits no element twice. -/
theorem eq_of_walk (hR : Acyclic R) {f : ℕ → α} {n : ℕ} (hf : ∀ i < n, R (f i) (f (i + 1)))
    {i j : ℕ} (hi : i ≤ n) (hj : j ≤ n) (h : f i = f j) : i = j := by
  rcases Nat.lt_trichotomy i j with hij | hij | hij
  · have hcycle := reaches hf hij hj
    rw [h] at hcycle
    exact absurd hcycle (hR (f j))
  · exact hij
  · have hcycle := reaches hf hij hi
    rw [h] at hcycle
    exact absurd hcycle (hR (f j))

/-- A walk has no more steps than there are elements with a successor. -/
theorem length_le (hR : Acyclic R) {sources : List α} (hsources : ∀ a b, R a b → a ∈ sources)
    {f : ℕ → α} {n : ℕ} (hf : ∀ i < n, R (f i) (f (i + 1))) : n ≤ sources.length := by
  have hnodup : ((List.range n).map f).Nodup := by
    refine List.Nodup.map_on (fun i hi j hj h => ?_) List.nodup_range
    exact eq_of_walk hR hf (Nat.le_of_lt (List.mem_range.mp hi))
      (Nat.le_of_lt (List.mem_range.mp hj)) h
  have hsubset : (List.range n).map f ⊆ sources := by
    intro a ha
    obtain ⟨i, hi, rfl⟩ := List.mem_map.mp ha
    exact hsources _ _ (hf i (List.mem_range.mp hi))
  have hlength := (List.subperm_of_subset hnodup hsubset).length_le
  rwa [List.length_map, List.length_range] at hlength

end AcyclicWalk
