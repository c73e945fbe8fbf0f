import Mathlib.Algebra.BigOperators.Fin
import Mathlib.Algebra.Order.BigOperators.Group.Finset
import Mathlib.Logic.Equiv.Fintype

/-!
# Cheapest assignments

Each row of a cost matrix is assigned a column of its own, and the total cost is to be as small as
possible.  `IsOptimalIn` says that an assignment is the cheapest among those that use only columns
of a set, `IsOptimal` that it is the cheapest of all.

A matrix with more columns than rows is made square by rows of one constant (`pad`).  A cheapest
permutation of the square matrix gives a cheapest assignment of the matrix (`isOptimal_of_pad`),
since every assignment extends to a permutation and the rows of the constant cost the same under
all permutations.
-/

namespace Assignment

variable {R : Type*} [AddCommGroup R] [LinearOrder R] [IsOrderedAddMonoid R]

/-- The total cost of an assignment of columns to rows. -/
def total {ι κ : Type*} [Fintype ι] (c : ι → κ → R) (f : ι → κ) : R := ∑ i, c i (f i)

/-- The assignment uses pairwise distinct columns of a set, and no such assignment costs less. -/
structure IsOptimalIn {ι κ : Type*} [Fintype ι] (S : Set κ) (c : ι → κ → R) (f : ι → κ) : Prop where
  injective : Function.Injective f
  mem : ∀ i, f i ∈ S
  total_le : ∀ g : ι → κ, Function.Injective g → (∀ i, g i ∈ S) → total c f ≤ total c g

/-- The assignment is a cheapest one of all. -/
def IsOptimal {ι κ : Type*} [Fintype ι] (c : ι → κ → R) (f : ι → κ) : Prop :=
  IsOptimalIn Set.univ c f

section Columns

variable {ι κ : Type*} [Fintype ι] {c : ι → κ → R}

omit [IsOrderedAddMonoid R] in
/-- All cheapest assignments cost the same. -/
lemma IsOptimal.total_eq {f g : ι → κ} (hf : IsOptimal c f) (hg : IsOptimal c g) :
    total c f = total c g :=
  le_antisymm (hf.total_le g hg.injective hg.mem) (hg.total_le f hf.injective hf.mem)

omit [IsOrderedAddMonoid R] in
/-- **The rule for a choice of columns**: an assignment that is the cheapest inside a set is the
cheapest of all exactly if some cheapest assignment lies inside the set. -/
theorem IsOptimalIn.isOptimal_iff {S : Set κ} {f : ι → κ} (hf : IsOptimalIn S c f) :
    IsOptimal c f ↔ ∃ g, IsOptimal c g ∧ ∀ i, g i ∈ S := by
  constructor
  · intro h
    exact ⟨f, h, hf.mem⟩
  · rintro ⟨g, hg, hmem⟩
    refine ⟨hf.injective, fun i => Set.mem_univ (f i), fun k hk _ => ?_⟩
    calc total c f ≤ total c g := hf.total_le g hg.injective hmem
      _ ≤ total c k := hg.total_le k hk fun i => Set.mem_univ (k i)

omit [IsOrderedAddMonoid R] in
/-- A cheapest assignment of the matrix of some columns is a cheapest one inside these columns. -/
lemma IsOptimal.comp_columns {μ : Type*} {column : μ → κ} (hcolumn : Function.Injective column)
    {f : ι → μ} (hf : IsOptimal (fun i j => c i (column j)) f) :
    IsOptimalIn (Set.range column) c (column ∘ f) := by
  refine ⟨hcolumn.comp hf.injective, fun i => ⟨f i, rfl⟩, fun g hg hmem => ?_⟩
  choose h hh using hmem
  have hinj : Function.Injective h := by
    intro i j hij
    apply hg
    rw [← hh i, ← hh j, hij]
  have hle := hf.total_le h hinj fun i => Set.mem_univ (h i)
  have hcomp : column ∘ h = g := funext hh
  rw [← hcomp]
  exact hle

end Columns

/-! ## Square matrices -/

variable {n N : ℕ}

/-- The matrix with rows of a constant below. -/
def pad (c : Fin n → Fin N → R) (v : R) (i j : Fin N) : R :=
  if h : (i : ℕ) < n then c ⟨i, h⟩ j else v

omit [LinearOrder R] [IsOrderedAddMonoid R] in
/-- The rows of the constant cost the same under all assignments. -/
lemma total_pad (h : n ≤ N) (c : Fin n → Fin N → R) (v : R) (f : Fin N → Fin N) :
    total (pad c v) f = total c (fun i => f (Fin.castLE h i)) + (N - n) • v := by
  obtain ⟨k, rfl⟩ := Nat.exists_eq_add_of_le h
  rw [total, Fin.sum_univ_add, Nat.add_sub_cancel_left]
  refine congrArg₂ _ (Finset.sum_congr rfl fun i _ => ?_) ?_
  · exact dif_pos i.isLt
  · calc ∑ i, pad c v (Fin.natAdd n i) (f (Fin.natAdd n i)) = ∑ _i : Fin k, v :=
        Finset.sum_congr rfl fun i _ => dif_neg (by simp)
      _ = k • v := by rw [Finset.sum_const, Finset.card_univ, Fintype.card_fin]

/-- An assignment of columns to the first rows extends to a permutation. -/
lemma exists_perm_extending (h : n ≤ N) {g : Fin n → Fin N} (hg : Function.Injective g) :
    ∃ σ : Equiv.Perm (Fin N), ∀ i, σ (Fin.castLE h i) = g i := by
  have hcast := Fin.castLE_injective h
  refine ⟨((Equiv.ofInjective _ hcast).symm.trans (Equiv.ofInjective g hg)).extendSubtype,
    fun i => ?_⟩
  rw [Equiv.extendSubtype_apply_of_mem _ _ ⟨i, rfl⟩]
  simp [Equiv.ofInjective_symm_apply]

/-- **The rule for padding**: a cheapest permutation of the padded matrix is a cheapest assignment
in its first rows. -/
theorem isOptimal_of_pad (h : n ≤ N) {c : Fin n → Fin N → R} {v : R} {f : Fin N → Fin N}
    (hf : IsOptimal (pad c v) f) : IsOptimal c fun i => f (Fin.castLE h i) := by
  refine ⟨hf.injective.comp (Fin.castLE_injective h), fun i => Set.mem_univ _, fun g hg _ => ?_⟩
  obtain ⟨σ, hσ⟩ := exists_perm_extending h hg
  have hle := hf.total_le σ σ.injective fun i => Set.mem_univ (σ i)
  rw [total_pad h, total_pad h] at hle
  have hext : (fun i => σ (Fin.castLE h i)) = g := funext hσ
  rw [hext] at hle
  exact le_of_add_le_add_right hle

end Assignment
