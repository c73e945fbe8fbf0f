import NaoSoccer.Foundation.Assignment
import Mathlib.Algebra.Order.Ring.Rat
import Mathlib.Data.Fintype.Perm
import Mathlib.Data.List.MinMax
import Mathlib.Data.List.Sort

/-!
# The assignment of landmarks by the Hungarian method

`HungarianSolver` assigns a column to each row of a cost matrix.  `kuhn_match` matches a square
matrix, and there are two ways to a square matrix: `augment` fills up the missing rows with the
largest cost, `reshape` first chooses some columns, those that are the cheapest of some row.

`reshape` adds the next cheapest column of every row until it has as many columns as there are rows.
It counts the columns of all rows together, so a row may be left with columns that are the cheapest
of other rows and with none that it can afford.
-/

namespace NaoSoccer

namespace HungarianSolver

open Assignment

/-! ## The solver -/

variable {n m : ℕ}

/-- `HungarianSolver::CostItem` -/
structure CostItem (m : ℕ) where
  col : Fin m
  cost : ℚ
  deriving DecidableEq, Repr

/-- The row of cost items that `HungarianSolver::reshape` sorts. -/
def costRow (costs : Fin n → Fin m → ℚ) (i : Fin n) : List (CostItem m) :=
  (List.finRange m).map fun j => ⟨j, costs i j⟩

/-- `std::sort` by the cost.  The order of items of the same cost is not specified. -/
structure SortsByCost (sort : List (CostItem m) → List (CostItem m)) : Prop where
  perm : ∀ row, (sort row).Perm row
  sorted : ∀ row, (sort row).Pairwise fun lhs rhs => lhs.cost ≤ rhs.cost

/-- `kuhn_match` on a table with as many rows as columns: the column of each row. -/
abbrev KuhnMatch := (N : ℕ) → (Fin N → Fin N → ℚ) → Fin N → Fin N

/-- `kuhn_match` returns a perfect matching of minimum cost. -/
def MatchesCheaply (kuhnMatch : KuhnMatch) : Prop :=
  ∀ (N : ℕ) (table : Fin N → Fin N → ℚ), IsOptimal table (kuhnMatch N table)

/-- `maxValue_` after the loops over a matrix. -/
def maxValue {N : ℕ} (c : Fin n → Fin N → ℚ) : ℚ :=
  (List.finRange n).foldl (fun value i =>
    (List.finRange N).foldl (fun value j => if value < c i j then c i j else value) value) 0

/-- `HungarianSolver::augment` -/
def augment (costs : Fin n → Fin m → ℚ) (i j : Fin m) : ℚ :=
  if h : (i : ℕ) < n then costs ⟨i, h⟩ j else maxValue costs

/-- One attempt of `HungarianSolver::reshape`: the next column of each row is inserted. -/
def insertAttempt (sorted : Fin n → List (CostItem m)) (attempt : ℕ) (cols : Finset (Fin m)) :
    Finset (Fin m) :=
  (List.finRange n).foldl (fun cols i =>
    match (sorted i)[attempt]? with
    | some item => insert item.col cols
    | none => cols) cols

/-- The loop of `HungarianSolver::reshape` over the attempts. -/
def chooseColumns (sorted : Fin n → List (CostItem m)) :
    List ℕ → Finset (Fin m) → Finset (Fin m)
  | [], cols => cols
  | attempt :: attempts, cols =>
    if n ≤ cols.card then cols
    else chooseColumns sorted attempts (insertAttempt sorted attempt cols)

/-- `colMap_`: the columns of the set in increasing order. -/
def colMap (cols : Finset (Fin m)) : List (Fin m) := (List.finRange m).filter (· ∈ cols)

/-- The matrix that `HungarianSolver::reshape` fills up, for the columns it has chosen. -/
def reshape (costs : Fin n → Fin m → ℚ) (columns : List (Fin m)) (i j : Fin columns.length) : ℚ :=
  if h : (i : ℕ) < n then costs ⟨i, h⟩ (columns.get j)
  else maxValue (fun i j => costs i (columns.get j)) + 1

/-- `HungarianSolver::Method` -/
inductive Method
  | reshape
  | augment
  deriving DecidableEq, Repr

/-- What `HungarianSolver::solve` returns, and `count_`. -/
structure Solution (n : ℕ) where
  result : Fin n → ℤ
  count : ℕ

/-- The end of `HungarianSolver::solve`: assignments that cost too much are dropped. -/
def dropExpensive (maxCost : ℚ) (costs : Fin n → Fin m → ℚ) (column : Fin n → Fin m) :
    Solution n where
  result i := if costs i (column i) > maxCost then -1 else (column i : ℕ)
  count := (List.finRange n).countP fun i => !(costs i (column i) > maxCost)

/-- `HungarianSolver::solve`, or nothing if it reads the matching outside its rows. -/
def solve (sort : List (CostItem m) → List (CostItem m)) (kuhnMatch : KuhnMatch) (maxCost : ℚ)
    (costs : Fin n → Fin m → ℚ) : Method → Option (Solution n)
  | .augment =>
    if h : n ≤ m then
      let assignment := kuhnMatch m (augment costs)
      some (dropExpensive maxCost costs fun i => assignment (Fin.castLE h i))
    else none
  | .reshape =>
    let sorted := fun i => sort (costRow costs i)
    let columns := colMap (chooseColumns sorted (List.range n) ∅)
    if h : n ≤ columns.length then
      let assignment := kuhnMatch columns.length (reshape costs columns)
      some (dropExpensive maxCost costs fun i => columns.get (assignment (Fin.castLE h i)))
    else none

/-! ## The chosen columns -/

/-- The columns that are among the `k` cheapest of some row. -/
def cheapest (sorted : Fin n → List (CostItem m)) (k : ℕ) : Finset (Fin m) :=
  Finset.univ.biUnion fun i => (((sorted i).take k).map CostItem.col).toFinset

/-- `k` is the least number for which the `k` cheapest columns of all rows together are as many as
the rows. -/
structure IsDepth (sorted : Fin n → List (CostItem m)) (k : ℕ) : Prop where
  le_card : n ≤ (cheapest sorted k).card
  card_lt : ∀ a < k, (cheapest sorted a).card < n

variable {sorted : Fin n → List (CostItem m)}

/-- A column is among the cheapest ones of some row. -/
lemma mem_cheapest {k : ℕ} {j : Fin m} :
    j ∈ cheapest sorted k ↔ ∃ i, ∃ item ∈ (sorted i).take k, item.col = j := by
  simp only [cheapest, Finset.mem_biUnion, Finset.mem_univ, true_and, List.mem_toFinset,
    List.mem_map]

/-- What the loop over the rows inserts. -/
lemma mem_foldl_insert {attempt : ℕ} {j : Fin m} (rows : List (Fin n)) (cols : Finset (Fin m)) :
    j ∈ rows.foldl (fun cols i =>
        match (sorted i)[attempt]? with
        | some item => insert item.col cols
        | none => cols) cols ↔
      j ∈ cols ∨ ∃ i ∈ rows, ∃ item, (sorted i)[attempt]? = some item ∧ item.col = j := by
  induction rows generalizing cols with
  | nil => simp
  | cons i rows ih =>
    rw [List.foldl_cons, ih]
    cases hitem : (sorted i)[attempt]? with
    | none => simp [hitem]
    | some item =>
      simp only [Finset.mem_insert, List.mem_cons, exists_eq_or_imp, hitem, Option.some.injEq,
        exists_eq_left']
      rw [or_assoc, eq_comm, or_left_comm]

/-- **An attempt of the loop** adds the next cheapest column of every row. -/
lemma insertAttempt_cheapest (sorted : Fin n → List (CostItem m)) (k : ℕ) :
    insertAttempt sorted k (cheapest sorted k) = cheapest sorted (k + 1) := by
  ext j
  rw [insertAttempt, mem_foldl_insert, mem_cheapest, mem_cheapest]
  simp only [List.mem_finRange, true_and, List.take_add_one, List.mem_append,
    Option.mem_toList, or_and_right, exists_or]

/-- **The loop of `reshape`** stops at the least number of attempts that gives enough columns. -/
lemma chooseColumns_cheapest {k : ℕ} (hk : IsDepth sorted k) (d a : ℕ) (hak : a ≤ k)
    (hkd : k ≤ a + d) :
    chooseColumns sorted (List.range' a d) (cheapest sorted a) = cheapest sorted k := by
  induction d generalizing a with
  | zero =>
    have heq : a = k := by omega
    rw [heq]
    rfl
  | succ d ih =>
    rw [List.range'_succ, chooseColumns]
    split
    next henough =>
      have heq : a = k := by
        by_contra hne
        have hless := hk.card_lt a (by omega)
        omega
      rw [heq]
    next hfew =>
      have hne : a ≠ k := fun heq => hfew (heq ▸ hk.le_card)
      rw [insertAttempt_cheapest]
      exact ih (a + 1) (by omega) (by omega)

/-- As many attempts as there are rows give enough columns. -/
lemma le_card_cheapest {sort : List (CostItem m) → List (CostItem m)} (hsort : SortsByCost sort)
    (hnm : n ≤ m) (costs : Fin n → Fin m → ℚ) :
    n ≤ (cheapest (fun i => sort (costRow costs i)) n).card := by
  rcases Nat.eq_zero_or_pos n with rfl | hpos
  · exact Nat.zero_le _
  · -- the first row alone has as many columns among its cheapest
    have hperm := (hsort.perm (costRow costs ⟨0, hpos⟩)).map CostItem.col
    have hcols : (costRow costs ⟨0, hpos⟩).map CostItem.col = List.finRange m := by
      rw [costRow, List.map_map]
      exact List.map_id _
    rw [hcols] at hperm
    have hnodup := (hperm.nodup_iff.mpr (List.nodup_finRange m)).sublist
      (List.take_sublist n ((sort (costRow costs ⟨0, hpos⟩)).map CostItem.col))
    have hlength : (((sort (costRow costs ⟨0, hpos⟩)).map CostItem.col).take n).length = n := by
      rw [List.length_take, hperm.length_eq, List.length_finRange]
      exact Nat.min_eq_left hnm
    calc n = (((sort (costRow costs ⟨0, hpos⟩)).map CostItem.col).take n).toFinset.card := by
          rw [List.toFinset_card_of_nodup hnodup, hlength]
      _ ≤ _ := by
        rw [← List.map_take]
        exact Finset.card_le_card (Finset.subset_biUnion_of_mem
          (fun i => (((sort (costRow costs i)).take n).map CostItem.col).toFinset)
          (Finset.mem_univ _))

/-- There is a least number of cheapest columns that is enough, at most the number of rows. -/
lemma exists_isDepth {sort : List (CostItem m) → List (CostItem m)} (hsort : SortsByCost sort)
    (hnm : n ≤ m) (costs : Fin n → Fin m → ℚ) :
    ∃ k ≤ n, IsDepth (fun i => sort (costRow costs i)) k := by
  have hex : ∃ k, n ≤ (cheapest (fun i => sort (costRow costs i)) k).card :=
    ⟨n, le_card_cheapest hsort hnm costs⟩
  refine ⟨Nat.find hex, Nat.find_min' hex (le_card_cheapest hsort hnm costs),
    Nat.find_spec hex, fun a ha => ?_⟩
  exact Nat.lt_of_not_le (Nat.find_min hex ha)

/-- **The columns that `reshape` chooses.** -/
lemma chooseColumns_eq {k : ℕ} (hkn : k ≤ n) (hk : IsDepth sorted k) :
    chooseColumns sorted (List.range n) ∅ = cheapest sorted k := by
  have hzero : cheapest sorted 0 = ∅ := by
    ext j
    simp [mem_cheapest]
  rw [List.range_eq_range', ← hzero]
  exact chooseColumns_cheapest hk n 0 (Nat.zero_le k) (by omega)

/-- The column map lists the columns of the set. -/
lemma mem_colMap {cols : Finset (Fin m)} {j : Fin m} : j ∈ colMap cols ↔ j ∈ cols := by
  simp [colMap]

/-- No column is listed twice. -/
lemma nodup_colMap (cols : Finset (Fin m)) : (colMap cols).Nodup :=
  (List.nodup_finRange m).filter _

/-- The column map is as long as the set is large. -/
lemma length_colMap (cols : Finset (Fin m)) : (colMap cols).length = cols.card := by
  rw [← List.toFinset_card_of_nodup (nodup_colMap cols)]
  congr 1
  ext j
  rw [List.mem_toFinset, mem_colMap]

/-- The columns that the map takes the columns of the reshaped matrix to. -/
lemma range_colMap (cols : Finset (Fin m)) : Set.range (colMap cols).get = ↑cols := by
  ext j
  rw [Set.mem_range, Finset.mem_coe, ← mem_colMap, List.mem_iff_get]

/-! ## The two methods -/

variable {kuhnMatch : KuhnMatch} {costs : Fin n → Fin m → ℚ}

/-- **What `augment` finds**: a cheapest assignment. -/
lemma isOptimal_augment (hmatch : MatchesCheaply kuhnMatch) (hnm : n ≤ m) :
    IsOptimal costs fun i => kuhnMatch m (augment costs) (Fin.castLE hnm i) :=
  isOptimal_of_pad hnm (hmatch m (pad costs (maxValue costs)))

/-- **What `reshape` finds**: an assignment that is the cheapest with the columns it has chosen. -/
lemma isOptimalIn_reshape (hmatch : MatchesCheaply kuhnMatch) {cols : Finset (Fin m)}
    (hcols : n ≤ (colMap cols).length) :
    IsOptimalIn ↑cols costs fun i => (colMap cols).get
      (kuhnMatch (colMap cols).length (reshape costs (colMap cols)) (Fin.castLE hcols i)) := by
  rw [← range_colMap]
  exact (isOptimal_of_pad hcols (hmatch _ (pad (fun i j => costs i ((colMap cols).get j)) _))
    ).comp_columns (List.nodup_iff_injective_get.mp (nodup_colMap cols))

/-- The solution assigns these columns to the rows. -/
def Assigns (solution : Option (Solution n)) (f : Fin n → Fin m) : Prop :=
  ∃ s, solution = some s ∧ ∀ i, s.result i = (f i : ℕ)

instance (f : Fin n → Fin m) : ∀ solution, Decidable (Assigns solution f)
  | none => isFalse fun ⟨_, hs, _⟩ => nomatch hs
  | some s => decidable_of_iff (∀ i, s.result i = (f i : ℕ))
    ⟨fun h => ⟨s, rfl, h⟩, fun ⟨_, hs, h⟩ => Option.some.inj hs ▸ h⟩

/-- A solution assigns to each row one column at most. -/
lemma Assigns.unique {solution : Option (Solution n)} {f g : Fin n → Fin m}
    (hf : Assigns solution f) (hg : Assigns solution g) : f = g := by
  obtain ⟨s, hs, hf⟩ := hf
  obtain ⟨t, ht, hg⟩ := hg
  obtain rfl : s = t := Option.some.inj (hs.symm.trans ht)
  funext i
  have heq : ((f i : ℕ) : ℤ) = (g i : ℕ) := (hf i).symm.trans (hg i)
  exact Fin.ext (by omega)

/-- With no cost above the maximum, no assignment is dropped. -/
lemma assigns_dropExpensive {maxCost : ℚ} (hmax : ∀ i j, costs i j ≤ maxCost)
    (f : Fin n → Fin m) : Assigns (some (dropExpensive maxCost costs f)) f :=
  ⟨_, rfl, fun i => if_neg (not_lt.mpr (hmax i (f i)))⟩

/-- `solve` with the method `Reshape` is as good as the full problem: it assigns pairwise distinct
columns, no such assignment costs less, and `Augment` finds the same total. -/
def AsGoodAsFull (sort : List (CostItem m) → List (CostItem m)) (kuhnMatch : KuhnMatch)
    (maxCost : ℚ) (costs : Fin n → Fin m → ℚ) : Prop :=
  ∃ f g, Assigns (solve sort kuhnMatch maxCost costs .reshape) f ∧
    Assigns (solve sort kuhnMatch maxCost costs .augment) g ∧
    IsOptimal costs f ∧ total costs f = total costs g

/-- What `solve` returns with the method `Augment`. -/
lemma assigns_solve_augment {sort : List (CostItem m) → List (CostItem m)} {maxCost : ℚ}
    (hnm : n ≤ m) (hmax : ∀ i j, costs i j ≤ maxCost) :
    Assigns (solve sort kuhnMatch maxCost costs .augment)
      fun i => kuhnMatch m (augment costs) (Fin.castLE hnm i) := by
  rw [solve, dif_pos hnm]
  exact assigns_dropExpensive hmax _

/-- What `solve` returns with the method `Reshape`. -/
lemma exists_assigns_solve_reshape {sort : List (CostItem m) → List (CostItem m)} {maxCost : ℚ}
    (hmatch : MatchesCheaply kuhnMatch) (hmax : ∀ i j, costs i j ≤ maxCost) {k : ℕ} (hkn : k ≤ n)
    (hk : IsDepth (fun i => sort (costRow costs i)) k) :
    ∃ f, Assigns (solve sort kuhnMatch maxCost costs .reshape) f ∧
      IsOptimalIn ↑(cheapest (fun i => sort (costRow costs i)) k) costs f := by
  have hcols := chooseColumns_eq hkn hk
  have hlength : n ≤ (colMap (chooseColumns (fun i => sort (costRow costs i)) (List.range n)
      ∅)).length := by
    rw [length_colMap, hcols]
    exact hk.le_card
  rw [← hcols]
  refine ⟨_, ?_, isOptimalIn_reshape hmatch hlength⟩
  simp only [solve, dif_pos hlength]
  exact assigns_dropExpensive hmax _

/-- **When `Reshape` is as good as the full problem**: exactly if some cheapest assignment uses only
columns that are among the `k` cheapest of some row, for the least `k` for which these are as many
as the rows. -/
theorem asGoodAsFull_iff (sort : List (CostItem m) → List (CostItem m)) (kuhnMatch : KuhnMatch)
    (maxCost : ℚ) (costs : Fin n → Fin m → ℚ) (hsort : SortsByCost sort)
    (hmatch : MatchesCheaply kuhnMatch) (hnm : n ≤ m) (hmax : ∀ i j, costs i j ≤ maxCost) :
    AsGoodAsFull sort kuhnMatch maxCost costs ↔
      ∃ k, IsDepth (fun i => sort (costRow costs i)) k ∧
        ∃ g, IsOptimal costs g ∧ ∀ i, g i ∈ cheapest (fun i => sort (costRow costs i)) k := by
  have haugment : Assigns (solve sort kuhnMatch maxCost costs .augment) _ :=
    assigns_solve_augment hnm hmax
  have hfull : IsOptimal costs fun i => kuhnMatch m (augment costs) (Fin.castLE hnm i) :=
    isOptimal_augment hmatch hnm
  obtain ⟨k, hkn, hk⟩ := exists_isDepth hsort hnm costs
  obtain ⟨f, hf, hbest⟩ := exists_assigns_solve_reshape hmatch hmax hkn hk
  constructor
  · rintro ⟨f', -, hf', -, hoptimal, -⟩
    obtain rfl : f = f' := hf.unique hf'
    exact ⟨k, hk, hbest.isOptimal_iff.mp hoptimal⟩
  · rintro ⟨k', hk', g, hg, hmem⟩
    have heq : k' = k := by
      rcases Nat.lt_trichotomy k' k with hlt | heq | hlt
      · exact absurd hk'.le_card (Nat.not_le.mpr (hk.card_lt k' hlt))
      · exact heq
      · exact absurd hk.le_card (Nat.not_le.mpr (hk'.card_lt k hlt))
    rw [heq] at hmem
    have hoptimal := hbest.isOptimal_iff.mpr ⟨g, hg, hmem⟩
    exact ⟨f, _, hf, haugment, hoptimal, hoptimal.total_eq hfull⟩

/-! ## A matrix for which it is not -/

/-- A sort by the cost. -/
def sortItems (row : List (CostItem m)) : List (CostItem m) :=
  row.insertionSort fun lhs rhs => lhs.cost ≤ rhs.cost

/-- `sortItems` sorts by the cost. -/
lemma sortsByCost_sortItems : SortsByCost (sortItems (m := m)) where
  perm row := List.perm_insertionSort _ row
  sorted row := by
    have htotal : Std.Total fun lhs rhs : CostItem m => lhs.cost ≤ rhs.cost :=
      ⟨fun lhs rhs => le_total lhs.cost rhs.cost⟩
    have htrans : IsTrans (CostItem m) fun lhs rhs => lhs.cost ≤ rhs.cost :=
      ⟨fun _ _ _ => le_trans⟩
    exact List.pairwise_insertionSort _ row

/-- A matching of minimum cost, by trying all of them. -/
def tryAll : KuhnMatch := fun N table =>
  match (permsOfList (List.finRange N)).argmin fun σ : Equiv.Perm (Fin N) => total table σ with
  | some σ => σ
  | none => id

/-- `tryAll` returns a perfect matching of minimum cost. -/
lemma matchesCheaply_tryAll : MatchesCheaply tryAll := by
  intro N table
  have hall (σ : Equiv.Perm (Fin N)) : σ ∈ permsOfList (List.finRange N) :=
    mem_permsOfList_of_mem fun i _ => List.mem_finRange i
  rw [tryAll]
  split
  next σ hσ =>
    refine ⟨σ.injective, fun i => Set.mem_univ _, fun g hg _ => ?_⟩
    have hle : total table σ ≤ total table (Equiv.ofBijective g hg.bijective_of_finite) :=
      List.le_of_mem_argmin (f := fun τ : Equiv.Perm (Fin N) => total table τ) (hall _) hσ
    exact hle
  next hnone =>
    have hempty := List.argmin_eq_none.mp hnone
    exact absurd (hall 1) (hempty ▸ List.not_mem_nil)

/-- Two rows compete for the first two columns, of which the third row needs the second one; each of
them has another column that is almost as cheap, the third row has none. -/
def contested : Fin 3 → Fin 5 → ℚ :=
  ![![0, 1, 1000, 2, 1000], ![0, 1, 1000, 1000, 2], ![1000, 0, 100, 1000, 1000]]

/-- `Reshape` keeps the first three columns and pays 101; the columns 0, 4 and 1 cost 2. -/
theorem not_asGoodAsFull_contested :
    (SortsByCost (sortItems (m := 5)) ∧ MatchesCheaply tryAll ∧ ∀ i j, contested i j ≤ 1000) ∧
      ¬ AsGoodAsFull sortItems tryAll 1000 contested := by
  refine ⟨⟨sortsByCost_sortItems, matchesCheaply_tryAll, by decide +kernel⟩, ?_⟩
  rintro ⟨f, g, hf, -, hoptimal, -⟩
  have hfound : Assigns (solve sortItems tryAll 1000 contested .reshape)
      (![0, 1, 2] : Fin 3 → Fin 5) := by decide +kernel
  rw [hf.unique hfound] at hoptimal
  have hle : total contested ![0, 1, 2] ≤ total contested ![0, 4, 1] :=
    hoptimal.total_le ![0, 4, 1] (by decide) fun i => Set.mem_univ _
  exact absurd hle (by decide +kernel)

/-- Two rows that compete for one column, each of which has another column of its own. -/
def sharedColumn : Fin 2 → Fin 3 → ℚ := ![![1, 2, 9], ![1, 9, 3]]

/-- For this matrix two attempts choose all columns, and `Reshape` is as good as the full
problem. -/
theorem asGoodAsFull_sharedColumn : AsGoodAsFull sortItems tryAll 10 sharedColumn := by
  have hbest : ∀ g : Fin 2 → Fin 3, Function.Injective g →
      total sharedColumn ![1, 0] ≤ total sharedColumn g := by decide +kernel
  refine (asGoodAsFull_iff sortItems tryAll 10 sharedColumn sortsByCost_sortItems matchesCheaply_tryAll
    (by decide) (by decide +kernel)).mpr ⟨2, ⟨by decide +kernel, by decide +kernel⟩, ![1, 0], ?_,
      by decide +kernel⟩
  exact ⟨by decide, fun i => Set.mem_univ _, fun g hg _ => hbest g hg⟩

end HungarianSolver

end NaoSoccer
