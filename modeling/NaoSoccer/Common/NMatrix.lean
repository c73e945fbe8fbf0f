import NaoSoccer.Foundation.TriangularFactor

/-!
# Matrices of the filters

The filters calculate with matrices of four rows.  The numbers of rows and columns of an `NMatrix`
are in its type, so sums and products of matrices that do not fit, which the source sets to zero,
cannot be written.  Arithmetic is exact: the numbers are those of an ordered field, and to divide by
zero or to take the root of a number that has none is an error.

`cholesky` takes the lower triangular root of a matrix row by row.
-/

namespace NaoSoccer

open TriangularFactor

/-- `NMatrix`, of `m` rows and `n` columns -/
structure NMatrix (K : Type) (m n : ℕ) where
  entry : ℕ → ℕ → K

/-- Roots of numbers: the one that is not negative. -/
structure ExactSqrt (K : Type) [Field K] [LinearOrder K] where
  sqrt : K → Option K
  sqrt_eq_some_iff : ∀ a b, sqrt a = some b ↔ 0 ≤ b ∧ b * b = a

/-- Division; nothing is divided by zero. -/
def divide {K : Type} [Field K] [DecidableEq K] (a b : K) : Option K :=
  if b = 0 then none else some (a / b)

namespace NMatrix

section Code

variable {K : Type} [Field K] {l m n : ℕ}

/-- `NMatrix operator +` -/
def add (a b : NMatrix K m n) : NMatrix K m n := ⟨fun i j => a.entry i j + b.entry i j⟩

/-- `NMatrix operator -` -/
def sub (a b : NMatrix K m n) : NMatrix K m n := ⟨fun i j => a.entry i j - b.entry i j⟩

/-- `NMatrix operator *` -/
def mul (a : NMatrix K l m) (b : NMatrix K m n) : NMatrix K l n :=
  ⟨fun i j => (List.range m).foldl (fun temp k => temp + a.entry i k * b.entry k j) 0⟩

/-- `NMatrix operator *` with a number -/
def smul (a : K) (b : NMatrix K m n) : NMatrix K m n := ⟨fun i j => b.entry i j * a⟩

/-- `NMatrix::transp` -/
def transp (a : NMatrix K m n) : NMatrix K n m := ⟨fun i j => a.entry j i⟩

/-- `L[i][j] = a` -/
def setEntry (L : ℕ → ℕ → K) (i j : ℕ) (a : K) : ℕ → ℕ → K :=
  Function.update L i (Function.update (L i) j a)

variable [LinearOrder K] (s : ExactSqrt K)

/-- The inner loop of `cholesky`, which fills the row up to the diagonal. -/
def choleskyEntries (P : ℕ → ℕ → K) (i : ℕ) (j : ℕ) (L : ℕ → ℕ → K) : Option (ℕ → ℕ → K) :=
  (List.range j).foldlM (fun L j => do
    let a := (List.range j).foldl (fun a k => a - L i k * L j k) (P i j)
    return setEntry L i j (← divide a (L j j))) L

/-- A pass of the outer loop of `cholesky`. -/
def choleskyRow (P : ℕ → ℕ → K) (L : ℕ → ℕ → K) (i : ℕ) : Option (ℕ → ℕ → K) := do
  let L ← choleskyEntries P i i L
  let a := (List.range i).foldl (fun a k => a - L i k * L i k) (P i i)
  return setEntry L i i (← s.sqrt a)

/-- `cholesky` -/
def cholesky (P : NMatrix K n n) : Option (NMatrix K n n) := do
  let L ← (List.range n).foldlM (choleskyRow s P.entry) fun _ _ => 0
  return ⟨L⟩

end Code

/-! ## Loops over a row -/

section Rows

variable {K : Type} [Field K] {P L : ℕ → ℕ → K} {i j : ℕ} {row : ℕ → K}

/-- A loop that subtracts. -/
lemma foldl_sub (f : ℕ → K) (a : K) (j : ℕ) :
    (List.range j).foldl (fun a k => a - f k) a = a - ∑ k ∈ Finset.range j, f k := by
  induction j with
  | zero => simp
  | succ j ih =>
    rw [List.range_succ, List.foldl_append, ih, List.foldl_cons, List.foldl_nil,
      Finset.sum_range_succ, sub_sub]

/-- A loop that adds. -/
lemma foldl_add (f : ℕ → K) (j : ℕ) :
    (List.range j).foldl (fun a k => a + f k) 0 = ∑ k ∈ Finset.range j, f k := by
  induction j with
  | zero => simp
  | succ j ih =>
    rw [List.range_succ, List.foldl_append, ih, List.foldl_cons, List.foldl_nil,
      Finset.sum_range_succ]

/-- The product of a matrix with its transpose has the products of the rows. -/
lemma mul_transp_entry {m n : ℕ} (a : NMatrix K m n) (i j : ℕ) :
    (a.mul a.transp).entry i j = gram n a.entry i j := foldl_add _ n

/-- The first entries of a row are right. -/
def RowSolves (P L : ℕ → ℕ → K) (i j : ℕ) (row : ℕ → K) : Prop :=
  ∀ j' < j, L j' j' ≠ 0 ∧ ∑ k ∈ Finset.range (j' + 1), row k * L j' k = P i j'

/-- One more entry of a row. -/
lemma rowSolves_succ : RowSolves P L i (j + 1) row ↔ RowSolves P L i j row ∧
    L j j ≠ 0 ∧ ∑ k ∈ Finset.range (j + 1), row k * L j k = P i j :=
  Nat.forall_lt_succ_right

/-- Sums over the first entries of a row do not see the later ones. -/
lemma sum_update_of_le (row x : ℕ → K) (a : K) (h : i ≤ j) :
    ∑ k ∈ Finset.range i, Function.update row j a k * x k = ∑ k ∈ Finset.range i, row k * x k := by
  refine Finset.sum_congr rfl fun k hk => ?_
  rw [Function.update_of_ne (Nat.ne_of_lt (Nat.lt_of_lt_of_le (Finset.mem_range.mp hk) h))]

/-- Squares of the first entries do not see the later ones. -/
lemma sum_update_mul_self (row : ℕ → K) (a : K) (i : ℕ) :
    ∑ k ∈ Finset.range i, Function.update row i a k * Function.update row i a k =
      ∑ k ∈ Finset.range i, row k * row k := by
  refine Finset.sum_congr rfl fun k hk => ?_
  rw [Function.update_of_ne (Nat.ne_of_lt (Finset.mem_range.mp hk))]

/-- Whether the first entries are right does not depend on the later ones. -/
lemma rowSolves_update (a : K) :
    RowSolves P L i j (Function.update row j a) ↔ RowSolves P L i j row := by
  unfold RowSolves
  refine forall₂_congr fun j' hj' => ?_
  rw [sum_update_of_le row (L j') a hj']

omit [Field K] in
/-- An entry is set in a row that has been filled. -/
lemma setEntry_update (L : ℕ → ℕ → K) (row : ℕ → K) (i j : ℕ) (a : K) :
    setEntry (Function.update L i row) i j a = Function.update L i (Function.update row j a) := by
  unfold setEntry
  rw [Function.update_self, Function.update_idem]

/-- A row is filled up to a place. -/
def UpTo (j : ℕ) (row : ℕ → K) : Prop := ∀ k, j ≤ k → row k = 0

/-- One more entry is filled in. -/
lemma UpTo.update (h : UpTo j row) (a : K) : UpTo (j + 1) (Function.update row j a) := by
  intro k hk
  rw [Function.update_of_ne (Nat.ne_of_gt hk)]
  exact h k (Nat.le_of_succ_le hk)

/-- The last entry is taken out. -/
lemma UpTo.update_zero (h : UpTo (j + 1) row) : UpTo j (Function.update row j 0) := by
  intro k hk
  rcases eq_or_ne k j with rfl | hne
  · rw [Function.update_self]
  · rw [Function.update_of_ne hne]
    exact h k (Nat.lt_of_le_of_ne hk (Ne.symm hne))

end Rows

/-! ## The root of a matrix -/

section Root

variable {K : Type} [Field K] [LinearOrder K] {s : ExactSqrt K} {P L L' : ℕ → ℕ → K} {i j : ℕ}

/-- A quotient of a divisor that is not zero. -/
lemma divide_of_ne {b : K} (a : K) (h : b ≠ 0) : divide a b = some (a / b) := if_neg h

/-- A quotient is there if the divisor is not zero. -/
lemma divide_eq_some_iff {a b c : K} : divide a b = some c ↔ b ≠ 0 ∧ c * b = a := by
  unfold divide
  split
  · next hb => simp [hb]
  · next hb =>
    rw [Option.some_inj, div_eq_iff hb, eq_comm]
    exact (and_iff_right hb).symm

/-- One more pass of the inner loop. -/
lemma choleskyEntries_succ_eq_some_iff :
    choleskyEntries P i (j + 1) L = some L' ↔ ∃ L₁ a, choleskyEntries P i j L = some L₁ ∧
      (L₁ j j ≠ 0 ∧ a * L₁ j j = P i j - ∑ k ∈ Finset.range j, L₁ i k * L₁ j k) ∧
      setEntry L₁ i j a = L' := by
  unfold choleskyEntries
  rw [List.range_succ, List.foldlM_append, Option.bind_eq_bind, Option.bind_eq_some_iff]
  refine exists_congr fun L₁ => ?_
  rw [List.foldlM_cons, foldl_sub]
  simp only [List.foldlM_nil, Option.pure_def, Option.bind_eq_bind, Option.bind_fun_some,
    Option.bind_eq_some_iff, divide_eq_some_iff, Option.some_inj]
  exact ⟨fun ⟨h₁, a, h⟩ => ⟨a, h₁, h⟩, fun ⟨a, h₁, h⟩ => ⟨h₁, a, h⟩⟩

/-- **The inner loop** fills a row that was empty with the entries that are right. -/
lemma choleskyEntries_eq_some_iff (hL : L i = 0) (hj : j ≤ i) :
    choleskyEntries P i j L = some L' ↔
      ∃ row, L' = Function.update L i row ∧ UpTo j row ∧ RowSolves P L i j row := by
  induction j generalizing L' with
  | zero =>
    have hnil : choleskyEntries P i 0 L = some L := rfl
    rw [hnil, Option.some_inj]
    constructor
    · rintro rfl
      refine ⟨0, ?_, fun _ _ => rfl, fun j' hj' => absurd hj' (Nat.not_lt_zero j')⟩
      rw [← hL, Function.update_eq_self]
    · rintro ⟨row, rfl, hzero, -⟩
      rw [show row = L i from hL ▸ funext fun k => hzero k (Nat.zero_le k),
        Function.update_eq_self]
  | succ j ih =>
    have hji : j ≠ i := Nat.ne_of_lt hj
    rw [choleskyEntries_succ_eq_some_iff]
    constructor
    · rintro ⟨L₁, a, hL₁, ⟨hpivot, ha⟩, rfl⟩
      obtain ⟨row, rfl, hzero, hrow⟩ := (ih (Nat.le_of_succ_le hj)).mp hL₁
      rw [Function.update_self, Function.update_of_ne hji] at ha
      rw [Function.update_of_ne hji] at hpivot
      refine ⟨Function.update row j a, setEntry_update L row i j a, hzero.update a,
        rowSolves_succ.mpr ⟨(rowSolves_update a).mpr hrow, hpivot, ?_⟩⟩
      rw [Finset.sum_range_succ, sum_update_of_le row (L j) a (Nat.le_refl j),
        Function.update_self, ha]
      ring
    · rintro ⟨row, rfl, hzero, hrow⟩
      obtain ⟨hrow, hpivot, hsum⟩ := rowSolves_succ.mp hrow
      refine ⟨_, row j, (ih (Nat.le_of_succ_le hj)).mpr ⟨Function.update row j 0, rfl,
        hzero.update_zero, (rowSolves_update 0).mpr hrow⟩, ?_, ?_⟩
      · rw [Function.update_self, Function.update_of_ne hji,
          sum_update_of_le row (L j) 0 (Nat.le_refl j), ← hsum, Finset.sum_range_succ]
        exact ⟨hpivot, by ring⟩
      · rw [setEntry_update, Function.update_idem, Function.update_eq_self]

/-- **A pass** fills the row that was empty, with a number on the diagonal that is not negative. -/
lemma choleskyRow_eq_some_iff (hL : L i = 0) :
    choleskyRow s P L i = some L' ↔
      ∃ row, L' = Function.update L i row ∧ UpTo (i + 1) row ∧ RowSolves P L i i row ∧
        0 ≤ row i ∧ ∑ k ∈ Finset.range (i + 1), row k * row k = P i i := by
  unfold choleskyRow
  simp only [Option.bind_eq_bind, Option.pure_def, Option.bind_eq_some_iff, Option.some_inj,
    s.sqrt_eq_some_iff, choleskyEntries_eq_some_iff hL (Nat.le_refl i), foldl_sub]
  constructor
  · rintro ⟨L₁, ⟨row, rfl, hzero, hrow⟩, a, ⟨hpos, ha⟩, rfl⟩
    rw [Function.update_self] at ha
    refine ⟨Function.update row i a, setEntry_update L row i i a, hzero.update a,
      (rowSolves_update a).mpr hrow, ?_, ?_⟩
    · rw [Function.update_self]
      exact hpos
    · rw [Finset.sum_range_succ, Function.update_self, ha, sum_update_mul_self]
      ring
  · rintro ⟨row, rfl, hzero, hrow, hpos, hsum⟩
    refine ⟨_, ⟨Function.update row i 0, rfl, hzero.update_zero, (rowSolves_update 0).mpr hrow⟩,
      row i, ⟨hpos, ?_⟩, ?_⟩
    · rw [Function.update_self, sum_update_mul_self, ← hsum, Finset.sum_range_succ]
      ring
    · rw [setEntry_update, Function.update_idem, Function.update_eq_self]

/-- The rows of the root that the first passes leave. -/
lemma choleskyRows_eq_some_iff {n : ℕ} :
    (List.range n).foldlM (choleskyRow s P) (fun _ _ => 0) = some L ↔ IsFactor n P L := by
  induction n generalizing L with
  | zero =>
    rw [List.range_zero, List.foldlM_nil, Option.pure_def, Option.some_inj]
    constructor
    · rintro rfl
      exact isFactor_zero P
    · intro h
      funext i j
      exact (h.outside i j (Nat.zero_le i)).symm
  | succ n ih =>
    rw [List.range_succ, List.foldlM_append, Option.bind_eq_bind, Option.bind_eq_some_iff]
    simp only [List.foldlM_cons, List.foldlM_nil, Option.pure_def, Option.bind_eq_bind,
      Option.bind_fun_some, ih]
    constructor
    · rintro ⟨L₁, hL₁, hrow⟩
      have hempty : L₁ n = 0 := funext fun j => hL₁.outside n j (Nat.le_refl n)
      obtain ⟨row, rfl, hzero, hsolves, hpos, hdiag⟩ := (choleskyRow_eq_some_iff hempty).mp hrow
      exact hL₁.update (fun j hj => (hsolves j hj).1) (fun j hj => hzero j hj) hpos
        (fun j hj => (hsolves j hj).2) hdiag
    · intro h
      have hempty : firstRows n L n = 0 := funext fun j => if_neg (Nat.lt_irrefl n)
      refine ⟨firstRows n L, h.firstRows, (choleskyRow_eq_some_iff hempty).mpr ⟨L n, ?_,
        fun j hj => h.lower n j hj, fun j hj => ⟨?_, ?_⟩, h.nonneg n (Nat.lt_succ_self n),
        h.mul n (Nat.lt_succ_self n) n (Nat.le_refl n)⟩⟩
      · funext i
        rcases Nat.lt_trichotomy i n with hlt | rfl | hgt
        · rw [Function.update_of_ne (Nat.ne_of_lt hlt)]
          exact funext fun j => (if_pos hlt).symm
        · rw [Function.update_self]
        · rw [Function.update_of_ne (Nat.ne_of_gt hgt)]
          funext j
          rw [h.outside i j hgt, firstRows, if_neg (Nat.lt_asymm hgt)]
      · rw [firstRows, if_pos hj]
        exact h.pivot j (Nat.succ_lt_succ hj)
      · simp only [firstRows, if_pos hj]
        exact h.mul n (Nat.lt_succ_self n) j (Nat.le_of_lt hj)

/-- **What `cholesky` returns** is the triangular factor. -/
lemma cholesky_eq_some_iff {n : ℕ} {A R : NMatrix K n n} :
    cholesky s A = some R ↔ IsFactor n A.entry R.entry := by
  unfold cholesky
  simp only [Option.bind_eq_bind, Option.pure_def, Option.bind_eq_some_iff, Option.some_inj,
    choleskyRows_eq_some_iff]
  constructor
  · rintro ⟨L, hL, rfl⟩
    exact hL
  · exact fun h => ⟨R.entry, h, rfl⟩

end Root

end NMatrix

end NaoSoccer
