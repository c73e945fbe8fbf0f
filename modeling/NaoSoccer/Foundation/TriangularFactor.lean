import Mathlib.Algebra.BigOperators.Intervals
import Mathlib.Algebra.BigOperators.Ring.Finset
import Mathlib.Algebra.Order.BigOperators.Ring.Finset
import Mathlib.Tactic.Linarith
import Mathlib.Tactic.Ring

/-!
# Triangular factors

The entries of a matrix are a function of two indices, and the size is a number.  A triangular
factor of a symmetric matrix `P` is a lower triangular matrix `L` with `L * Lᵀ = P`, found row by
row: each new row is divided by the diagonal of the rows above it.

For a Gram matrix, whose entries are the products of the rows of a matrix `B`, there is such a
factor exactly if the rows of `B` but the last one are independent.  A sum of Gram matrices is that
of the matrices side by side.
-/

namespace TriangularFactor

open Finset

variable {K : Type*} [Field K] {n m : ℕ} {L B : ℕ → ℕ → K}

/-! ## Triangular systems -/

/-- The matrix has nothing above the diagonal. -/
def Lower (L : ℕ → ℕ → K) : Prop := ∀ i j, i < j → L i j = 0

/-- Above the diagonal there is nothing to sum. -/
lemma Lower.sum_range (hL : Lower L) (x : ℕ → K) {j : ℕ} (hj : j < n) :
    ∑ k ∈ range n, x k * L j k = ∑ k ∈ range (j + 1), x k * L j k := by
  refine (Finset.sum_subset (range_subset_range.mpr hj) fun k _ hk => ?_).symm
  rw [mem_range, not_lt] at hk
  rw [hL j k hk, mul_zero]

/-- **Forward substitution**. -/
lemma exists_forward (hpivot : ∀ j < n, L j j ≠ 0) (c : ℕ → K) :
    ∃ l : ℕ → K, ∀ j < n, ∑ k ∈ range (j + 1), l k * L j k = c j := by
  induction n with
  | zero => exact ⟨c, fun j hj => absurd hj (Nat.not_lt_zero j)⟩
  | succ n ih =>
    obtain ⟨l, hl⟩ := ih fun j hj => hpivot j (Nat.lt_succ_of_lt hj)
    -- the next unknown, from those before it
    refine ⟨Function.update l n ((c n - ∑ k ∈ range n, l k * L n k) / L n n), fun j hj => ?_⟩
    have hsame (i : ℕ) (hi : i ≤ n) : ∑ k ∈ range i, Function.update l n
        ((c n - ∑ k ∈ range n, l k * L n k) / L n n) k * L j k = ∑ k ∈ range i, l k * L j k := by
      refine Finset.sum_congr rfl fun k hk => ?_
      rw [Function.update_of_ne (by rw [mem_range] at hk; omega)]
    rcases Nat.lt_succ_iff_lt_or_eq.mp hj with hlt | rfl
    · rw [hsame (j + 1) hlt]
      exact hl j hlt
    · rw [sum_range_succ, hsame j (Nat.le_refl j), Function.update_self,
        div_mul_cancel₀ _ (hpivot j hj)]
      ring

/-- **Back substitution**. -/
lemma exists_back (hL : Lower L) (hpivot : ∀ j < n, L j j ≠ 0) (c : ℕ → K) :
    ∃ w : ℕ → K, ∀ k < n, ∑ r ∈ range n, w r * L r k = c k := by
  induction n generalizing c with
  | zero => exact ⟨c, fun k hk => absurd hk (Nat.not_lt_zero k)⟩
  | succ n ih =>
    have hn : L n n ≠ 0 := hpivot n (Nat.lt_succ_self n)
    -- the last unknown stands alone in the last equation
    obtain ⟨w, hw⟩ := ih (fun j hj => hpivot j (Nat.lt_succ_of_lt hj))
      fun k => c k - c n / L n n * L n k
    refine ⟨Function.update w n (c n / L n n), fun k hk => ?_⟩
    have hsame : ∑ r ∈ range n, Function.update w n (c n / L n n) r * L r k =
        ∑ r ∈ range n, w r * L r k := by
      refine Finset.sum_congr rfl fun r hr => ?_
      rw [Function.update_of_ne (by rw [mem_range] at hr; omega)]
    rw [sum_range_succ, Function.update_self, hsame]
    rcases Nat.lt_succ_iff_lt_or_eq.mp hk with hlt | rfl
    · rw [hw k hlt]
      ring
    · have hzero : ∑ r ∈ range k, w r * L r k = 0 := by
        refine Finset.sum_eq_zero fun r hr => ?_
        rw [hL r k (mem_range.mp hr), mul_zero]
      rw [hzero, zero_add, div_mul_cancel₀ _ hn]

/-- Back substitution has one solution. -/
lemma eq_zero_of_back (hL : Lower L) (hpivot : ∀ j < n, L j j ≠ 0) {v : ℕ → K}
    (hv : ∀ k < n, ∑ r ∈ range n, v r * L r k = 0) : ∀ r < n, v r = 0 := by
  induction n with
  | zero => exact fun r hr => absurd hr (Nat.not_lt_zero r)
  | succ n ih =>
    have hlast : v n = 0 := by
      have hsum := hv n (Nat.lt_succ_self n)
      rw [sum_range_succ, Finset.sum_eq_zero fun r hr => by
        rw [hL r n (mem_range.mp hr), mul_zero], zero_add] at hsum
      exact (mul_eq_zero.mp hsum).resolve_right (hpivot n (Nat.lt_succ_self n))
    have hrest := ih (fun j hj => hpivot j (Nat.lt_succ_of_lt hj)) fun k hk => by
      have hsum := hv k (Nat.lt_succ_of_lt hk)
      rwa [sum_range_succ, hlast, zero_mul, add_zero] at hsum
    intro r hr
    rcases Nat.lt_succ_iff_lt_or_eq.mp hr with hlt | rfl
    · exact hrest r hlt
    · exact hlast

/-! ## Gram matrices -/

/-- The product of two rows. -/
def gram (m : ℕ) (B : ℕ → ℕ → K) (i j : ℕ) : K := ∑ k ∈ range m, B i k * B j k

/-- Products of rows do not depend on the order. -/
lemma gram_comm (m : ℕ) (B : ℕ → ℕ → K) (i j : ℕ) : gram m B i j = gram m B j i :=
  Finset.sum_congr rfl fun _ _ => mul_comm _ _

/-- A combination of the first rows. -/
def comb (n : ℕ) (v : ℕ → K) (B : ℕ → ℕ → K) (k : ℕ) : K := ∑ r ∈ range n, v r * B r k

/-- The product of a combination with another row. -/
lemma sum_comb_mul (v x : ℕ → K) :
    ∑ k ∈ range m, comb n v B k * x k = ∑ r ∈ range n, v r * ∑ k ∈ range m, B r k * x k := by
  unfold comb
  simp only [Finset.sum_mul, Finset.mul_sum, mul_assoc]
  exact Finset.sum_comm

/-- The square of a combination depends on the products of the rows only. -/
lemma sum_comb_sq (v : ℕ → K) :
    ∑ k ∈ range m, comb n v B k * comb n v B k =
      ∑ r ∈ range n, v r * ∑ s ∈ range n, v s * gram m B s r := by
  rw [sum_comb_mul]
  refine Finset.sum_congr rfl fun r _ => congrArg (v r * ·) ?_
  have hswap : ∑ k ∈ range m, B r k * comb n v B k = ∑ k ∈ range m, comb n v B k * B r k :=
    Finset.sum_congr rfl fun _ _ => mul_comm _ _
  rw [hswap, sum_comb_mul]
  rfl

/-- Two matrices with the same products of rows. -/
lemma sum_comb_sq_congr {l : ℕ} {A : ℕ → ℕ → K} (v : ℕ → K)
    (h : ∀ r < n, ∀ s < n, gram l A r s = gram m B r s) :
    ∑ k ∈ range l, comb n v A k * comb n v A k = ∑ k ∈ range m, comb n v B k * comb n v B k := by
  rw [sum_comb_sq, sum_comb_sq]
  refine Finset.sum_congr rfl fun r hr => congrArg (v r * ·) ?_
  refine Finset.sum_congr rfl fun s hs => ?_
  rw [h s (mem_range.mp hs) r (mem_range.mp hr)]

/-- No combination of the first rows vanishes. -/
def Independent (m n : ℕ) (B : ℕ → ℕ → K) : Prop :=
  ∀ v : ℕ → K, (∀ c < m, comb n v B c = 0) → ∀ r < n, v r = 0

/-- Fewer rows are independent, too. -/
lemma Independent.of_succ (h : Independent m (n + 1) B) : Independent m n B := by
  intro v hv r hr
  have hsame (c : ℕ) : comb (n + 1) (Function.update v n 0) B c = comb n v B c := by
    unfold comb
    rw [sum_range_succ, Function.update_self, zero_mul, add_zero]
    refine Finset.sum_congr rfl fun r hr => ?_
    rw [Function.update_of_ne (by rw [mem_range] at hr; omega)]
  have hzero := h (Function.update v n 0) (fun c hc => (hsame c).trans (hv c hc)) r
    (Nat.lt_succ_of_lt hr)
  rwa [Function.update_of_ne (Nat.ne_of_lt hr)] at hzero

/-! ## Matrices side by side -/

/-- The columns of two matrices, of which the first has `l`. -/
def beside (l : ℕ) (A B : ℕ → ℕ → K) (r c : ℕ) : K := if c < l then A r c else B r (c - l)

/-- A matrix multiplied by a number. -/
def scaled (x : K) (A : ℕ → ℕ → K) (r c : ℕ) : K := x * A r c

section Beside

variable {A : ℕ → ℕ → K} {l : ℕ}

/-- The products of the rows are added. -/
lemma gram_beside (i j : ℕ) : gram (l + m) (beside l A B) i j = gram l A i j + gram m B i j := by
  unfold gram beside
  rw [Finset.sum_range_add]
  refine congrArg₂ (· + ·) ?_ ?_
  · refine Finset.sum_congr rfl fun c hc => ?_
    rw [if_pos (mem_range.mp hc), if_pos (mem_range.mp hc)]
  · refine Finset.sum_congr rfl fun c _ => ?_
    rw [if_neg (by omega), if_neg (by omega), Nat.add_sub_cancel_left]

/-- A combination vanishes if it does on both sides. -/
lemma comb_beside_eq_zero_iff (v : ℕ → K) : (∀ c < l + m, comb n v (beside l A B) c = 0) ↔
    (∀ c < l, comb n v A c = 0) ∧ ∀ c < m, comb n v B c = 0 := by
  have hleft (c : ℕ) (hc : c < l) : comb n v (beside l A B) c = comb n v A c :=
    Finset.sum_congr rfl fun r _ => congrArg (v r * ·) (if_pos hc)
  have hright (c : ℕ) : comb n v (beside l A B) (l + c) = comb n v B c := by
    refine Finset.sum_congr rfl fun r _ => congrArg (v r * ·) ?_
    rw [beside, if_neg (by omega), Nat.add_sub_cancel_left]
  constructor
  · intro h
    exact ⟨fun c hc => hleft c hc ▸ h c (by omega), fun c hc => hright c ▸ h (l + c) (by omega)⟩
  · rintro ⟨hA, hB⟩ c hc
    rcases Nat.lt_or_ge c l with hlt | hge
    · rw [hleft c hlt]
      exact hA c hlt
    · obtain ⟨c, rfl⟩ := Nat.exists_eq_add_of_le hge
      rw [hright]
      exact hB c (by omega)

/-- The products of the rows get the square of the number. -/
lemma gram_scaled (x : K) (i j : ℕ) : gram m (scaled x A) i j = x * x * gram m A i j := by
  unfold gram scaled
  rw [Finset.mul_sum]
  exact Finset.sum_congr rfl fun c _ => by ring

/-- A combination vanishes if the one of the multiplied rows does. -/
lemma comb_scaled_eq_zero_iff {x : K} (hx : x ≠ 0) (v : ℕ → K) (c : ℕ) :
    comb n v (scaled x A) c = 0 ↔ comb n v A c = 0 := by
  have hfactor : comb n v (scaled x A) c = x * comb n v A c := by
    unfold comb scaled
    rw [Finset.mul_sum]
    exact Finset.sum_congr rfl fun r _ => by ring
  rw [hfactor, mul_eq_zero]
  exact or_iff_right hx

end Beside

/-- **What is left of the next row**: the square that the diagonal gets is that of the row less a
combination of the rows above. -/
lemma exists_residual (hL : Lower L) (hpivot : ∀ j < n, L j j ≠ 0)
    (hgram : ∀ r < n, ∀ s < n, gram n L r s = gram m B r s) {l : ℕ → K}
    (hl : ∀ j < n, ∑ k ∈ range n, l k * L j k = gram m B n j) :
    ∃ w : ℕ → K, ∑ c ∈ range m, (B n c - comb n w B c) * (B n c - comb n w B c) =
      gram m B n n - ∑ k ∈ range n, l k * l k := by
  obtain ⟨w, hw⟩ := exists_back hL hpivot l
  have hcomb : ∀ k ∈ range n, comb n w L k = l k := fun k hk => hw k (mem_range.mp hk)
  have hsq : ∑ c ∈ range m, comb n w B c * comb n w B c = ∑ k ∈ range n, l k * l k := by
    rw [← sum_comb_sq_congr w hgram]
    exact Finset.sum_congr rfl fun k hk => by rw [hcomb k hk]
  have hmixed : ∑ c ∈ range m, comb n w B c * B n c = ∑ k ∈ range n, l k * l k := by
    rw [sum_comb_mul]
    calc ∑ r ∈ range n, w r * ∑ k ∈ range m, B r k * B n k
        = ∑ r ∈ range n, w r * ∑ k ∈ range n, L r k * l k := by
          refine Finset.sum_congr rfl fun r hr => congrArg (w r * ·) ?_
          have hrow := hl r (mem_range.mp hr)
          rw [gram_comm] at hrow
          exact hrow.symm.trans (Finset.sum_congr rfl fun _ _ => mul_comm _ _)
      _ = ∑ k ∈ range n, comb n w L k * l k := (sum_comb_mul w l).symm
      _ = ∑ k ∈ range n, l k * l k := Finset.sum_congr rfl fun k hk => by rw [hcomb k hk]
  refine ⟨w, ?_⟩
  have hexpand : ∀ c ∈ range m, (B n c - comb n w B c) * (B n c - comb n w B c) =
      B n c * B n c - 2 * (comb n w B c * B n c) + comb n w B c * comb n w B c :=
    fun c _ => by ring
  rw [Finset.sum_congr rfl hexpand, Finset.sum_add_distrib, Finset.sum_sub_distrib,
    ← Finset.mul_sum, hsq, hmixed, gram]
  ring

/-! ## Factors -/

variable [LinearOrder K] {P : ℕ → ℕ → K}

/-- A lower triangular matrix of `n` rows whose product with its transpose has the entries of `P`,
with no negative number on the diagonal, and no zero but in the last row. -/
structure IsFactor (n : ℕ) (P L : ℕ → ℕ → K) : Prop where
  lower : Lower L
  outside : ∀ i j, n ≤ i → L i j = 0
  mul : ∀ i < n, ∀ j ≤ i, ∑ k ∈ range (j + 1), L i k * L j k = P i j
  nonneg : ∀ i < n, 0 ≤ L i i
  pivot : ∀ i, i + 1 < n → L i i ≠ 0

/-- No row at all. -/
lemma isFactor_zero (P : ℕ → ℕ → K) : IsFactor 0 P fun _ _ => 0 where
  lower _ _ _ := rfl
  outside _ _ _ := rfl
  mul i hi := absurd hi (Nat.not_lt_zero i)
  nonneg i hi := absurd hi (Nat.not_lt_zero i)
  pivot i hi := absurd hi (Nat.not_lt_zero (i + 1))

/-- Only the entries up to the diagonal matter. -/
lemma IsFactor.congr (h : IsFactor n P L) {Q : ℕ → ℕ → K} (heq : ∀ i < n, ∀ j < n, P i j = Q i j) :
    IsFactor n Q L :=
  ⟨h.lower, h.outside, fun i hi j hj => heq i hi j (Nat.lt_of_le_of_lt hj hi) ▸ h.mul i hi j hj,
    h.nonneg, h.pivot⟩

/-- The products of the rows are the entries. -/
lemma IsFactor.gram_eq (h : IsFactor n P L) (hsymm : ∀ i j, P i j = P j i) {i j : ℕ} (hi : i < n)
    (hj : j < n) : gram n L i j = P i j := by
  have hbelow {i j : ℕ} (hi : i < n) (hji : j ≤ i) : gram n L i j = P i j := by
    rw [gram, h.lower.sum_range (L i) (Nat.lt_of_le_of_lt hji hi)]
    exact h.mul i hi j hji
  rcases Nat.le_total j i with hji | hij
  · exact hbelow hi hji
  · rw [gram_comm, hbelow hj hij, hsymm]

/-- The first rows of a matrix. -/
def firstRows (n : ℕ) (L : ℕ → ℕ → K) (i j : ℕ) : K := if i < n then L i j else 0

/-- The first rows of a factor are a factor. -/
lemma IsFactor.firstRows (h : IsFactor (n + 1) P L) : IsFactor n P (firstRows n L) where
  lower i j hij := by
    unfold TriangularFactor.firstRows
    rw [h.lower i j hij, ite_self]
  outside i j hi := if_neg (not_lt.mpr hi)
  mul i hi j hj := by
    unfold TriangularFactor.firstRows
    simp only [if_pos hi, if_pos (Nat.lt_of_le_of_lt hj hi)]
    exact h.mul i (Nat.lt_succ_of_lt hi) j hj
  nonneg i hi := by
    unfold TriangularFactor.firstRows
    rw [if_pos hi]
    exact h.nonneg i (Nat.lt_succ_of_lt hi)
  pivot i hi := by
    unfold TriangularFactor.firstRows
    rw [if_pos (Nat.lt_of_succ_lt hi)]
    exact h.pivot i (Nat.lt_succ_of_lt hi)

/-- **One more row** below a factor without zeros on the diagonal. -/
lemma IsFactor.update (h : IsFactor n P L) (hpivot : ∀ j < n, L j j ≠ 0) {row : ℕ → K}
    (hzero : ∀ j, n < j → row j = 0) (hpos : 0 ≤ row n)
    (hrow : ∀ j < n, ∑ k ∈ range (j + 1), row k * L j k = P n j)
    (hdiag : ∑ k ∈ range (n + 1), row k * row k = P n n) :
    IsFactor (n + 1) P (Function.update L n row) where
  lower i j hij := by
    rcases eq_or_ne i n with rfl | hne
    · rw [Function.update_self, hzero j hij]
    · rw [Function.update_of_ne hne, h.lower i j hij]
  outside i j hi := by
    rw [Function.update_of_ne (Nat.ne_of_gt hi), h.outside i j (Nat.le_of_lt hi)]
  mul i hi j hj := by
    rcases Nat.lt_succ_iff_lt_or_eq.mp hi with hlt | rfl
    · rw [Function.update_of_ne (Nat.ne_of_lt hlt),
        Function.update_of_ne (Nat.ne_of_lt (Nat.lt_of_le_of_lt hj hlt))]
      exact h.mul i hlt j hj
    · rw [Function.update_self]
      rcases Nat.lt_or_eq_of_le hj with hlt | rfl
      · rw [Function.update_of_ne (Nat.ne_of_lt hlt)]
        exact hrow j hlt
      · rw [Function.update_self]
        exact hdiag
  nonneg i hi := by
    rcases Nat.lt_succ_iff_lt_or_eq.mp hi with hlt | rfl
    · rw [Function.update_of_ne (Nat.ne_of_lt hlt)]
      exact h.nonneg i hlt
    · rw [Function.update_self]
      exact hpos
  pivot i hi := by
    have hlt : i < n := Nat.lt_of_succ_lt_succ hi
    rw [Function.update_of_ne (Nat.ne_of_lt hlt)]
    exact hpivot i hlt

section Gram

variable [IsStrictOrderedRing K]

/-- **Independent rows** leave no zero on the diagonal. -/
lemma IsFactor.pivot_ne_zero (h : IsFactor n (gram m B) L) (hB : Independent m n B) :
    ∀ j < n, L j j ≠ 0 := by
  intro j hj
  rcases Nat.lt_or_ge (j + 1) n with hlt | hge
  · exact h.pivot j hlt
  · obtain rfl : n = j + 1 := Nat.le_antisymm hge hj
    intro hzero
    have hgram (r : ℕ) (hr : r < j) (s : ℕ) (hs : s < j) : gram j L r s = gram m B r s := by
      rw [← h.gram_eq (gram_comm m B) (Nat.lt_succ_of_lt hr) (Nat.lt_succ_of_lt hs), gram, gram,
        h.lower.sum_range (L r) hs, h.lower.sum_range (L r) (Nat.lt_succ_of_lt hs)]
    have hrow (s : ℕ) (hs : s < j) : ∑ k ∈ range j, L j k * L s k = gram m B j s := by
      rw [h.lower.sum_range (L j) hs]
      exact h.mul j hj s (Nat.le_of_lt hs)
    obtain ⟨w, hw⟩ := exists_residual h.lower (fun i hi => h.pivot i (Nat.succ_lt_succ hi)) hgram hrow
    have hdiag := h.mul j hj j (Nat.le_refl j)
    rw [sum_range_succ, hzero, mul_zero, add_zero] at hdiag
    rw [hdiag, sub_self, Finset.sum_eq_zero_iff_of_nonneg fun c _ => mul_self_nonneg _] at hw
    -- the row is a combination of those above
    have hone := hB (fun r => if r = j then 1 else - w r) (fun c hc => ?_) j hj
    · rw [if_pos rfl] at hone
      exact one_ne_zero hone
    · have hrest : ∑ r ∈ range j, (if r = j then 1 else - w r) * B r c = - comb j w B c := by
        rw [comb, ← Finset.sum_neg_distrib]
        refine Finset.sum_congr rfl fun r hr => ?_
        rw [if_neg (Nat.ne_of_lt (mem_range.mp hr)), neg_mul]
      rw [comb, sum_range_succ, hrest, if_pos rfl, one_mul, neg_add_eq_sub]
      exact mul_self_eq_zero.mp (hw c (mem_range.mpr hc))

/-- **There is a factor** if all rows but the last are independent, and numbers have roots. -/
theorem exists_isFactor (hroot : ∀ a : K, 0 ≤ a → ∃ b, 0 ≤ b ∧ b * b = a)
    (hB : Independent m (n - 1) B) : ∃ L, IsFactor n (gram m B) L := by
  induction n with
  | zero => exact ⟨_, isFactor_zero _⟩
  | succ n ih =>
    rw [Nat.add_sub_cancel] at hB
    obtain ⟨L, hL⟩ := ih (by
      cases n with
      | zero => exact hB
      | succ n => exact hB.of_succ)
    have hpivot := hL.pivot_ne_zero hB
    obtain ⟨l, hl⟩ := exists_forward hpivot (gram m B n)
    have hrow (j : ℕ) (hj : j < n) : ∑ k ∈ range n, l k * L j k = gram m B n j := by
      rw [hL.lower.sum_range l hj, hl j hj]
    obtain ⟨w, hw⟩ := exists_residual hL.lower hpivot
      (fun r hr s hs => hL.gram_eq (gram_comm m B) hr hs) hrow
    obtain ⟨d, hd, hsq⟩ := hroot (gram m B n n - ∑ k ∈ range n, l k * l k)
      (hw ▸ Finset.sum_nonneg fun c _ => mul_self_nonneg _)
    let row : ℕ → K := fun k => if k < n then l k else if k = n then d else 0
    have hfirst (j : ℕ) (hj : j ≤ n) (x : ℕ → K) :
        ∑ k ∈ range j, row k * x k = ∑ k ∈ range j, l k * x k := by
      refine Finset.sum_congr rfl fun k hk => ?_
      rw [show row k = l k from if_pos (Nat.lt_of_lt_of_le (mem_range.mp hk) hj)]
    have hlast : row n = d := by simp [row]
    refine ⟨_, hL.update hpivot (fun j hj => ?_) (hlast ▸ hd) (fun j hj => ?_) ?_⟩
    · simp only [row, if_neg (Nat.lt_asymm hj), if_neg (Nat.ne_of_gt hj)]
    · rw [hfirst (j + 1) hj]
      exact hl j hj
    · rw [sum_range_succ, hfirst n (Nat.le_refl n), hlast, hsq,
        Finset.sum_congr rfl fun k hk => by rw [show row k = l k from if_pos (mem_range.mp hk)]]
      ring

/-- **The rows are independent** if there is a factor, all but the last one. -/
theorem IsFactor.independent (h : IsFactor n (gram m B) L) : Independent m (n - 1) B := by
  intro v hv
  have hgram (r : ℕ) (hr : r < n - 1) (s : ℕ) (hs : s < n - 1) : gram n L r s = gram m B r s :=
    h.gram_eq (gram_comm m B) (by omega) (by omega)
  have hsum : ∑ k ∈ range n, comb (n - 1) v L k * comb (n - 1) v L k = 0 := by
    rw [sum_comb_sq_congr v hgram]
    refine Finset.sum_eq_zero fun c hc => ?_
    rw [hv c (mem_range.mp hc), mul_zero]
  rw [Finset.sum_eq_zero_iff_of_nonneg fun c _ => mul_self_nonneg _] at hsum
  refine eq_zero_of_back h.lower (fun j hj => h.pivot j (by omega)) fun k hk => ?_
  exact mul_self_eq_zero.mp (hsum k (mem_range.mpr (by omega)))

end Gram

end TriangularFactor
