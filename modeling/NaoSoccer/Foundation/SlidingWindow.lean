import NaoSoccer.Foundation.CyclicStorage
import Mathlib.Data.List.Rotate
import Mathlib.Data.List.Sort

/-!
# The last values of a stream in a ring of cells

A ring of `n` cells is written at one place after the other.  Read from the next place on, it holds
the last `n` values of its old contents and everything that was written, the oldest one first.

So what does not depend on the order is a function of these values: the value of a given rank is one
(`kth_perm`), and `kth_le_iff` says where it lies by counting.
-/

namespace SlidingWindow

open CyclicStorage

variable {α : Type*}

/-! ## Writing into the ring -/

/-- Another value pushes the oldest one out. -/
lemma keepLast_concat {n : ℕ} {l : List α} (hn : 0 < n) (h : n ≤ l.length) (a : α) :
    keepLast n (l ++ [a]) = (keepLast n l).tail ++ [a] := by
  have hlength : (l ++ [a]).length - n = l.length - n + 1 := by
    rw [List.length_append, List.length_singleton]
    omega
  rw [keepLast, hlength, List.drop_append_of_le_length (by omega), keepLast, List.tail_drop]

/-- Exactly `n` values are kept if there are so many. -/
lemma length_keepLast {n : ℕ} {l : List α} (h : n ≤ l.length) : (keepLast n l).length = n := by
  rw [keepLast, List.length_drop]
  omega

/-- What is in front of the values that are kept does not matter. -/
lemma keepLast_append_of_le {n : ℕ} (l : List α) {l' : List α} (h : n ≤ l'.length) :
    keepLast n (l ++ l') = keepLast n l' := by
  have hlength : (l ++ l').length - n = l.length + (l'.length - n) := by
    rw [List.length_append]
    omega
  rw [keepLast, hlength, keepLast, ← List.drop_drop, List.drop_left]

/-- The value at a place is overwritten: seen from the next place on, the oldest value is gone and
the new one is the last. -/
lemma rotate_set {l : List α} {p : ℕ} (hp : p < l.length) (a : α) :
    (l.set p a).rotate ((p + 1) % l.length) = (l.rotate p).tail ++ [a] := by
  have hrotate := List.rotate_mod (l.set p a) (p + 1)
  rw [List.length_set] at hrotate
  have hdrop : l.drop p ≠ [] := by simpa using hp
  rw [hrotate, List.rotate_eq_drop_append_take (by rwa [List.length_set]),
    List.rotate_eq_drop_append_take hp.le, List.tail_append_of_ne_nil hdrop, List.tail_drop,
    List.drop_set_of_lt (Nat.lt_succ_self p), List.take_add_one, List.take_set_of_le le_rfl,
    List.append_assoc]
  simp [hp]

/-! ## Ranks -/

variable [LinearOrder α]

/-- The value of rank `k`, that is the one at the place `k` when the values are sorted. -/
def kth (l : List α) (k : ℕ) : Option α := (l.insertionSort (· ≤ ·))[k]?

/-- The order of the values does not matter. -/
lemma kth_perm {l l' : List α} (h : l.Perm l') (k : ℕ) : kth l k = kth l' k := by
  have hsort : l.insertionSort (· ≤ ·) = l'.insertionSort (· ≤ ·) :=
    List.Perm.eq_of_pairwise (fun _ _ _ _ => le_antisymm) (l.pairwise_insertionSort _)
      (l'.pairwise_insertionSort _)
      ((l.perm_insertionSort _).trans (h.trans (l'.perm_insertionSort _).symm))
  rw [kth, kth, hsort]

/-- In a sorted list the value at a place is at most `b` if more than that many values are. -/
lemma getElem_le_iff {s : List α} (hs : s.Pairwise (· ≤ ·)) {k : ℕ} (hk : k < s.length) (b : α) :
    s[k] ≤ b ↔ k < s.countP (· ≤ b) := by
  induction s generalizing k with
  | nil => exact absurd hk (Nat.not_lt_zero k)
  | cons a s ih =>
    obtain ⟨hle, hs⟩ := List.pairwise_cons.mp hs
    by_cases ha : a ≤ b
    · rw [List.countP_cons_of_pos (by simpa using ha)]
      cases k with
      | zero => simpa using ha
      | succ k =>
        rw [List.getElem_cons_succ, ih hs]
        exact Nat.succ_lt_succ_iff.symm
    · have hnone : ∀ v ∈ a :: s, ¬ v ≤ b := by
        rintro v hv hvb
        rcases List.mem_cons.mp hv with rfl | hv
        · exact ha hvb
        · exact ha ((hle v hv).trans hvb)
      have hcount : (a :: s).countP (· ≤ b) = 0 := by
        rw [List.countP_eq_zero]
        intro v hv
        simpa using hnone v hv
      rw [hcount]
      exact ⟨fun h => absurd h (hnone _ (List.getElem_mem hk)),
        fun h => absurd h (Nat.not_lt_zero k)⟩

/-- Each rank below the number of values has its value. -/
lemma exists_kth {l : List α} {k : ℕ} (hk : k < l.length) : ∃ v, kth l k = some v := by
  have hlength : k < (l.insertionSort (· ≤ ·)).length := by rwa [List.length_insertionSort]
  exact ⟨_, List.getElem?_eq_getElem hlength⟩

/-- The value of rank `k` is at most `b` exactly if more than `k` values are. -/
theorem kth_le_iff {l : List α} {k : ℕ} {v : α} (h : kth l k = some v) (b : α) :
    v ≤ b ↔ k < l.countP (· ≤ b) := by
  obtain ⟨hk, rfl⟩ := List.getElem?_eq_some_iff.mp h
  rw [getElem_le_iff (l.pairwise_insertionSort _) hk, (l.perm_insertionSort _).countP_eq]

/-- The value of rank `k` is above `b` exactly if at most `k` values are not. -/
theorem lt_kth_iff {l : List α} {k : ℕ} {v : α} (h : kth l k = some v) (b : α) :
    b < v ↔ l.countP (· ≤ b) ≤ k := by
  rw [← not_le, kth_le_iff h, not_lt]

end SlidingWindow
