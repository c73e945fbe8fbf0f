import Mathlib.Algebra.BigOperators.Group.List.Basic
import Mathlib.Algebra.GroupWithZero.Nat
import Mathlib.Algebra.Order.BigOperators.Group.List
import Mathlib.Algebra.Order.Group.Nat
import Mathlib.Data.List.Basic

/-!
# Items that are worked on one after the other

Each item of a list needs a positive amount of work.  After `w` units of work in the order of the
list, an item has begun if all the work before it is less than `w`, and it is done if the work up to
its end is not more.  One more unit of work goes to the item in which `w` lies and to no other.
-/

namespace SequentialWork

variable {amounts : List ℕ}

/-- The work before an item. -/
def before (amounts : List ℕ) (i : ℕ) : ℕ := (amounts.take i).sum

/-- The item has begun. -/
def begun (amounts : List ℕ) (w i : ℕ) : Bool := before amounts i < w

/-- The item is done. -/
def done (amounts : List ℕ) (w i : ℕ) : Bool := before amounts (i + 1) ≤ w

/-- The work that has gone to the item. -/
def share (amounts : List ℕ) (w i : ℕ) : ℕ := min (w - before amounts i) (amounts.getD i 0)

/-- The next unit of work goes to this item. -/
def Current (amounts : List ℕ) (w i : ℕ) : Prop :=
  before amounts i ≤ w ∧ w < before amounts (i + 1)

/-- Nothing comes before the first item. -/
@[simp] lemma before_zero : before amounts 0 = 0 := rfl

/-- The work before the next item. -/
lemma before_succ {i : ℕ} (hi : i < amounts.length) :
    before amounts (i + 1) = before amounts i + amounts.getD i 0 := by
  unfold before
  rw [List.sum_take_succ amounts i hi]
  simp [hi]

/-- All the work. -/
@[simp] lemma before_length : before amounts amounts.length = amounts.sum := by
  unfold before
  rw [List.take_length]

/-- Later items have more work before them. -/
lemma before_mono {i j : ℕ} (hij : i ≤ j) : before amounts i ≤ before amounts j := by
  unfold before
  exact (List.Sublist.sum_le_sum (List.take_sublist_take_left hij) fun _ _ => Nat.zero_le _)

/-- No item has more work before its end than there is. -/
lemma before_le_sum (amounts : List ℕ) (i : ℕ) : before amounts i ≤ amounts.sum := by
  rcases Nat.le_total i amounts.length with hi | hi
  · rw [← before_length]
    exact before_mono hi
  · unfold before
    rw [List.take_of_length_le hi]

variable {w i j : ℕ}

/-- The items before the current one and the current one itself have begun or begin now. -/
lemma before_le_of_le (h : Current amounts w i) (hji : j ≤ i) : before amounts j ≤ w :=
  (before_mono hji).trans h.1

/-- The items before the current one are done. -/
lemma Current.done_of_lt (h : Current amounts w i) (hji : j < i) : done amounts w j = true :=
  decide_eq_true (before_le_of_le h hji)

/-- The current item is not done. -/
lemma Current.not_done (h : Current amounts w i) : done amounts w i = false :=
  decide_eq_false (Nat.not_le_of_lt h.2)

/-- The current item is the first that is not done. -/
theorem find?_of_current (h : Current amounts w i) (hi : i < amounts.length) :
    (List.range amounts.length).find? (fun j => !done amounts w j) = some i := by
  rw [List.find?_range_eq_some]
  refine ⟨?_, List.mem_range.mpr hi, fun j hj => ?_⟩
  · rw [h.not_done]
    rfl
  · rw [h.done_of_lt hj]
    rfl

/-- When all the work is done no item is left. -/
theorem find?_of_sum_le (h : amounts.sum ≤ w) :
    (List.range amounts.length).find? (fun j => !done amounts w j) = none := by
  rw [List.find?_range_eq_none]
  intro j _
  have hdone : done amounts w j = true := decide_eq_true ((before_le_sum amounts (j + 1)).trans h)
  rw [hdone]
  rfl

/-- An item that is done has got all its work. -/
lemma share_of_done (hi : i < amounts.length) (h : done amounts w i = true) :
    share amounts w i = amounts.getD i 0 := by
  have hle := of_decide_eq_true h
  rw [before_succ hi] at hle
  unfold share
  omega

/-- One more unit of work goes to the current item. -/
theorem share_succ_self (h : Current amounts w i) (hi : i < amounts.length) :
    share amounts (w + 1) i = share amounts w i + 1 := by
  obtain ⟨hle, hlt⟩ := h
  rw [before_succ hi] at hlt
  unfold share
  omega

/-- The current item is done with the next unit exactly if it has got all its work then. -/
lemma done_succ_self (h : Current amounts w i) (hi : i < amounts.length) :
    done amounts (w + 1) i = decide (share amounts (w + 1) i = amounts.getD i 0) := by
  obtain ⟨hle, hlt⟩ := h
  rw [before_succ hi] at hlt
  unfold done share
  rw [before_succ hi]
  congr 1
  apply propext
  omega

/-- Every item needs some work. -/
lemma pos_getD (hpos : ∀ a ∈ amounts, 0 < a) (hj : j < amounts.length) : 0 < amounts.getD j 0 := by
  rw [List.getD_eq_getElem?_getD, List.getElem?_eq_getElem hj]
  exact hpos _ (List.getElem_mem hj)

/-- There is one current item at most. -/
lemma Current.unique (hi : Current amounts w i) (hj : Current amounts w j) : i = j := by
  rcases Nat.lt_trichotomy i j with hij | hij | hij
  · exact absurd (hj.done_of_lt hij) (Bool.eq_false_iff.mp hi.not_done)
  · exact hij
  · exact absurd (hi.done_of_lt hij) (Bool.eq_false_iff.mp hj.not_done)

/-- One more unit of work changes no item but the current one. -/
theorem succ_of_not_current (hpos : ∀ a ∈ amounts, 0 < a) (hj : j < amounts.length)
    (h : ¬ Current amounts w j) :
    begun amounts (w + 1) j = begun amounts w j ∧ done amounts (w + 1) j = done amounts w j ∧
      share amounts (w + 1) j = share amounts w j := by
  have hnext := before_succ hj
  have hwork := pos_getD hpos hj
  unfold Current at h
  unfold begun done share
  rw [hnext] at h ⊢
  rw [decide_eq_decide, decide_eq_decide]
  omega

/-- No item is current when all the work is done. -/
lemma not_current_of_sum_le (h : amounts.sum ≤ w) : ¬ Current amounts w i := by
  rintro ⟨-, hlt⟩
  have hle := before_le_sum amounts (i + 1)
  omega

/-- The next item is the current one when an item has just been done. -/
lemma current_of_before_eq (hpos : ∀ a ∈ amounts, 0 < a) (hi : i < amounts.length)
    (h : before amounts i = w) : Current amounts w i := by
  have hnext := before_succ hi
  have hwork := pos_getD hpos hi
  exact ⟨Nat.le_of_eq h, by omega⟩

end SequentialWork
