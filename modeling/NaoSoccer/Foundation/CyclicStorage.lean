import Mathlib.Data.List.Basic
import Mathlib.Data.Nat.ModEq

/-!
# Queues in cyclic storage

A queue of bounded length, of which only the newest entries are kept, and its storage in `n` places
that are used in a circle: the entry `i` stands `i` places behind the first one.

`keepLast` and `List.tail` are what appending and removing do to the entries, and `Holds.append`,
`Holds.tail` what they do to the storage.
-/

namespace CyclicStorage

variable {α : Type*}

/-! ## Queues of bounded length -/

/-- The last `n` entries. -/
def keepLast (n : ℕ) (l : List α) : List α := l.drop (l.length - n)

/-- No more than `n` entries are kept. -/
lemma length_keepLast_le (n : ℕ) (l : List α) : (keepLast n l).length ≤ n := by
  rw [keepLast, List.length_drop]
  omega

/-- A short queue is kept. -/
lemma keepLast_of_length_le {n : ℕ} {l : List α} (h : l.length ≤ n) : keepLast n l = l := by
  rw [keepLast, Nat.sub_eq_zero_of_le h, List.drop_zero]

/-- A queue that is full loses its oldest entry to the next one. -/
lemma keepLast_concat_of_length_eq {n : ℕ} {l : List α} (hn : 0 < n) (h : l.length = n) (a : α) :
    keepLast n (l ++ [a]) = l.tail ++ [a] := by
  have hdrop : (l ++ [a]).length - n = 1 := by
    rw [List.length_append, List.length_singleton]
    omega
  have hne : l ≠ [] := by
    rintro rfl
    exact absurd h (Nat.ne_of_lt hn)
  rw [keepLast, hdrop, List.drop_one, List.tail_append_of_ne_nil hne]

/-! ## Storage -/

/-- The places hold the entries, the oldest one at the place `front`. -/
def Holds (n front : ℕ) (l : List α) (read : ℕ → Option α) : Prop :=
  ∀ i a, l[i]? = some a → read ((front + i) % n) = some a

variable {n front : ℕ} {l : List α} {read : ℕ → Option α}

/-- An empty queue needs no storage. -/
lemma Holds.nil : Holds n front ([] : List α) read := by
  intro i a h
  exact absurd h (by simp)

/-- Without the oldest entry the queue begins one place further. -/
lemma Holds.tail (h : Holds n front l read) : Holds n ((front + 1) % n) l.tail read := by
  intro i a hi
  rw [List.getElem?_tail] at hi
  have hplace : ((front + 1) % n + i) % n = (front + (i + 1)) % n := by
    rw [Nat.mod_add_mod, Nat.add_assoc, Nat.add_comm 1 i]
  rw [hplace]
  exact h (i + 1) a hi

/-- A new entry is stored behind the newest one, if there is a place left. -/
lemma Holds.append (h : Holds n front l read) (hlength : l.length < n) (a : α) :
    Holds n front (l ++ [a]) (Function.update read ((front + l.length) % n) (some a)) := by
  intro i b hi
  rcases Nat.lt_or_ge i l.length with hlt | hge
  · -- the other entries stand at other places
    have hne : (front + i) % n ≠ (front + l.length) % n := by
      intro heq
      have hmod : Nat.ModEq n i l.length := Nat.ModEq.add_left_cancel' front heq
      rw [Nat.ModEq, Nat.mod_eq_of_lt (by omega), Nat.mod_eq_of_lt hlength] at hmod
      omega
    rw [List.getElem?_append_left hlt] at hi
    rw [Function.update_of_ne hne]
    exact h i b hi
  · rw [List.getElem?_append_right hge] at hi
    obtain ⟨hsub, rfl⟩ := List.getElem?_eq_some_iff.mp hi
    rw [List.length_singleton] at hsub
    obtain rfl : i = l.length := by omega
    rw [Function.update_self]
    simp

end CyclicStorage
