import Mathlib.Algebra.BigOperators.Group.List.Basic
import Mathlib.Algebra.GroupWithZero.Nat
import Mathlib.Data.List.Basic

/-!
# Items with durations

A list of items with durations is played tick by tick: an item is given out in its first tick, and
nothing is given out in the other ticks of its duration.  An item without duration is passed over.
-/

namespace TimedPlan

variable {α : Type}

/-- What is given out during an item of duration `d`. -/
def expand : ℕ → α → List (Option α)
  | 0, _ => []
  | d + 1, a => some a :: List.replicate d none

/-- What is given out tick by tick. -/
def plan : List (ℕ × α) → List (Option α)
  | [] => []
  | item :: items => expand item.1 item.2 ++ plan items

/-- The number of ticks of all items. -/
def total (items : List (ℕ × α)) : ℕ := (items.map Prod.fst).sum

/-- The number of ticks before item `i`. -/
def begins (items : List (ℕ × α)) (i : ℕ) : ℕ := total (items.take i)

@[simp] lemma length_expand (d : ℕ) (a : α) : (expand d a).length = d := by
  cases d with
  | zero => rfl
  | succ d => simp [expand]

@[simp] lemma total_nil : total ([] : List (ℕ × α)) = 0 := rfl

@[simp] lemma total_cons (item : ℕ × α) (items : List (ℕ × α)) :
    total (item :: items) = item.1 + total items := by simp [total]

lemma length_plan (items : List (ℕ × α)) : (plan items).length = total items := by
  induction items with
  | nil => rfl
  | cons item items ih => rw [plan, List.length_append, length_expand, ih, total_cons]

lemma getElem?_expand {d n : ℕ} (hn : n < d) (a : α) :
    (expand d a)[n]? = some (if n = 0 then some a else none) := by
  obtain ⟨d, rfl⟩ := Nat.exists_eq_succ_of_ne_zero (Nat.ne_zero_of_lt hn)
  cases n with
  | zero => rfl
  | succ n => simp [expand, Nat.lt_of_succ_lt_succ hn]

/-- A tick of the first item. -/
lemma getElem?_plan_of_lt {item : ℕ × α} {n : ℕ} (hn : n < item.1) (items : List (ℕ × α)) :
    (plan (item :: items))[n]? = some (if n = 0 then some item.2 else none) := by
  rw [plan, List.getElem?_append_left (by rwa [length_expand]), getElem?_expand hn]

/-- A tick after the first item. -/
lemma getElem?_plan_add (item : ℕ × α) (items : List (ℕ × α)) (n : ℕ) :
    (plan (item :: items))[item.1 + n]? = (plan items)[n]? := by
  rw [plan, List.getElem?_append_right (by rw [length_expand]; exact Nat.le_add_right _ _),
    length_expand, Nat.add_sub_cancel_left]

/-- Past the ticks of the first item come the other items. -/
lemma drop_plan_cons (item : ℕ × α) (items : List (ℕ × α)) :
    (plan (item :: items)).drop item.1 = plan items := by
  rw [plan, List.drop_left' (length_expand _ _)]

/-- The plan from a tick of the first item on. -/
lemma drop_plan_of_lt {item : ℕ × α} {n : ℕ} (hn : n < item.1) (items : List (ℕ × α)) :
    (plan (item :: items)).drop n =
      (if n = 0 then some item.2 else none) :: (plan (item :: items)).drop (n + 1) := by
  have hlength : n < (plan (item :: items)).length := by
    rw [length_plan, total_cons]
    exact Nat.lt_add_right _ hn
  have hget := getElem?_plan_of_lt hn items
  rw [List.getElem?_eq_getElem hlength, Option.some.injEq] at hget
  rw [List.drop_eq_getElem_cons hlength, hget]

/-- An item is given out in its first tick. -/
lemma getElem?_begins {items : List (ℕ × α)} {i : ℕ} {item : ℕ × α} (hi : items[i]? = some item)
    (hpos : 0 < item.1) : (plan items)[begins items i]? = some (some item.2) := by
  induction items generalizing i with
  | nil => exact absurd hi (by simp)
  | cons first items ih =>
    cases i with
    | zero =>
      rw [List.getElem?_cons_zero, Option.some.injEq] at hi
      subst hi
      exact getElem?_plan_of_lt hpos items
    | succ i =>
      rw [List.getElem?_cons_succ] at hi
      have hbegins : begins (first :: items) (i + 1) = first.1 + begins items i := by
        rw [begins, List.take_succ_cons, total_cons, begins]
      rw [hbegins, getElem?_plan_add]
      exact ih hi

/-- Nothing is given out in the other ticks. -/
lemma getElem?_of_ne {items : List (ℕ × α)} {n : ℕ} (hn : n < total items)
    (hne : ∀ i item, items[i]? = some item → 0 < item.1 → n ≠ begins items i) :
    (plan items)[n]? = some none := by
  induction items generalizing n with
  | nil => exact absurd hn (Nat.not_lt_zero n)
  | cons first items ih =>
    by_cases hfirst : n < first.1
    · have hzero : n ≠ 0 := hne 0 first rfl (Nat.zero_lt_of_lt hfirst)
      rw [getElem?_plan_of_lt hfirst, if_neg hzero]
    · obtain ⟨k, rfl⟩ := Nat.exists_eq_add_of_le (Nat.not_lt.mp hfirst)
      rw [total_cons] at hn
      rw [getElem?_plan_add]
      apply ih (Nat.lt_of_add_lt_add_left hn)
      rintro i item hi hpos rfl
      apply hne (i + 1) item (by rwa [List.getElem?_cons_succ]) hpos
      rw [begins, begins, List.take_succ_cons, total_cons]

end TimedPlan
