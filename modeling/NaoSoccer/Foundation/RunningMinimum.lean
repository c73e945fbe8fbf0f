import Mathlib.Data.List.FinRange
import Mathlib.Order.Defs.LinearOrder

/-!
# The smallest value of a list, found in one pass

A pass over a list keeps the smallest value that it has met below a bound, and where it met it.  A
later element with the same value does not replace it, so the pass ends with the first of the
smallest.
-/

namespace RunningMinimum

variable {ι K : Type} [LinearOrder K] {value : ι → Option K} {l : List ι} {best : ι}

/-- `i` becomes the best element if it has a value and this is smaller than the best so far. -/
def step (value : ι → Option K) (s : K × Option ι) (i : ι) : K × Option ι :=
  match value i with
  | some v => if v < s.1 then (v, some i) else s
  | none => s

/-- `best` is the first among the elements of `l` with the smallest value. -/
structure IsFirstMin (value : ι → Option K) (l : List ι) (best : ι) (v : K) : Prop where
  value_eq : value best = some v
  split : ∃ xs ys, l = xs ++ best :: ys ∧ (∀ j ∈ xs, ∀ w, value j = some w → v < w) ∧
    ∀ j ∈ ys, ∀ w, value j = some w → v ≤ w

lemma IsFirstMin.le {v : K} (h : IsFirstMin value l best v) {j : ι} {w : K} (hj : j ∈ l)
    (hw : value j = some w) : v ≤ w := by
  obtain ⟨xs, ys, rfl, hbefore, hafter⟩ := h.split
  rcases List.mem_append.mp hj with hj | hj
  · exact (hbefore j hj w hw).le
  · rcases List.mem_cons.mp hj with rfl | hj
    · rw [h.value_eq, Option.some.injEq] at hw
      exact hw.le
    · exact hafter j hj w hw

/-- In an increasing list the elements before the best one are the smaller ones. -/
lemma IsFirstMin.lt {ι : Type} [LinearOrder ι] {value : ι → Option K} {l : List ι} {best : ι}
    {v : K} (h : IsFirstMin value l best v) (hl : l.Pairwise (· < ·)) {j : ι} {w : K} (hj : j ∈ l)
    (hlt : j < best) (hw : value j = some w) : v < w := by
  obtain ⟨xs, ys, rfl, hbefore, hafter⟩ := h.split
  rcases List.mem_append.mp hj with hj | hj
  · exact hbefore j hj w hw
  · have htail : (best :: ys).Pairwise (· < ·) := (List.pairwise_append.mp hl).2.1
    rcases List.mem_cons.mp hj with rfl | hj
    · exact absurd hlt (lt_irrefl j)
    · exact absurd hlt ((List.pairwise_cons.mp htail).1 j hj).not_gt

/-- What a pass ends with: nothing below the bound was met, or the first of the smallest. -/
theorem foldl_step (value : ι → Option K) (l : List ι) (s : K × Option ι) :
    (l.foldl (step value) s = s ∧ ∀ j ∈ l, ∀ w, value j = some w → s.1 ≤ w) ∨
    ∃ best v, l.foldl (step value) s = (v, some best) ∧ v < s.1 ∧ IsFirstMin value l best v := by
  induction l generalizing s with
  | nil => exact .inl ⟨rfl, fun j hj => absurd hj List.not_mem_nil⟩
  | cons i l ih =>
    rw [List.foldl_cons]
    by_cases hi : ∃ v, value i = some v ∧ v < s.1
    · obtain ⟨v, hv, hlt⟩ := hi
      have hstep : step value s i = (v, some i) := by simp [step, hv, hlt]
      rw [hstep]
      right
      rcases ih (v, some i) with ⟨hrun, hall⟩ | ⟨best, w, hrun, hw, hmin⟩
      · exact ⟨i, v, hrun, hlt, hv, [], l, rfl, fun j hj => absurd hj List.not_mem_nil, hall⟩
      · obtain ⟨xs, ys, rfl, hbefore, hafter⟩ := hmin.split
        refine ⟨best, w, hrun, hw.trans hlt, hmin.value_eq, i :: xs, ys, rfl, ?_, hafter⟩
        intro j hj u hu
        rcases List.mem_cons.mp hj with rfl | hj
        · rw [hv, Option.some.injEq] at hu
          exact hu ▸ hw
        · exact hbefore j hj u hu
    · have hle : ∀ w, value i = some w → s.1 ≤ w := by
        intro w hw
        exact not_lt.mp fun hlt => hi ⟨w, hw, hlt⟩
      have hstep : step value s i = s := by
        unfold step
        split
        · next w hw => rw [if_neg (hle w hw).not_gt]
        · rfl
      rw [hstep]
      rcases ih s with ⟨hrun, hall⟩ | ⟨best, w, hrun, hw, hmin⟩
      · left
        refine ⟨hrun, fun j hj u hu => ?_⟩
        rcases List.mem_cons.mp hj with rfl | hj
        · exact hle u hu
        · exact hall j hj u hu
      · right
        obtain ⟨xs, ys, rfl, hbefore, hafter⟩ := hmin.split
        refine ⟨best, w, hrun, hw, hmin.value_eq, i :: xs, ys, rfl, ?_, hafter⟩
        intro j hj u hu
        rcases List.mem_cons.mp hj with rfl | hj
        · exact hw.trans_le (hle u hu)
        · exact hbefore j hj u hu

/-- If something below the bound is there, a pass finds the first of the smallest. -/
theorem exists_foldl_step {s : K × Option ι} {i : ι} {v : K} (hi : i ∈ l) (hv : value i = some v)
    (hlt : v < s.1) :
    ∃ best w, l.foldl (step value) s = (w, some best) ∧ IsFirstMin value l best w := by
  rcases foldl_step value l s with ⟨-, hall⟩ | ⟨best, w, hrun, -, hmin⟩
  · exact absurd hlt (hall i hi v hv).not_gt
  · exact ⟨best, w, hrun, hmin⟩

end RunningMinimum
