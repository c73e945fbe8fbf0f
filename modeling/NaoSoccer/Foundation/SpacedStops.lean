import Mathlib.Data.List.Basic
import Mathlib.Order.Nat

/-!
# Stops at a distance

A loop over the places below `n` stops at the chosen ones, and after each stop it passes over the
next `width` places.

`IsStop` says the same of one place: it is chosen, and none of the `width` places before it is a
stop.  `mem_stops_zero` is the connection, and `exists_stop` says that no chosen place is far behind
a stop.
-/

namespace SpacedStops

variable (chosen : ℕ → Bool) (width n : ℕ)

/-- The places at which the loop stops from `i` on. -/
def stops (i : ℕ) : List ℕ :=
  if i < n then
    if chosen i then i :: stops (i + width + 1) else stops (i + 1)
  else []
termination_by n - i

/-- A chosen place with no stop among the `width` places before it. -/
def IsStop (c : ℕ) : Prop :=
  chosen c = true ∧ ∀ b, b < c → c ≤ b + width → ¬ IsStop b
termination_by c

variable {chosen width n}

/-- The loop stops at a chosen place. -/
lemma stops_of_chosen {i : ℕ} (hi : i < n) (h : chosen i = true) :
    stops chosen width n i = i :: stops chosen width n (i + width + 1) := by
  rw [stops, if_pos hi, if_pos h]

/-- It passes over any other one. -/
lemma stops_of_not_chosen {i : ℕ} (hi : i < n) (h : ¬ chosen i = true) :
    stops chosen width n i = stops chosen width n (i + 1) := by
  rw [stops, if_pos hi, if_neg h]

/-- It ends at `n`. -/
lemma stops_of_le {i : ℕ} (hi : ¬ i < n) : stops chosen width n i = [] := by
  rw [stops, if_neg hi]

/-- A chosen place is a stop or has one close before it. -/
lemma exists_stop {c : ℕ} (h : chosen c = true) :
    ∃ s, IsStop chosen width s ∧ s ≤ c ∧ c ≤ s + width := by
  by_cases hstop : IsStop chosen width c
  · exact ⟨c, hstop, le_refl c, Nat.le_add_right c width⟩
  · rw [IsStop] at hstop
    obtain ⟨b, hlt, hle, hb⟩ : ∃ b, b < c ∧ c ≤ b + width ∧ IsStop chosen width b := by
      by_contra hnone
      exact hstop ⟨h, fun b hlt hle hb => hnone ⟨b, hlt, hle, hb⟩⟩
    exact ⟨b, hb, hlt.le, hle⟩

/-- Stops are chosen. -/
lemma IsStop.chosen_eq {c : ℕ} (h : IsStop chosen width c) : chosen c = true := by
  rw [IsStop] at h
  exact h.1

/-- A chosen place with no chosen one among the `width` places before it is a stop. -/
lemma isStop_of_forall_not_chosen {c : ℕ} (hc : chosen c = true)
    (h : ∀ b < c, c ≤ b + width → chosen b = false) : IsStop chosen width c := by
  rw [IsStop]
  refine ⟨hc, fun b hlt hle hb => ?_⟩
  exact Bool.false_ne_true ((h b hlt hle).symm.trans hb.chosen_eq)

/-- Two stops are more than `width` places apart. -/
lemma IsStop.lt_of_lt {b c : ℕ} (hb : IsStop chosen width b) (hc : IsStop chosen width c)
    (hlt : b < c) : b + width < c := by
  rw [IsStop] at hc
  exact Nat.lt_of_not_le fun hle => hc.2 b hlt hle hb

/-- **What the loop stops at** from a place on that is past the reach of the stops before it. -/
lemma mem_stops (i : ℕ) (hpast : ∀ b < i, IsStop chosen width b → b + width < i) (c : ℕ) :
    c ∈ stops chosen width n i ↔ i ≤ c ∧ c < n ∧ IsStop chosen width c := by
  induction i using stops.induct chosen width n with
  | case1 i hi hchosen ih =>
    have hstop : IsStop chosen width i := by
      rw [IsStop]
      exact ⟨hchosen, fun b hlt hle hb => absurd (hpast b hlt hb) (Nat.not_lt.mpr hle)⟩
    rw [stops_of_chosen hi hchosen, List.mem_cons, ih fun b hlt hb => ?_]
    · constructor
      · rintro (rfl | ⟨hle, hn, hc⟩)
        · exact ⟨le_refl _, hi, hstop⟩
        · exact ⟨by omega, hn, hc⟩
      · rintro ⟨hle, hn, hc⟩
        rcases hle.eq_or_lt with rfl | hlt
        · exact Or.inl rfl
        · exact Or.inr ⟨hstop.lt_of_lt hc hlt, hn, hc⟩
    · rcases Nat.lt_trichotomy b i with hbefore | rfl | hafter
      · have hreach := hpast b hbefore hb
        omega
      · omega
      · have hfar := hstop.lt_of_lt hb hafter
        omega
  | case2 i hi hchosen ih =>
    have hstop : ¬ IsStop chosen width i := fun h => hchosen h.chosen_eq
    rw [stops_of_not_chosen hi hchosen, ih fun b hlt hb => ?_]
    · constructor
      · rintro ⟨hle, hn, hc⟩
        exact ⟨by omega, hn, hc⟩
      · rintro ⟨hle, hn, hc⟩
        have hne : i ≠ c := by
          rintro rfl
          exact hstop hc
        exact ⟨by omega, hn, hc⟩
    · rcases Nat.lt_succ_iff_lt_or_eq.mp hlt with hbefore | rfl
      · have hreach := hpast b hbefore hb
        omega
      · exact absurd hb hstop
  | case3 i hi =>
    rw [stops_of_le hi]
    constructor
    · exact fun h => absurd h List.not_mem_nil
    · rintro ⟨hle, hn, -⟩
      omega

/-- What the loop stops at. -/
lemma mem_stops_zero (c : ℕ) :
    c ∈ stops chosen width n 0 ↔ c < n ∧ IsStop chosen width c := by
  rw [mem_stops 0 fun b hlt => absurd hlt (Nat.not_lt_zero b)]
  exact and_iff_right (Nat.zero_le c)

/-- The loop goes forward. -/
lemma le_of_mem_stops {i c : ℕ} (h : c ∈ stops chosen width n i) : i ≤ c := by
  induction i using stops.induct chosen width n with
  | case1 i hi hchosen ih =>
    rw [stops_of_chosen hi hchosen, List.mem_cons] at h
    rcases h with rfl | h
    · exact le_refl _
    · have hle := ih h
      omega
  | case2 i hi hchosen ih =>
    rw [stops_of_not_chosen hi hchosen] at h
    have hle := ih h
    omega
  | case3 i hi =>
    rw [stops_of_le hi] at h
    exact absurd h List.not_mem_nil

/-- It stops nowhere twice. -/
lemma nodup_stops (i : ℕ) : (stops chosen width n i).Nodup := by
  induction i using stops.induct chosen width n with
  | case1 i hi hchosen ih =>
    rw [stops_of_chosen hi hchosen, List.nodup_cons]
    refine ⟨fun h => ?_, ih⟩
    have hle := le_of_mem_stops h
    omega
  | case2 i hi hchosen ih =>
    rwa [stops_of_not_chosen hi hchosen]
  | case3 i hi =>
    rw [stops_of_le hi]
    exact List.nodup_nil

end SpacedStops
