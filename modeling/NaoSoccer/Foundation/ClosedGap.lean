import Mathlib.Order.Interval.Set.Defs
import Mathlib.Data.Set.Image
import Mathlib.Algebra.Order.Group.Int
import Mathlib.Data.Int.ConditionallyCompleteOrder
import Mathlib.Order.ConditionallyCompleteLattice.Basic

/-!
# Places after one has been deleted

When the place `f` of a sequence is deleted, the places behind it move up by one: `closeGap f` says
where a place goes.  An interval of places stays an interval, whose ends move separately.  A partial
function with finitely many values is the same before and after exactly if it has none from `f` on.
-/

namespace ClosedGap

/-- Where a place other than `f` goes when `f` is deleted. -/
def closeGap (f g : ℤ) : ℤ := if g < f then g else g - 1

/-- Where a place comes from. -/
def openGap (f g : ℤ) : ℤ := if g < f then g else g + 1

variable {f g : ℤ}

/-- The deleted place is nowhere afterwards. -/
lemma openGap_ne (f g : ℤ) : openGap f g ≠ f := by
  unfold openGap
  split <;> omega

/-- A place comes from where it went. -/
lemma closeGap_openGap (f g : ℤ) : closeGap f (openGap f g) = g := by
  unfold closeGap openGap
  split_ifs <;> omega

/-- A place other than the deleted one goes to where it comes from. -/
lemma openGap_closeGap (h : g ≠ f) : openGap f (closeGap f g) = g := by
  unfold closeGap openGap
  split_ifs <;> omega

/-- The places that are in the image of a set. -/
lemma mem_image_closeGap_iff {s : Set ℤ} {k : ℤ} :
    k ∈ closeGap f '' (s \ {f}) ↔ openGap f k ∈ s := by
  constructor
  · rintro ⟨g, ⟨hg, hne⟩, rfl⟩
    rw [openGap_closeGap hne]
    exact hg
  · exact fun h => ⟨openGap f k, ⟨h, openGap_ne f k⟩, closeGap_openGap f k⟩

/-- **An interval stays an interval**: its lower end moves up if it stands behind the deleted place,
its upper end also if it is the deleted place. -/
theorem image_closeGap_Icc (f a b : ℤ) :
    closeGap f '' (Set.Icc a b \ {f}) =
      Set.Icc (if f < a then a - 1 else a) (if f ≤ b then b - 1 else b) := by
  ext k
  have hlower : a ≤ openGap f k ↔ (if f < a then a - 1 else a) ≤ k := by
    unfold openGap
    split <;> split <;> omega
  have hupper : openGap f k ≤ b ↔ k ≤ (if f ≤ b then b - 1 else b) := by
    unfold openGap
    split <;> split <;> omega
  rw [mem_image_closeGap_iff, Set.mem_Icc, Set.mem_Icc, hlower, hupper]

/-- **Finitely many values stay where they are** exactly if there are none from the deleted place
on. -/
theorem forall_eq_openGap_iff {α : Type*} {p : ℤ → Option α} {last : ℤ}
    (hlast : ∀ g, last < g → p g = none) :
    (∀ g, p g = p (openGap f g)) ↔ ∀ g, f ≤ g → p g = none := by
  constructor
  · intro h
    have hnext (g : ℤ) (hg : f ≤ g) : p g = p (g + 1) := by
      rw [h g, openGap, if_neg (not_lt.mpr hg)]
    -- from behind the last value down to the place
    have hup (n : ℕ) : ∀ g, f ≤ g → last < g + n → p g = none := by
      induction n with
      | zero => exact fun g _ hg => hlast g (by simpa using hg)
      | succ n ih =>
        intro g hg hn
        rw [hnext g hg]
        exact ih (g + 1) (by omega) (by push_cast at hn; omega)
    exact fun g hg => hup (last + 1 - g).toNat g hg (by omega)
  · intro h g
    unfold openGap
    split
    · rfl
    · next hg => rw [h g (by omega), h (g + 1) (by omega)]

end ClosedGap
