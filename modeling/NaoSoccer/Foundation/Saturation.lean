import Mathlib.Data.Finset.Card

/-!
# Saturation of finite sets

Tables such as the sets of a grammar are computed by a loop that sweeps over a list of updates
until a whole sweep changes nothing.  Each update only adds elements, and all it adds lies in a
finite set that is known before, so the loop ends after at most as many sweeps as that set has
elements, with a set that every update leaves as it is.
-/

namespace Saturation

/-! ## Sweeps -/

section Sweep

variable {α : Type*}

/-- One pass over a list of updates. -/
def sweep (updates : List (α → α)) (s : α) : α := updates.foldl (fun s update => update s) s

/-- The sweep over no update changes nothing. -/
@[simp] lemma sweep_nil (s : α) : sweep [] s = s := rfl

/-- A sweep makes its first update and goes on from there. -/
@[simp] lemma sweep_cons (update : α → α) (updates : List (α → α)) (s : α) :
    sweep (update :: updates) s = sweep updates (update s) := rfl

/-- What every update preserves holds after the sweep. -/
theorem sweep_induction {P : α → Prop} {updates : List (α → α)}
    (hstep : ∀ update ∈ updates, ∀ s, P s → P (update s)) {s : α} (hs : P s) :
    P (sweep updates s) := by
  induction updates generalizing s with
  | nil => exact hs
  | cons update updates ih =>
    exact ih (fun u hu => hstep u (List.mem_cons_of_mem _ hu))
      (hstep update List.mem_cons_self s hs)

variable [PartialOrder α]

/-- A sweep of updates that only add adds. -/
lemma le_sweep {updates : List (α → α)} (hadd : ∀ update ∈ updates, ∀ s, s ≤ update s) (s : α) :
    s ≤ sweep updates s :=
  sweep_induction (P := fun r => s ≤ r) (fun update hu r hr => hr.trans (hadd update hu r)) le_rfl

/-- A sweep that changes nothing is made of updates that change nothing. -/
theorem update_eq_of_sweep_eq {updates : List (α → α)}
    (hadd : ∀ update ∈ updates, ∀ s, s ≤ update s) {s : α} (hs : sweep updates s = s)
    {update : α → α} (hu : update ∈ updates) : update s = s := by
  induction updates with
  | nil => exact absurd hu List.not_mem_nil
  | cons first updates ih =>
    have hrest : ∀ u ∈ updates, ∀ r, r ≤ u r := fun u h => hadd u (List.mem_cons_of_mem _ h)
    have hfirst : first s = s := by
      refine le_antisymm ?_ (hadd first List.mem_cons_self s)
      calc first s ≤ sweep updates (first s) := le_sweep hrest (first s)
        _ = s := hs
    rcases List.mem_cons.mp hu with rfl | hmem
    · exact hfirst
    · rw [sweep_cons, hfirst] at hs
      exact ih hrest hs hmem

end Sweep

/-! ## Sweeping until nothing changes -/

variable {β : Type*} [DecidableEq β]

/-- Repeat a sweep until it changes nothing, at most `fuel` times. -/
def saturate (f : Finset β → Finset β) : ℕ → Finset β → Finset β
  | 0, s => s
  | fuel + 1, s => if f s = s then s else saturate f fuel (f s)

/-- What every sweep preserves holds of the saturated set. -/
theorem saturate_induction {P : Finset β → Prop} {f : Finset β → Finset β}
    (hstep : ∀ s, P s → P (f s)) {fuel : ℕ} {s : Finset β} (hs : P s) :
    P (saturate f fuel s) := by
  induction fuel generalizing s with
  | zero => exact hs
  | succ fuel ih =>
    rw [saturate]
    split
    · exact hs
    · exact ih (hstep s hs)

/-- **Saturation**: a loop that only adds elements, and keeps to an invariant under which all
elements are in a finite set, comes to a sweep that changes nothing within as many sweeps as that
set has elements. -/
theorem saturate_fixed {P : Finset β → Prop} {f : Finset β → Finset β} (bound : Finset β)
    (hbound : ∀ s, P s → s ⊆ bound) (hadd : ∀ s, s ⊆ f s) (hstep : ∀ s, P s → P (f s))
    {fuel : ℕ} {s : Finset β} (hs : P s) (hfuel : bound.card ≤ fuel + s.card) :
    f (saturate f fuel s) = saturate f fuel s := by
  induction fuel generalizing s with
  | zero =>
    have hfull : s = bound := Finset.eq_of_subset_of_card_le (hbound s hs) (by simpa using hfuel)
    refine Finset.Subset.antisymm ?_ (hadd s)
    calc f s ⊆ bound := hbound (f s) (hstep s hs)
      _ = s := hfull.symm
  | succ fuel ih =>
    rw [saturate]
    split
    next hfix => exact hfix
    next hne =>
      have hgrow : s.card < (f s).card :=
        Finset.card_lt_card (Finset.ssubset_iff_subset_ne.mpr ⟨hadd s, fun h => hne h.symm⟩)
      exact ih (hstep s hs) (by omega)

end Saturation
