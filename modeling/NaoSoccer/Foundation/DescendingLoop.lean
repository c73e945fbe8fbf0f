import NaoSoccer.Foundation.Outcome
import Mathlib.Data.List.Basic
import Mathlib.Logic.Function.Iterate
import Mathlib.Order.Defs.Unbundled

/-!
# Loops that descend

A step either leaves the state as it is or lowers its rank.  A loop of such steps over a list that
does not lower the rank has left the state as it is at every step (`foldlM_descends`).

A `while` loop whose passes lower the rank after a while, as long as it goes on, ends
(`exists_iterate_stops`).  It need not be the next pass that lowers the rank: a pass may also only
move a counter, if it cannot do so for ever (`exists_drop`).
-/

namespace DescendingLoop

open Outcome

universe u v w

variable {ε : Type u} {σ : Type v} {α : Type w} {rank : σ → ℕ}

/-! ## Loops over a list -/

section List

variable {step : σ → α → Except ε σ}

/-- **A loop that does not descend** has changed nothing at any step. -/
lemma foldlM_descends (hstep : ∀ s a s', step s a = .ok s' → s' = s ∨ rank s' < rank s) {as : List α}
    {s s' : σ} (h : as.foldlM step s = .ok s') :
    (s' = s ∧ ∀ a ∈ as, step s a = .ok s) ∨ rank s' < rank s := by
  induction as generalizing s with
  | nil =>
    obtain rfl : s = s' := Except.ok.inj h
    exact Or.inl ⟨rfl, fun a ha => absurd ha List.not_mem_nil⟩
  | cons a as ih =>
    rw [List.foldlM_cons, bind_eq_ok_iff] at h
    obtain ⟨t, hfirst, hrest⟩ := h
    rcases hstep s a t hfirst with rfl | hless
    · rcases ih hrest with ⟨rfl, hall⟩ | hless
      · exact Or.inl ⟨rfl, List.forall_mem_cons.mpr ⟨hfirst, hall⟩⟩
      · exact Or.inr hless
    · rcases ih hrest with ⟨rfl, -⟩ | hless'
      · exact Or.inr hless
      · exact Or.inr (Nat.lt_trans hless' hless)

/-- What every step keeps, a loop keeps. -/
lemma foldlM_preserves {I : σ → Prop} (hstep : ∀ s a s', step s a = .ok s' → I s → I s')
    {as : List α} {s s' : σ} (h : as.foldlM step s = .ok s') (hs : I s) : I s' := by
  induction as generalizing s with
  | nil =>
    obtain rfl : s = s' := Except.ok.inj h
    exact hs
  | cons a as ih =>
    rw [List.foldlM_cons, bind_eq_ok_iff] at h
    obtain ⟨t, hfirst, hrest⟩ := h
    exact ih hrest (hstep s a t hfirst hs)

/-- **A loop followed in another model**: if each step is a step there with some input, the loop is
a loop there with an input for each element. -/
lemma exists_foldl_of_foldlM {τ β : Type*} (view : σ → τ) (viewStep : β → τ → α → τ)
    (hstep : ∀ s a s', step s a = .ok s' → ∃ b, view s' = viewStep b (view s) a) [Nonempty β]
    {as : List α} (hnodup : as.Nodup) {s s' : σ} (h : as.foldlM step s = .ok s') :
    ∃ input : α → β, view s' = as.foldl (fun t a => viewStep (input a) t a) (view s) := by
  classical
  induction as generalizing s with
  | nil =>
    obtain rfl : s = s' := Except.ok.inj h
    exact ⟨fun _ => Classical.arbitrary β, rfl⟩
  | cons a as ih =>
    obtain ⟨hnew, hrest⟩ := List.nodup_cons.mp hnodup
    rw [List.foldlM_cons, bind_eq_ok_iff] at h
    obtain ⟨t, hfirst, htail⟩ := h
    obtain ⟨b, hb⟩ := hstep s a t hfirst
    obtain ⟨input, hinput⟩ := ih hrest htail
    refine ⟨Function.update input a b, ?_⟩
    rw [List.foldl_cons, Function.update_self, ← hb, hinput]
    -- the element does not come again
    refine List.foldl_ext _ _ _ fun t a' ha' => ?_
    rw [Function.update_of_ne (ne_of_mem_of_not_mem ha' hnew)]

/-- A loop fails where a step fails. -/
lemma exists_error_of_foldlM {as : List α} {s : σ} {e : ε} (h : as.foldlM step s = .error e) :
    ∃ t a, step t a = .error e := by
  induction as generalizing s with
  | nil => exact absurd h (by simp [pure, Except.pure])
  | cons a as ih =>
    rw [List.foldlM_cons] at h
    cases hfirst : step s a with
    | error e' =>
      rw [hfirst, error_bind] at h
      exact ⟨s, a, hfirst.trans (congrArg _ (Except.error.inj h))⟩
    | ok t =>
      rw [hfirst, ok_bind] at h
      exact ih h

end List

/-! ## Loops with a condition -/

variable (go : σ → Prop) [DecidablePred go] (pass : σ → Except ε σ)

/-- The passes of a loop that goes on while `go` holds, a number of them at most. -/
def iterate : ℕ → σ → Except ε σ
  | 0, s => .ok s
  | k + 1, s => if go s then pass s >>= iterate k else .ok s

variable {go} {pass}

/-- A loop that has ended stays where it is. -/
lemma iterate_of_not (h : ¬ go s) (k : ℕ) : iterate go pass k s = .ok s := by
  cases k with
  | zero => rfl
  | succ k => exact if_neg h

/-- Some passes, and then some more. -/
lemma iterate_add (k l : ℕ) (s : σ) :
    iterate go pass (k + l) s = iterate go pass k s >>= iterate go pass l := by
  induction k generalizing s with
  | zero => rw [Nat.zero_add]; rfl
  | succ k ih =>
    rw [Nat.succ_add, iterate, iterate]
    split
    · rw [bind_assoc]
      exact congrArg _ (funext ih)
    · next h => rw [ok_bind, iterate_of_not h]

/-- What every pass keeps, the loop keeps. -/
lemma iterate_preserves {I : σ → Prop} (hpass : ∀ s s', pass s = .ok s' → I s → I s') {k : ℕ}
    {s s' : σ} (h : iterate go pass k s = .ok s') (hs : I s) : I s' := by
  induction k generalizing s with
  | zero =>
    obtain rfl : s = s' := Except.ok.inj h
    exact hs
  | succ k ih =>
    rw [iterate] at h
    split at h
    · obtain ⟨t, ht, hrest⟩ := bind_eq_ok_iff.mp h
      exact ih hrest (hpass s t ht hs)
    · obtain rfl : s = s' := Except.ok.inj h
      exact hs

/-- The loop fails where a pass fails. -/
lemma exists_error_of_iterate {k : ℕ} {s : σ} {e : ε} (h : iterate go pass k s = .error e) :
    ∃ t, pass t = .error e := by
  induction k generalizing s with
  | zero => exact absurd h (by simp [iterate])
  | succ k ih =>
    rw [iterate] at h
    split at h
    · cases hpass : pass s with
      | error e' =>
        rw [hpass, error_bind] at h
        exact ⟨s, hpass.trans (congrArg _ (Except.error.inj h))⟩
      | ok t =>
        rw [hpass, ok_bind] at h
        exact ih h
    · exact absurd h (by simp)

/-- No pass of the loop fails. -/
def NeverFails (go : σ → Prop) [DecidablePred go] (pass : σ → Except ε σ) (s : σ) : Prop :=
  ∀ k, ∃ s', iterate go pass k s = .ok s'

/-- Later passes do not fail, either. -/
lemma NeverFails.of_iterate {s s' : σ} (h : NeverFails go pass s) {k : ℕ}
    (hk : iterate go pass k s = .ok s') : NeverFails go pass s' := by
  intro l
  obtain ⟨t, ht⟩ := h (k + l)
  rw [iterate_add, hk, ok_bind] at ht
  exact ⟨t, ht⟩

/-- The next pass of a loop that goes on and does not fail. -/
lemma NeverFails.exists_pass {s : σ} (h : NeverFails go pass s) (hgo : go s) :
    ∃ s', pass s = .ok s' := by
  obtain ⟨s', hs'⟩ := h 1
  rw [iterate, if_pos hgo, bind_eq_ok_iff] at hs'
  obtain ⟨t, ht, -⟩ := hs'
  exact ⟨t, ht⟩

/-- **Waiting for the rank to drop**: a pass lowers the rank or moves the counter, and when the
counter has been moved often enough it lowers the rank. -/
lemma exists_drop (rank : σ → ℕ) (tick : σ → σ) (hrank : ∀ s, rank (tick s) = rank s)
    (hgo : ∀ s, go s → go (tick s))
    (hpass : ∀ s s', pass s = .ok s' → s' = tick s ∨ rank s' < rank s) {n : ℕ} {s : σ}
    (hs : go s) (hsafe : NeverFails go pass s)
    (hforced : ∀ s', pass (tick^[n] s) = .ok s' → rank s' < rank s) :
    ∃ k s', iterate go pass k s = .ok s' ∧ rank s' < rank s := by
  induction n generalizing s with
  | zero =>
    obtain ⟨s', hs'⟩ := hsafe.exists_pass hs
    refine ⟨1, s', ?_, hforced s' hs'⟩
    rw [iterate, if_pos hs, hs']
    rfl
  | succ n ih =>
    obtain ⟨s', hs'⟩ := hsafe.exists_pass hs
    have hone : iterate go pass 1 s = .ok s' := by
      rw [iterate, if_pos hs, hs']
      rfl
    rcases hpass s s' hs' with rfl | hless
    · obtain ⟨k, t, hk, ht⟩ := ih (hgo s hs) (hsafe.of_iterate hone)
        fun s' h => hrank s ▸ hforced s' h
      refine ⟨1 + k, t, ?_, hrank s ▸ ht⟩
      rw [iterate_add, hone, ok_bind, hk]
    · exact ⟨1, s', hone, hless⟩

/-- **The loop ends** if, while it goes on, the rank drops after some passes. -/
theorem exists_iterate_stops (rank : σ → ℕ)
    (hdrop : ∀ s, go s → NeverFails go pass s →
      ∃ k s', iterate go pass k s = .ok s' ∧ rank s' < rank s)
    {s : σ} (hsafe : NeverFails go pass s) :
    ∃ k s', iterate go pass k s = .ok s' ∧ ¬ go s' := by
  induction hr : rank s using Nat.strongRecOn generalizing s with
  | ind r ih =>
    by_cases hgo : go s
    · obtain ⟨k, s', hk, hless⟩ := hdrop s hgo hsafe
      obtain ⟨l, t, hl, ht⟩ := ih (rank s') (hr ▸ hless) (hsafe.of_iterate hk) rfl
      refine ⟨k + l, t, ?_, ht⟩
      rw [iterate_add, hk, ok_bind, hl]
    · exact ⟨0, s, rfl, hgo⟩

end DescendingLoop
