import Mathlib.Init

/-!
# Sequencing computations that can fail

Rules for `do` blocks in `Except`: what follows a success, what follows a failure, and how a block
that succeeds is taken apart into its steps.
-/

namespace Outcome

universe u v

variable {ε : Type u} {α β : Type v}

/-- A computation that has succeeded hands its result on. -/
@[simp] lemma ok_bind (a : α) (f : α → Except ε β) : (Except.ok a >>= f) = f a := rfl

/-- A computation that has failed stops the block. -/
@[simp] lemma error_bind (e : ε) (f : α → Except ε β) :
    ((Except.error e : Except ε α) >>= f) = .error e := rfl

/-- A block succeeds exactly when its first step does and the rest does with its result. -/
lemma bind_eq_ok_iff {x : Except ε α} {f : α → Except ε β} {b : β} :
    (x >>= f) = .ok b ↔ ∃ a, x = .ok a ∧ f a = .ok b := by
  cases x with
  | error e => simp
  | ok a => simp

/-- A block does not fail in a way in which none of its steps fails. -/
lemma bind_ne_error {e : ε} {x : Except ε α} {f : α → Except ε β} (hx : x ≠ .error e)
    (hf : ∀ a, x = .ok a → f a ≠ .error e) : (x >>= f) ≠ .error e := by
  cases x with
  | error e' => exact fun h => hx (congrArg Except.error (Except.error.inj h))
  | ok a => exact hf a rfl

/-- A guarded step that fails when its guard holds succeeds exactly past the guard. -/
lemma ite_error_eq_ok_iff {p : Prop} [Decidable p] {e : ε} {x : Except ε α} {a : α} :
    (if p then .error e else x) = .ok a ↔ ¬ p ∧ x = .ok a := by
  by_cases hp : p <;> simp [hp]

end Outcome
