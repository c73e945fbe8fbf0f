import Mathlib.Algebra.Group.Torsion

/-!
# Signed exchanges

An exchange gives every index the value of its partner, and the negative of it at some indices.

Done twice it gives every value back exactly if partners agree on the sign, or where the value is
zero (`exchange_exchange_eq_iff`).
-/

namespace SignedExchange

variable {ι V : Type*}

/-- The values of the partners, negated where `negated` says so. -/
def exchange [Neg V] (partner : ι → ι) (negated : ι → Bool) (value : ι → V) : ι → V := fun i =>
  if negated i then -value (partner i) else value (partner i)

/-- Two values are exchanged for each other, with the same sign. -/
def Alike [Neg V] (x y x' y' : V) : Prop := (x' = y ∧ y' = x) ∨ (x' = -y ∧ y' = -x)

variable [AddGroup V]
variable {partner : ι → ι} {negated : ι → Bool} {value : ι → V} {i : ι}

/-- Two exchanges give a value back exactly if its index and the partner of it have one sign, or it
is zero. -/
lemma exchange_exchange_eq_iff [IsAddTorsionFree V] (hpartner : partner (partner i) = i) :
    exchange partner negated (exchange partner negated value) i = value i ↔
      negated i = negated (partner i) ∨ value i = 0 := by
  unfold exchange
  rw [hpartner]
  rcases negated i <;> rcases negated (partner i)
  · simp
  · simp [neg_eq_self]
  · simp [neg_eq_self]
  · simp

/-- Partners of one sign are treated alike. -/
lemma alike_of_negated_eq (hpartner : partner (partner i) = i)
    (hsign : negated i = negated (partner i)) :
    Alike (value i) (value (partner i)) (exchange partner negated value i)
      (exchange partner negated value (partner i)) := by
  unfold exchange Alike
  rw [hpartner, ← hsign]
  cases negated i with
  | false => exact Or.inl ⟨rfl, rfl⟩
  | true => exact Or.inr ⟨rfl, rfl⟩

end SignedExchange
