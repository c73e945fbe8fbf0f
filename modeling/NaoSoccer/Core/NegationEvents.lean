import NaoSoccer.Core.StateMachine
import Mathlib.Algebra.Order.Ring.Int

/-!
# Negated events

`_add_transition` sets the links of the event that it is given.  A `NegationEvent` does not pass them
on to the event under it, so that one keeps the links it has from a transition of its own, or has
none and raises an exception when it is asked.
-/

namespace NaoSoccer

variable {N S K : Type}

namespace Event

/-- Asking the event raises no exception: the event under all negations has links, or needs none. -/
def HasSource : Event N S K → Prop
  | .ofClass kind links => kind = .null ∨ links.isSome = true
  | .negation event _ => event.HasSource

variable [DecidableEq S] [Zero K] [Sub K] [LT K] [DecidableEq K] [DecidableLT K]

/-- An event answers if it has the links that it needs. -/
lemma isSome_ready (now : K) (nodes : N → NodeState S K) (event : Event N S K) :
    (event.ready now nodes).isSome = true ↔ event.HasSource := by
  induction event with
  | negation event links ih =>
    rw [ready, Option.isSome_map]
    exact ih
  | ofClass kind links =>
    cases links <;> cases kind <;> simp [ready, HasSource]

/-- A plain event that has been added to a transition looks at the source of the transition. -/
lemma ready_linkTo_ofClass {now : K} {nodes : N → NodeState S K} {source target : N}
    (kind : EventClass S K) (links : Option (N × N)) :
    ((ofClass kind links).linkTo source target).ready now nodes =
      some (kind.holds now (nodes source)) := by
  cases kind <;> rfl

/-- After it has been added to a transition, the negation of the event gives the opposite of what the
event gives after it has been added to the same transition instead, and neither raises an
exception. -/
def Negated (now : K) (nodes : N → NodeState S K) (source target : N) (event : Event N S K) :
    Prop :=
  ∃ answer, (event.linkTo source target).ready now nodes = some answer ∧
    ((negation event none).linkTo source target).ready now nodes = some (!answer)

/-- When the negation of an event is its negation.  A plain event has links from an earlier
transition, and its class gives the same answer for the source of that one, or it is a `NullEvent`.
Of a negation, the event under all negations has links or is a `NullEvent`. -/
def KeepsAnswer (now : K) (nodes : N → NodeState S K) (source : N) : Event N S K → Prop
  | .ofClass kind links => kind = .null ∨ ∃ earlier, links = some earlier ∧
      kind.holds now (nodes earlier.1) = kind.holds now (nodes source)
  | .negation event _ => event.HasSource

/-- The event under the negation is asked with the links that it has. -/
lemma negated_iff_ready {now : K} {nodes : N → NodeState S K} {source target : N}
    {event : Event N S K} :
    event.Negated now nodes source target ↔
      ∃ answer, (event.linkTo source target).ready now nodes = some answer ∧
        event.ready now nodes = some answer := by
  refine exists_congr fun answer => and_congr_right fun _ => ?_
  show (event.ready now nodes).map not = some (!answer) ↔ _
  cases event.ready now nodes with
  | none => simp
  | some value => cases value <;> cases answer <;> simp

/-- The negation of an event is its negation exactly when the event without the links of the
transition answers in the same way. -/
theorem negated_iff (now : K) (nodes : N → NodeState S K) (source target : N)
    (event : Event N S K) :
    event.Negated now nodes source target ↔ event.KeepsAnswer now nodes source := by
  rw [negated_iff_ready]
  cases event with
  | ofClass kind links =>
    simp only [ready_linkTo_ofClass, Option.some.injEq, exists_eq_left', KeepsAnswer]
    cases links with
    | none => cases kind <;> simp [ready, EventClass.holds]
    | some earlier =>
      have hready : (ofClass kind (some earlier)).ready now nodes =
          some (kind.holds now (nodes earlier.1)) := by cases kind <;> rfl
      rw [hready, Option.some.injEq]
      constructor
      · intro h
        exact .inr ⟨earlier, rfl, h⟩
      · rintro (rfl | ⟨_, ⟨⟩, h⟩)
        · rfl
        · exact h
  | negation event links =>
    show (∃ answer, (event.ready now nodes).map not = some answer ∧
      (event.ready now nodes).map not = some answer) ↔ event.HasSource
    rw [← isSome_ready now nodes event]
    cases event.ready now nodes <;> simp

/-- A completion event of a machine with two nodes, under a negation, when neither node has
finished. -/
theorem not_negated_completion :
    ¬ (ofClass (.completion none) none : Event ℕ ℕ ℤ).Negated 0 (fun _ => .construct 0) 0 1 := by
  rintro ⟨answer, -, hnegation⟩
  cases hnegation

end Event

end NaoSoccer
