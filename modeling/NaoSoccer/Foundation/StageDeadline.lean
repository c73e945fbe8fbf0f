import Mathlib.Algebra.Order.Group.Defs
import Mathlib.Tactic.Abel

/-!
# Deadlines of a machine with stages

A machine that is looked at in frames goes through stages.  It may stay in a stage for a limited
time, so it leaves it in the first frame past that limit.  If frames are at most `δ` apart, each
stage costs its limit and `δ`.

A stage is known by the time when it was entered, its limit and the time that all stages after it
may take together.  `OnTime` says that the machine is inside its stage and that the last of the
stages will be left until `T`.  Every frame keeps this (`OnTime.advances`), so a machine that is
still in one of the stages has not passed `T` (`OnTime.le_deadline`).
-/

namespace StageDeadline

variable {K : Type*} [AddCommGroup K] [LinearOrder K] [IsOrderedAddMonoid K]

/-- A stage of the machine. -/
structure Stage (K : Type*) where
  entered : K
  limit : K
  after : K

/-- Frames at most `δ` apart, the first one after the time `t`. -/
def Spaced {ι : Type*} (time : ι → K) (δ : K) : K → List ι → Prop
  | _, [] => True
  | t, frame :: frames => t ≤ time frame ∧ time frame ≤ t + δ ∧ Spaced time δ (time frame) frames

/-- At the time `t` the machine is inside the stage, and all stages are left until `T`. -/
structure OnTime (δ T t : K) (g : Stage K) : Prop where
  entered_le : g.entered ≤ t
  le_limit : t ≤ g.entered + g.limit
  deadline : g.entered + g.limit + δ + g.after ≤ T

/-- What a frame at the time `now` may do: the machine stays in its stage, or it enters a stage for
which there is time. -/
inductive Advances (δ now : K) (g : Stage K) : Stage K → Prop
  | stay (h : now ≤ g.entered + g.limit) : Advances δ now g g
  | move {g' : Stage K} (hentered : g'.entered = now) (hlimit : 0 ≤ g'.limit)
      (hafter : g'.limit + δ + g'.after ≤ g.after) : Advances δ now g g'

/-- A frame keeps the machine on time. -/
theorem OnTime.advances {δ T t now : K} {g g' : Stage K} (h : OnTime δ T t g) (hle : t ≤ now)
    (hnow : now ≤ t + δ) (hstep : Advances δ now g g') : OnTime δ T now g' := by
  cases hstep with
  | stay hlimit => exact ⟨h.entered_le.trans hle, hlimit, h.deadline⟩
  | move hentered hlimit hafter =>
    have hlate : now ≤ g.entered + g.limit + δ :=
      hnow.trans (add_le_add_left h.le_limit δ)
    refine ⟨hentered.le, ?_, ?_⟩
    · rw [hentered]
      exact le_add_of_nonneg_right hlimit
    · calc g'.entered + g'.limit + δ + g'.after = now + (g'.limit + δ + g'.after) := by
            rw [hentered]
            abel
        _ ≤ g.entered + g.limit + δ + g.after := add_le_add hlate hafter
        _ ≤ T := h.deadline

/-- A machine that is still in one of its stages has not passed the deadline. -/
theorem OnTime.le_deadline {δ T t : K} {g : Stage K} (h : OnTime δ T t g) (hδ : 0 ≤ δ)
    (hafter : 0 ≤ g.after) : t ≤ T :=
  calc t ≤ g.entered + g.limit := h.le_limit
    _ ≤ g.entered + g.limit + δ := le_add_of_nonneg_right hδ
    _ ≤ g.entered + g.limit + δ + g.after := le_add_of_nonneg_right hafter
    _ ≤ T := h.deadline

end StageDeadline
