import NaoSoccer.Core.StateMachine
import NaoSoccer.Foundation.AcyclicWalk
import Mathlib.Algebra.Order.Ring.Int

/-!
# The loop of a state machine ends

`run` follows transitions until no event of the current node is ready.  A node that is entered has
been reset, so it can be left in the same call only by an event that is ready on a fresh node:
`NullEvent`, `SignalEvent(None)`, and `TimeEvent` and `IterationEvent` with a negative argument.  If
these transitions form no cycle then the nodes of a call after the first are all different, and a call
makes no more than two passes beyond the number of transitions.
-/

namespace NaoSoccer

open LabelledRun

variable {N S K : Type}

/-- The event is ready on a node that has been reset just now. -/
def EventClass.ReadyOnReset [Zero K] [LT K] : EventClass S K → Prop
  | .signal value => value = none
  | .completion _ => False
  | .failure => False
  | .null => True
  | .time t => t < 0
  | .iteration k => k < 0

/-- The event is ready on a node that has been reset just now, and no negation. -/
def Event.ReadyOnReset [Zero K] [LT K] (event : Event N S K) : Prop :=
  ∃ kind, event.IsOfClass kind ∧ kind.ReadyOnReset

namespace StateMachine

/-- None of the events is a negation. -/
def Plain (m : StateMachine N S K) : Prop := ∀ t ∈ m.transitions, ∃ kind, t.event.IsOfClass kind

/-- There is a transition between the nodes that can be ready on a fresh node. -/
def FreshEdge [Zero K] [LT K] (m : StateMachine N S K) (a b : N) : Prop :=
  ∃ t ∈ m.transitions, t.source = a ∧ t.target = b ∧ t.event.ReadyOnReset

/-- The state after some passes of a call of `run`. -/
def afterPasses [DecidableEq N] [DecidableEq S] [Zero K] [Sub K] [LT K] [DecidableEq K]
    [DecidableLT K] (m : StateMachine N S K) (n : ℕ) (s : MachineState N S K) :
    MachineState N S K :=
  LabelledRun.run m.step s (List.replicate n .pass)

variable [DecidableEq S] [AddGroup K] [LinearOrder K]

/-- An event that is ready on a fresh node is one of those that can be. -/
lemma readyOnReset_of_holds {now : K} {x : NodeState S K} {kind : EventClass S K}
    (h : kind.holds now (x.reset now) = true) : kind.ReadyOnReset := by
  cases kind with
  | signal value => exact (of_decide_eq_true h).symm
  | completion time =>
    cases time with
    | none => cases h
    | some t =>
      simp only [EventClass.holds] at h
      split at h <;> cases h
  | failure => cases h
  | null => trivial
  | time t =>
    have ht := of_decide_eq_true h
    simp only [NodeState.getTime, NodeState.reset, sub_self] at ht
    exact ht
  | iteration k =>
    have hk : ((0 : ℕ) : ℤ) > k := of_decide_eq_true h
    exact hk

variable [DecidableEq N]

/-- One more pass. -/
lemma afterPasses_succ (m : StateMachine N S K) (n : ℕ) (s : MachineState N S K) :
    m.afterPasses (n + 1) s = m.step .pass (m.afterPasses n s) := by
  unfold afterPasses
  rw [List.replicate_succ', run_append]
  rfl

/-- The loop goes on only if a transition fires. -/
lemma exists_fires {m : StateMachine N S K} {s : MachineState N S K}
    (h : (m.step .pass s).phase = .choosing) : ∃ t, m.Fires t s := by
  simp only [step] at h
  split at h
  · rename_i hphase
    unfold pass at h
    split at h
    · cases h
    · rename_i node hnode
      dsimp only at h
      split at h
      · cases h
      · exact ⟨_, hphase, node, hnode, ‹_›⟩
      · cases h
  · contradiction

/-- A transition that fires after another one in the same call is ready on a fresh node. -/
lemma readyOnReset_of_fires {m : StateMachine N S K} (hplain : m.Plain) {t u : Transition N S K}
    {s : MachineState N S K} (ht : m.Fires t s) (hu : m.Fires u (m.step .pass s)) :
    u.source = t.target ∧ u ∈ m.transitions ∧ u.event.ReadyOnReset := by
  have hsource : u.source = t.target := by
    have hnode := hu.node_eq
    rw [step_pass_of_fires ht, fire_node] at hnode
    exact (Option.some.inj hnode).symm
  obtain ⟨-, node, hnode, hfirst⟩ := hu
  have hmem : u ∈ m.transitions := List.mem_of_mem_filter (mem_of_ask_first hfirst)
  refine ⟨hsource, hmem, ?_⟩
  obtain ⟨kind, hkind⟩ := hplain u hmem
  refine ⟨kind, hkind, ?_⟩
  have hready := ready_of_ask_first hfirst
  rw [ready_linked hkind, hsource, step_pass_of_fires ht, fire_nodes_target, fire_now] at hready
  exact readyOnReset_of_holds (Option.some.inj hready)

/-- As long as the loop goes on, the nodes it enters make a walk along transitions that are ready on
fresh nodes. -/
lemma exists_walk {m : StateMachine N S K} (hplain : m.Plain) {s : MachineState N S K} {n : ℕ}
    (h : ∀ i ≤ n + 2, (m.afterPasses i s).phase = .choosing) :
    ∃ f : ℕ → N, ∀ i < n + 1, m.FreshEdge (f i) (f (i + 1)) := by
  have hfires : ∀ i ≤ n + 1, ∃ t, m.Fires t (m.afterPasses i s) := by
    intro i hi
    apply exists_fires
    rw [← afterPasses_succ]
    exact h (i + 1) (Nat.succ_le_succ hi)
  obtain ⟨t₀, -⟩ := hfires 0 (Nat.zero_le _)
  have : Nonempty (Transition N S K) := ⟨t₀⟩
  choose! t ht using hfires
  refine ⟨fun i => (t i).target, fun i hi => ?_⟩
  have hnext := ht (i + 1) hi
  rw [afterPasses_succ] at hnext
  obtain ⟨hsource, hmem, hready⟩ := readyOnReset_of_fires hplain (ht i (Nat.le_of_lt hi)) hnext
  exact ⟨t (i + 1), hmem, hsource, rfl, hready⟩

/-- `run` ends: after at most two passes beyond the number of transitions the machine has left the
loop.  A node that is entered in the call is left only by transitions that are ready on a fresh
node. -/
theorem run_ends {m : StateMachine N S K} (hplain : m.Plain)
    (hacyclic : AcyclicWalk.Acyclic m.FreshEdge) (s : MachineState N S K) :
    (∃ n ≤ m.transitions.length + 2, (m.afterPasses n s).phase ≠ .choosing) ∧
      ∀ n t u, m.Fires t (m.afterPasses n s) → m.Fires u (m.afterPasses (n + 1) s) →
        u.source = t.target ∧ u.event.ReadyOnReset := by
  constructor
  · by_contra hno
    push Not at hno
    obtain ⟨f, hf⟩ := exists_walk hplain hno
    have hsources : ∀ a b, m.FreshEdge a b → a ∈ m.transitions.map Transition.source := by
      rintro a b ⟨t, ht, rfl, -, -⟩
      exact List.mem_map_of_mem ht
    have hlength := AcyclicWalk.length_le hacyclic hsources hf
    rw [List.length_map] at hlength
    exact Nat.not_succ_le_self _ hlength
  · intro n t u ht hu
    rw [afterPasses_succ] at hu
    obtain ⟨hsource, -, hready⟩ := readyOnReset_of_fires hplain ht hu
    exact ⟨hsource, hready⟩

/-- Two nodes that are passed through in one frame, and a third. -/
def passThrough : StateMachine ℕ ℕ ℤ :=
  empty.addTransition 0 [(.ofClass .null none, 1), (.ofClass (.time (-1)) none, 2)]

/-- Its first call of `run` ends. -/
theorem run_ends_passThrough :
    let s := passThrough.step (.frame 0) (passThrough.initialState 0)
    (∃ n ≤ 4, (passThrough.afterPasses n s).phase ≠ .choosing) ∧
      ∀ n t u, passThrough.Fires t (passThrough.afterPasses n s) →
        passThrough.Fires u (passThrough.afterPasses (n + 1) s) →
          u.source = t.target ∧ u.event.ReadyOnReset := by
  apply run_ends (m := passThrough)
  · rintro t ht
    rcases List.mem_cons.mp ht with rfl | ht
    · exact ⟨.null, rfl⟩
    · obtain rfl := List.mem_singleton.mp ht
      exact ⟨.time (-1), rfl⟩
  · apply AcyclicWalk.acyclic_of_rank fun node => 2 - node
    rintro a b ⟨t, ht, rfl, rfl, -⟩
    rcases List.mem_cons.mp ht with rfl | ht
    · decide
    · obtain rfl := List.mem_singleton.mp ht
      decide

end StateMachine

end NaoSoccer
