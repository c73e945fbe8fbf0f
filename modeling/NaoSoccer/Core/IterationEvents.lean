import NaoSoccer.Core.StateMachine
import Mathlib.Algebra.Order.Ring.Int

/-!
# Iteration events

`IterationEvent(k)` compares `k` with the iterations of its source.  These are counted in
`BaseTask.start`, which does nothing once the node has been started, so from one reset to the next
the count is one at most.  Next to the machine we count how often the current node has been processed
since it was entered, and how often this went as far as `start`: a node that is aborted, that has a
subtask which has not finished, or that has one which has and a queued completion, is processed
without being started.
-/

namespace NaoSoccer

open LabelledRun

variable {N S K : Type}

/-- Processing the node goes as far as `start`. -/
def NodeState.reachesStart (x : NodeState S K) : Bool :=
  !(x.subtask = some true && x.queue) && !x.aborted && !(x.subtask = some false)

/-- A machine, and how often its current node has been processed since it was entered: in all, and as
far as `start`. -/
structure Counted (N S K : Type) where
  machine : MachineState N S K
  processed : ℕ
  starts : ℕ

namespace NodeState

/-- No call changes what has been counted. -/
lemma call_counts {now : K} {started : Bool} {iterations : ℕ} (x : NodeState S K)
    (c : NodeCall S) (h : x.started = started ∧ x.iterations = iterations) :
    (x.call now c).started = started ∧ (x.call now c).iterations = iterations := by
  cases c <;> exact h

/-- A node that has been started has been counted once. -/
def StartedOnce (starts : ℕ) (x : NodeState S K) : Prop :=
  x.started = decide (0 < starts) ∧ x.iterations = min starts 1

/-- `start` counts a node that has not been started. -/
lemma startedOnce_start {now : K} {starts : ℕ} {x : NodeState S K} (h : x.StartedOnce starts) :
    (x.start now).StartedOnce (starts + 1) := by
  obtain ⟨hstarted, hiterations⟩ := h
  unfold start
  split
  · rename_i htrue
    have hpos : 0 < starts := of_decide_eq_true (hstarted.symm.trans htrue)
    refine ⟨?_, ?_⟩
    · simp [htrue]
    · omega
  · rename_i hfalse
    have hzero : starts = 0 := by
      rw [hstarted, decide_eq_true_iff] at hfalse
      omega
    subst hzero
    exact ⟨rfl, congrArg (· + 1) hiterations⟩

end NodeState

variable [DecidableEq N]

/-- A node that is processed is started if this goes as far as `start`. -/
lemma startedOnce_processNode {now : K} {starts : ℕ} {node : N} {nodes : N → NodeState S K}
    (h : (nodes node).StartedOnce starts) (calls : List (N × NodeCall S)) :
    (processNode now calls node nodes node).StartedOnce
      (if (nodes node).reachesStart then starts + 1 else starts) := by
  have hcalls : ∀ {n : ℕ} {nodes' : N → NodeState S K}, (nodes' node).StartedOnce n →
      (makeCalls now nodes' calls node).StartedOnce n :=
    fun h' => makeCalls_preserves NodeState.call_counts h' calls
  have hstart : (Function.update nodes node ((nodes node).start now) node).StartedOnce
      (starts + 1) := by
    rw [Function.update_self]
    exact NodeState.startedOnce_start h
  unfold processNode
  dsimp only
  by_cases hqueued : ((nodes node).subtask = some true && (nodes node).queue) = true
  · have hreach : (nodes node).reachesStart = false := by simp [NodeState.reachesStart, hqueued]
    rw [if_pos hqueued, hreach, Function.update_self]
    exact h
  by_cases haborted : (nodes node).aborted = true
  · have hreach : (nodes node).reachesStart = false := by simp [NodeState.reachesStart, haborted]
    rw [if_neg hqueued, if_pos haborted, hreach]
    exact h
  by_cases hsubtask : (nodes node).subtask = some false
  · have hreach : (nodes node).reachesStart = false := by simp [NodeState.reachesStart, hsubtask]
    rw [if_neg hqueued, if_neg haborted, if_pos hsubtask, hreach]
    exact hcalls h
  have hreach : (nodes node).reachesStart = true := by
    simp only [NodeState.reachesStart, hqueued, haborted, hsubtask]
    rfl
  rw [if_neg hqueued, if_neg haborted, if_neg hsubtask, hreach, if_pos rfl]
  split
  · exact hstart
  · exact hcalls hstart

namespace StateMachine

variable [DecidableEq S] [Zero K] [Sub K] [LT K] [DecidableEq K] [DecidableLT K]

/-- The next pass fires a transition. -/
def fires (m : StateMachine N S K) (s : MachineState N S K) : Bool :=
  match s.phase, s.node with
  | .choosing, some node =>
    match (ask s.now (m.events node) s.nodes).2 with
    | .first _ => true
    | _ => false
  | _, _ => false

/-- One move, and what it adds to the counts. -/
def count (m : StateMachine N S K) : MachineMove N S K → Counted N S K → Counted N S K
  | .pass, c =>
    if m.fires c.machine then ⟨m.step .pass c.machine, 0, 0⟩
    else { c with machine := m.step .pass c.machine }
  | .process calls, c =>
    if c.machine.phase = .processing then
      let reached := c.machine.node.any fun node => (c.machine.nodes node).reachesStart
      ⟨m.step (.process calls) c.machine, c.processed + 1,
        if reached then c.starts + 1 else c.starts⟩
    else { c with machine := m.step (.process calls) c.machine }
  | a, c => { c with machine := m.step a c.machine }

/-- A pass fires a transition if the test says so. -/
lemma fires_iff {m : StateMachine N S K} {s : MachineState N S K} :
    m.fires s = true ↔ ∃ t, m.Fires t s := by
  unfold fires
  constructor
  · intro h
    split at h
    · rename_i node hphase hnode
      split at h
      · exact ⟨_, hphase, node, hnode, ‹_›⟩
      · cases h
    · cases h
  · rintro ⟨t, hphase, node, hnode, hfirst⟩
    rw [hphase, hnode]
    dsimp only
    rw [hfirst]

/-- A pass that fires no transition leaves the current node where it is, and delivers signals at
most. -/
lemma step_pass_of_not_fires {m : StateMachine N S K} {s : MachineState N S K}
    (h : ∀ t, ¬ m.Fires t s) :
    (m.step .pass s).node = s.node ∧
      ∀ n, ∃ value, (m.step .pass s).nodes n = (s.nodes n).receiveSignal value := by
  have heffect := m.effect_step .pass s
  revert heffect
  generalize m.step .pass s = s'
  intro heffect
  cases heffect with
  | stays hnodes hnode => exact ⟨hnode, fun n => ⟨_, by rw [hnodes]; rfl⟩⟩
  | asked hphase hnode hasked hnodes hnode' =>
    rw [hnodes]
    exact ⟨hnode', ask_eq _ _ _⟩
  | fires hfires => exact absurd hfires (h _)

/-- The counts of the current node, and what the node has counted. -/
def Sound (c : Counted N S K) : Prop :=
  c.starts ≤ c.processed ∧
    ∀ node, c.machine.node = some node → (c.machine.nodes node).StartedOnce c.starts

/-- No move leads away from what is counted. -/
lemma sound_count (m : StateMachine N S K) (a : MachineMove N S K) {c : Counted N S K}
    (h : Sound c) : Sound (m.count a c) := by
  obtain ⟨hle, hnode⟩ := h
  cases a with
  | pass =>
    simp only [count]
    split
    · rename_i hfires
      obtain ⟨t, ht⟩ := fires_iff.mp hfires
      refine ⟨Nat.le_refl _, fun node hcurrent => ?_⟩
      dsimp only at hcurrent ⊢
      rw [step_pass_of_fires ht, fire_node] at hcurrent
      obtain rfl := Option.some.inj hcurrent
      rw [step_pass_of_fires ht, fire_nodes_target]
      exact ⟨rfl, rfl⟩
    · rename_i hfires
      rw [fires_iff, not_exists] at hfires
      obtain ⟨hsame, hnodes⟩ := step_pass_of_not_fires hfires
      refine ⟨hle, fun node hcurrent => ?_⟩
      dsimp only at hcurrent ⊢
      rw [hsame] at hcurrent
      obtain ⟨value, hvalue⟩ := hnodes node
      rw [hvalue]
      exact hnode node hcurrent
  | process calls =>
    simp only [count]
    split
    · rename_i hphase
      refine ⟨by dsimp only; split <;> omega, fun node hcurrent => ?_⟩
      simp only [step, hphase, if_true] at hcurrent ⊢
      cases hnode' : c.machine.node with
      | none =>
        rw [hnode'] at hcurrent
        cases hcurrent
      | some current =>
        rw [hnode'] at hcurrent
        obtain rfl := Option.some.inj hcurrent
        exact startedOnce_processNode (hnode current hnode') calls
    · rename_i hphase
      refine ⟨hle, fun node hcurrent => ?_⟩
      simp only [step, hphase, if_false] at hcurrent ⊢
      exact hnode node hcurrent
  | call n call =>
    simp only [count, step]
    split
    · refine ⟨hle, fun node hcurrent => ?_⟩
      exact makeCalls_preserves NodeState.call_counts (hnode node hcurrent) _
    · exact ⟨hle, hnode⟩
  | frame now => simp only [count, step]; split <;> exact ⟨hle, hnode⟩
  | finish => simp only [count, step]; split <;> exact ⟨hle, hnode⟩
  | abort => simp only [count, step]; split <;> exact ⟨hle, hnode⟩

/-- The counts are right in every run of a machine whose nodes have been constructed. -/
lemma sound_run (m : StateMachine N S K) (now : K) (moves : List (MachineMove N S K)) :
    Sound (run m.count ⟨m.initialState now, 0, 0⟩ moves) :=
  run_preserves (fun a _ h => sound_count m a h)
    ⟨Nat.le_refl _, fun _ _ => ⟨rfl, rfl⟩⟩ moves

/-- The event with this argument, on an edge that leaves the node, is ready exactly when the node has
been processed more often than that since it was entered. -/
def CountsIterations (k : ℕ) (node target : N) (c : Counted N S K) : Prop :=
  ((Event.ofClass (.iteration k) none).linkTo node target).ready c.machine.now c.machine.nodes =
    some true ↔ k < c.processed

/-- An iteration event counts right up to its argument, and beyond it only if the argument is zero,
as soon as the node has been started. -/
theorem countsIterations_iff (m : StateMachine N S K) (now : K) (moves : List (MachineMove N S K))
    (k : ℕ) (node target : N) :
    let c := run m.count ⟨m.initialState now, 0, 0⟩ moves
    c.machine.node = some node →
      (CountsIterations k node target c ↔ c.processed ≤ k ∨ k = 0 ∧ 0 < c.starts) := by
  intro c hcurrent
  obtain ⟨hle, hsound⟩ := m.sound_run now moves
  have hiterations : (c.machine.nodes node).iterations = min c.starts 1 :=
    (hsound node hcurrent).2
  have hstarts : c.starts ≤ c.processed := hle
  have hready : ((Event.ofClass (.iteration k) none).linkTo node target).ready c.machine.now
      c.machine.nodes = some true ↔ k < (c.machine.nodes node).iterations := by
    simp [Event.linkTo, Event.ready, EventClass.holds]
  unfold CountsIterations
  rw [hready, hiterations]
  omega

/-- A machine that goes on after two iterations of its first node. -/
def twoIterations : StateMachine ℕ ℕ ℤ := empty.addTransition 0 [(.ofClass (.iteration 1) none, 1)]

/-- The node has been processed twice, and the event is not ready. -/
theorem not_countsIterations_twoIterations :
    ¬ CountsIterations 1 0 1 (run twoIterations.count ⟨twoIterations.initialState 0, 0, 0⟩
      [.frame 0, .pass, .process [], .frame 1, .pass, .process []]) := by
  intro h
  exact absurd (h.mpr (by decide)) (by decide)

/-- One iteration is counted right. -/
theorem countsIterations_iff_oneIteration :
    let c := run twoIterations.count ⟨twoIterations.initialState 0, 0, 0⟩
      [.frame 0, .pass, .process []]
    CountsIterations 0 0 1 c ↔ c.processed ≤ 0 ∨ 0 = 0 ∧ 0 < c.starts := by
  exact countsIterations_iff twoIterations 0 _ 0 0 1 rfl

end StateMachine

end NaoSoccer
