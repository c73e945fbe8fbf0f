import NaoSoccer.Core.StateMachine
import Mathlib.Algebra.Order.Ring.Int

/-!
# Signals of a state machine

When a transition fires its target receives the signal that its source has posted.  The target then
holds it until it finishes or until it receives another one.

The source is finished after the target has received the signal, and a node that finishes forgets
the signal it holds.  So the signal of a transition from a node to itself is lost.  A negation over
an event that has a transition of its own delivers the signal of this event without firing it.
-/

namespace NaoSoccer

open LabelledRun

namespace StateMachine

variable {N S K : Type} [DecidableEq N] [DecidableEq S]

section Property

variable [Zero K] [Sub K] [LT K] [DecidableEq K] [DecidableLT K]

/-- This move fires a transition to the node. -/
def Enters (m : StateMachine N S K) (node : N) (a : MachineMove N S K)
    (s : MachineState N S K) : Prop :=
  a = .pass ∧ ∃ t, t.target = node ∧ m.Fires t s

/-- Signals travel along transitions: when a transition fires, and later for as long as its target
has not finished and has not been entered again, the target holds what the source had posted. -/
def SignalsTravel (m : StateMachine N S K) (s : MachineState N S K)
    (moves : List (MachineMove N S K)) : Prop :=
  ∀ i t, Happens m.step (fun a s => a = .pass ∧ m.Fires t s) s moves i →
    ∀ j, i < j → (∀ k, i < k → k < j → ¬ Happens m.step (m.Enters t.target) s moves k) →
      ((stateAt m.step s moves j).nodes t.target).complete = false →
        ((stateAt m.step s moves j).nodes t.target).inSignal =
          ((stateAt m.step s moves i).nodes t.source).outSignal

/-- A pass loses no signal of the current node.  If a transition from the node to itself fires, the
node has not posted a signal.  If none fires, its events deliver to it only what it holds. -/
def Delivers (m : StateMachine N S K) (a : MachineMove N S K) (s : MachineState N S K) : Prop :=
  a = .pass →
    (∀ t, m.Fires t s → t.target = t.source → (s.nodes t.source).outSignal = none) ∧
    ((∀ t, ¬ m.Fires t s) → s.phase = .choosing → ∀ node, s.node = some node →
      ∀ t ∈ m.events node, ∀ d ∈ t.linked.delivery s.nodes,
        d.1 = node → d.2 = (s.nodes node).inSignal)

end Property

/-! ## Deliveries -/

/-- Asking an event changes no signal that has been posted. -/
lemma deliver_outSignal (nodes : N → NodeState S K) (event : Event N S K) (n : N) :
    (event.deliver nodes n).outSignal = (nodes n).outSignal := by
  obtain ⟨value, hvalue⟩ := event.deliver_eq nodes n
  rw [hvalue]
  rfl

/-- An event that delivers to a node what it holds leaves it as it is. -/
lemma deliver_inSignal {nodes : N → NodeState S K} {event : Event N S K} {node : N}
    (h : ∀ d ∈ event.delivery nodes, d.1 = node → d.2 = (nodes node).inSignal) :
    (event.deliver nodes node).inSignal = (nodes node).inSignal := by
  unfold Event.deliver
  cases hd : event.delivery nodes with
  | none => rfl
  | some d =>
    by_cases hn : node = d.1
    · subst hn
      simp only [Function.update_self]
      exact h d hd rfl
    · simp only [Function.update_of_ne hn]

omit [DecidableEq N] in
/-- What an event delivers depends on what has been posted. -/
lemma delivery_congr {nodes nodes' : N → NodeState S K}
    (h : ∀ n, (nodes n).outSignal = (nodes' n).outSignal) (event : Event N S K) :
    event.delivery nodes = event.delivery nodes' := by
  induction event with
  | negation event links ih => exact ih
  | ofClass kind links => cases kind <;> cases links <;> simp [Event.delivery, h]

section Ready

variable [Zero K] [Sub K] [LT K] [DecidableEq K] [DecidableLT K]

/-- The events of a node that deliver to it what it holds leave it as it is. -/
lemma ask_inSignal {now : K} {ts : List (Transition N S K)} {nodes : N → NodeState S K} {node : N}
    (h : ∀ t ∈ ts, ∀ d ∈ t.linked.delivery nodes, d.1 = node → d.2 = (nodes node).inSignal) :
    ((ask now ts nodes).1 node).inSignal = (nodes node).inSignal := by
  induction ts generalizing nodes with
  | nil => rfl
  | cons t rest ih =>
    have hfirst : (t.linked.deliver nodes node).inSignal = (nodes node).inSignal :=
      deliver_inSignal (h t List.mem_cons_self)
    rw [ask]
    split
    · rfl
    · exact hfirst
    · refine (ih fun u hu d hd => ?_).trans hfirst
      rw [delivery_congr (deliver_outSignal nodes t.linked)] at hd
      rw [hfirst]
      exact h u (List.mem_cons_of_mem t hu) d hd

end Ready

/-! ## A signal on its way -/

/-- A node that has not finished now had not finished before, and holds the same signal. -/
def KeepsSignal (before now : NodeState S K) : Prop :=
  now.complete = false → before.complete = false ∧ now.inSignal = before.inSignal

/-- The node has finished, or it is the current one and holds this signal. -/
def Holding (node : N) (signal : Option S) (s : MachineState N S K) : Prop :=
  (s.nodes node).complete = false → (s.nodes node).inSignal = signal ∧ s.node = some node

omit [DecidableEq S] in
/-- A call finishes a node or leaves the signal that it holds. -/
lemma keepsSignal_call {now : K} {before : NodeState S K} (x : NodeState S K) (c : NodeCall S)
    (h : KeepsSignal before x) : KeepsSignal before (x.call now c) := by
  cases c with
  | finish => exact fun hfalse => absurd hfalse Bool.true_eq_false.mp
  | abort => exact fun hfalse => absurd hfalse Bool.true_eq_false.mp
  | _ => exact h

omit [DecidableEq S] in
/-- A node that is started keeps its signal. -/
lemma keepsSignal_start {now : K} {before : NodeState S K} (x : NodeState S K)
    (h : KeepsSignal before x) : KeepsSignal before (x.start now) := by
  unfold NodeState.start
  split <;> exact h

variable [Zero K] [Sub K] [LT K] [DecidableEq K] [DecidableLT K]

/-- Every move but one that enters the node keeps the signal that it holds. -/
lemma holding_step {m : StateMachine N S K} {node : N} {signal : Option S}
    {a : MachineMove N S K} {s : MachineState N S K} (henters : ¬ m.Enters node a s)
    (hdelivers : m.Delivers a s) (h : Holding node signal s) :
    Holding node signal (m.step a s) := by
  have hkept : ∀ s' : MachineState N S K, KeepsSignal (s.nodes node) (s'.nodes node) →
      s'.node = s.node → Holding node signal s' := by
    intro s' hkeeps hnode hcomplete
    obtain ⟨hbefore, hsignal⟩ := hkeeps hcomplete
    rw [hsignal, hnode]
    exact h hbefore
  have hself : KeepsSignal (s.nodes node) (s.nodes node) := fun hcomplete => ⟨hcomplete, rfl⟩
  have heffect := m.effect_step a s
  revert heffect
  generalize m.step a s = s'
  intro heffect
  cases heffect with
  | stays hnodes hnode =>
    refine hkept s' ?_ hnode
    rw [hnodes]
    exact hself
  | calls hnodes hnode' =>
    refine hkept s' ?_ hnode'
    rw [hnodes]
    exact makeCalls_preserves keepsSignal_call hself _
  | processes hphase hnode hnodes hnode' =>
    refine hkept s' ?_ hnode'
    rw [hnodes]
    exact processNode_preserves keepsSignal_call keepsSignal_start hself _ _
  | @asked s' current hphase hnode hasked hnodes hnode' =>
    refine hkept s' ?_ hnode'
    rw [hnodes]
    intro hcomplete
    obtain ⟨value, hvalue⟩ := ask_eq s.now (m.events current) s.nodes node
    have hbefore : (s.nodes node).complete = false := by
      rw [hvalue] at hcomplete
      exact hcomplete
    obtain rfl : current = node := Option.some.inj (hnode.symm.trans (h hbefore).2)
    refine ⟨hbefore, ask_inSignal ((hdelivers rfl).2 ?_ hphase current hnode)⟩
    rintro t ⟨-, node, hnode', hfirst⟩
    obtain rfl : current = node := Option.some.inj (hnode.symm.trans hnode')
    exact hasked t hfirst
  | @fires t hfires =>
    have htarget : node ≠ t.target := fun hn => henters ⟨rfl, t, hn.symm, hfires⟩
    intro hcomplete
    rw [fire_nodes_of_ne m t.source _ htarget] at hcomplete
    obtain ⟨value, hvalue⟩ := ask_eq s.now (m.events t.source) s.nodes node
    split at hcomplete
    · cases hcomplete
    · rename_i hsource
      have hbefore : (s.nodes node).complete = false := by
        dsimp only at hcomplete
        rw [hvalue] at hcomplete
        exact hcomplete
      have hcurrent := (h hbefore).2
      rw [hfires.node_eq] at hcurrent
      exact absurd (Option.some.inj hcurrent).symm hsource

/-- When a transition fires its target holds the signal of the source, unless they are the same node
and a signal has been posted. -/
lemma holding_fire {m : StateMachine N S K} {t : Transition N S K} {s : MachineState N S K}
    (hfires : m.Fires t s) (hdelivers : m.Delivers .pass s) :
    Holding t.target (s.nodes t.source).outSignal (m.step .pass s) := by
  rw [step_pass_of_fires hfires]
  intro _
  refine ⟨?_, m.fire_node t.source t _⟩
  obtain ⟨value, hvalue⟩ := ask_eq s.now (m.events t.source) s.nodes t.source
  have hsent : ((ask s.now (m.events t.source) s.nodes).1 t.source).outSignal =
      (s.nodes t.source).outSignal := by
    rw [hvalue]
    rfl
  rw [fire_nodes_target]
  dsimp only
  split
  · rename_i hloop
    exact ((hdelivers rfl).1 t hfires hloop).symm
  · exact hsent

/-- The signals of a run travel if no pass loses one. -/
theorem signalsTravel_of_delivers {m : StateMachine N S K} {s : MachineState N S K}
    {moves : List (MachineMove N S K)} (h : Guarded m.step m.Delivers s moves) :
    m.SignalsTravel s moves := by
  rintro i t ⟨a, ha, rfl, hfires⟩ j hij hno hcomplete
  have hfired : Holding t.target ((stateAt m.step s moves i).nodes t.source).outSignal
      (stateAt m.step s moves (i + 1)) := by
    rw [stateAt_succ ha]
    refine holding_fire hfires ?_
    by_contra hnot
    exact h.not_happens i ⟨_, ha, hnot⟩
  have hlater : Holding t.target ((stateAt m.step s moves i).nodes t.source).outSignal
      (stateAt m.step s moves j) := by
    refine invariant_between (E := fun a s => m.Enters t.target a s ∨ ¬ m.Delivers a s)
      (fun a s hE => ?_) hij hfired fun k hik hkj => ?_
    · rw [not_or, not_not] at hE
      exact holding_step hE.1 hE.2
    · rintro ⟨a, hk, henters | hnot⟩
      · exact hno k hik hkj ⟨a, hk, henters⟩
      · exact h.not_happens k ⟨a, hk, hnot⟩
  exact (hlater hcomplete).1

/-- A node that posts the signal that takes the machine to the next one. -/
def handOver : StateMachine ℕ ℕ ℤ :=
  empty.addTransition 0 [(.ofClass (.signal (some 5)) none, 1)]

/-- The first node posts its signal in the first frame, and the machine goes on in the second. -/
theorem signalsTravel_handOver :
    handOver.SignalsTravel (handOver.initialState 0)
      [.frame 0, .pass, .process [(0, .postSignal (some 5))], .frame 1, .pass, .process []] := by
  apply signalsTravel_of_delivers
  refine ⟨nofun, fun _ => ⟨?_, ?_⟩, nofun, nofun, fun _ => ⟨?_, ?_⟩, nofun, trivial⟩
  · rintro t ⟨-, node, ⟨⟩, hfirst⟩
    cases hfirst
  · rintro - - node ⟨⟩ t ht d hd
    obtain rfl := List.mem_singleton.mp ht
    cases hd
  · rintro t ⟨-, node, ⟨⟩, hfirst⟩
    cases hfirst
    decide
  · intro hunfired
    exact absurd ⟨rfl, 0, rfl, rfl⟩ (hunfired ⟨0, .ofClass (.signal (some 5)) none, 1⟩)

/-- The same with a transition from the node to itself. -/
def selfLoop : StateMachine ℕ ℕ ℤ :=
  empty.addTransition 0 [(.ofClass (.signal (some 5)) none, 0)]

/-- The signal of a transition from a node to itself is lost: the node is entered, has not finished
and holds nothing. -/
theorem not_signalsTravel_selfLoop :
    ¬ selfLoop.SignalsTravel (selfLoop.initialState 0)
      [.frame 0, .pass, .process [(0, .postSignal (some 5))], .frame 1, .pass] := by
  intro h
  have hfires : selfLoop.Fires ⟨0, .ofClass (.signal (some 5)) none, 0⟩
      (stateAt selfLoop.step (selfLoop.initialState 0)
        [.frame 0, .pass, .process [(0, .postSignal (some 5))], .frame 1, .pass] 4) :=
    ⟨rfl, 0, rfl, rfl⟩
  have hholds := h 4 _ ⟨.pass, rfl, rfl, hfires⟩ 5 (by decide) (by intro k hk hk'; omega) rfl
  exact absurd hholds (by decide)

end StateMachine

end NaoSoccer
