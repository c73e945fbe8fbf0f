import NaoSoccer.Foundation.LabelledRun
import Mathlib.Algebra.Group.Basic
import Mathlib.Data.Int.Notation
import Mathlib.Logic.Function.Basic
import Mathlib.Order.Defs.LinearOrder

/-!
# State machines

A `StateMachine` of `state_machine.py` is a task whose nodes are tasks.  In a frame it follows
transitions, from the current node to the target of the first of its events that is ready, until
none is ready or the finish node is reached; then it processes the node where it is.

The loop of `run` makes one `pass` after the other.  A run of a machine is a list of moves: frames
begin, passes are made, the current node is processed, and between the frames other code calls
methods of the nodes.  What a node or its subtask does when it is processed is given as the calls
that it makes.  Only the machine resets its nodes and delivers signals to them, and a node is started
by being processed.  `setup` builds the graph anew when the machine is reset, so a run goes from one
reset of the machine to the next.

An event that fires is reset at once, so `started` and `fired` decide nothing and are left out.  Each
event object is given to one transition.  Under a negation there may be an event that has a
transition of its own, and then it has the links of that one.  `stop` of a timer is never called, so
the time that has passed is that since its start.  Times are exact numbers.
-/

namespace NaoSoccer

/-! ## Nodes -/

/-- The fields of a `Node`.  Of its subtask only `finished()` is read. -/
structure NodeState (S K : Type) where
  started : Bool
  finished : Bool
  aborted : Bool
  timer : K
  iterations : ℕ
  failure : Bool
  complete : Bool
  queue : Bool
  outSignal : Option S
  inSignal : Option S
  subtask : Option Bool
  deriving DecidableEq

/-- What code calls on a node.  `subtask` sets the subtask, or changes its `finished()`. -/
inductive NodeCall (S : Type)
  | finish
  | abort
  | postFailure
  | queueCompleted
  | postSignal (signal : Option S)
  | resetTime
  | subtask (finished : Bool)

namespace NodeState

variable {S K : Type}

/-- `Node.reset` -/
def reset (now : K) (x : NodeState S K) : NodeState S K :=
  { x with
    started := false
    finished := false
    aborted := false
    timer := now
    iterations := 0
    failure := false
    complete := false
    queue := false
    outSignal := none
    subtask := none }

/-- `Node.__init__` -/
def construct (now : K) : NodeState S K :=
  ⟨false, false, false, now, 0, false, false, false, none, none, none⟩

/-- `BaseTask.start` -/
def start (now : K) (x : NodeState S K) : NodeState S K :=
  if x.started then x
  else { x with timer := now, started := true, iterations := x.iterations + 1 }

/-- `Node.finish` -/
def finish (x : NodeState S K) : NodeState S K :=
  { x with complete := true, inSignal := none, finished := true }

/-- `Task.abort` -/
def abort (x : NodeState S K) : NodeState S K :=
  { x.finish with aborted := true, subtask := x.subtask.map fun _ => true }

/-- `Node.receiveSignal` -/
def receiveSignal (signal : Option S) (x : NodeState S K) : NodeState S K :=
  { x with inSignal := signal }

/-- A call of a method. -/
def call (now : K) (x : NodeState S K) : NodeCall S → NodeState S K
  | .finish => x.finish
  | .abort => x.abort
  | .postFailure => { x with failure := true }
  | .queueCompleted => { x with queue := true }
  | .postSignal signal => { x with outSignal := signal }
  | .resetTime => { x with timer := now }
  | .subtask finished => { x with subtask := some finished }

/-- `BaseTask.getTime` -/
def getTime [Sub K] (now : K) (x : NodeState S K) : K := now - x.timer

end NodeState

section Nodes

variable {N S K : Type} [DecidableEq N]

/-- The calls that are made on nodes, one after the other. -/
def makeCalls (now : K) (nodes : N → NodeState S K) :
    List (N × NodeCall S) → N → NodeState S K
  | [] => nodes
  | (node, c) :: rest =>
    makeCalls now (Function.update nodes node ((nodes node).call now c)) rest

/-- `Node.processFrame`, where the `run` of the node or the `processFrame` of its subtask makes these
calls. -/
def processNode (now : K) (calls : List (N × NodeCall S)) (node : N)
    (nodes : N → NodeState S K) : N → NodeState S K :=
  let x := nodes node
  if x.subtask = some true && x.queue then Function.update nodes node x.finish
  else if x.aborted then nodes
  else if x.subtask = some false then makeCalls now nodes calls
  else
    let nodes := Function.update nodes node (x.start now)
    if x.finished then nodes else makeCalls now nodes calls

end Nodes

/-! ## Events -/

/-- The classes of events but `NegationEvent`, with their arguments. -/
inductive EventClass (S K : Type)
  | signal (signal : Option S)
  | completion (time : Option K)
  | failure
  | null
  | time (time : K)
  | iteration (iterations : ℤ)

/-- An event with its links, the source and the target, if it has been given to a transition. -/
inductive Event (N S K : Type)
  | ofClass (kind : EventClass S K) (links : Option (N × N))
  | negation (event : Event N S K) (links : Option (N × N))

/-- `ready` of an event, as a function of the state of its source. -/
def EventClass.holds {S K : Type} [DecidableEq S] [Zero K] [Sub K] [LT K] [DecidableEq K]
    [DecidableLT K] (now : K) (x : NodeState S K) : EventClass S K → Bool
  | .signal value => x.outSignal = value
  | .completion none => x.complete
  | .completion (some t) => if t ≠ 0 then x.complete && x.getTime now > t else x.complete
  | .failure => x.failure
  | .null => true
  | .time t => x.getTime now > t
  | .iteration k => (x.iterations : ℤ) > k

namespace Event

variable {N S K : Type}

/-- The event is of this class, and no negation. -/
def IsOfClass (kind : EventClass S K) : Event N S K → Prop
  | .ofClass kind' _ => kind' = kind
  | .negation _ _ => False

/-- `_add_transition` sets the links of the event. -/
def linkTo (source target : N) : Event N S K → Event N S K
  | .ofClass kind _ => .ofClass kind (some (source, target))
  | .negation event _ => .negation event (some (source, target))

section Ready

variable [DecidableEq S] [Zero K] [Sub K] [LT K] [DecidableEq K] [DecidableLT K]

/-- The value of `ready()`.  An event without links raises an exception when it looks at its source,
which is `None`; only `NullEvent` does not look. -/
def ready (now : K) (nodes : N → NodeState S K) : Event N S K → Option Bool
  | .ofClass .null _ => some true
  | .ofClass _ none => none
  | .ofClass kind (some (source, _)) => some (kind.holds now (nodes source))
  | .negation event _ => (event.ready now nodes).map not

/-- No event looks at the signal that a node has received. -/
lemma ready_congr {now : K} {nodes nodes' : N → NodeState S K}
    (h : ∀ n, ∃ value, nodes' n = (nodes n).receiveSignal value) (event : Event N S K) :
    event.ready now nodes' = event.ready now nodes := by
  induction event with
  | negation event links ih => exact congrArg (Option.map not) ih
  | ofClass kind links =>
    cases links with
    | none => cases kind <;> rfl
    | some link =>
      obtain ⟨value, hvalue⟩ := h link.1
      cases kind with
      | completion time =>
        cases time <;> simp only [ready, EventClass.holds, hvalue] <;> rfl
      | _ => simp only [ready, EventClass.holds, hvalue] <;> rfl

end Ready

variable [DecidableEq S]

/-- The signal that `ready()` delivers, and the node that receives it. -/
def delivery (nodes : N → NodeState S K) : Event N S K → Option (N × Option S)
  | .ofClass (.signal signal) (some (source, target)) =>
    if (nodes source).outSignal = signal then some (target, signal) else none
  | .ofClass _ _ => none
  | .negation event _ => event.delivery nodes

/-- The nodes after `ready()`. -/
def deliver [DecidableEq N] (nodes : N → NodeState S K) (event : Event N S K) :
    N → NodeState S K :=
  match event.delivery nodes with
  | none => nodes
  | some (target, signal) =>
    Function.update nodes target ((nodes target).receiveSignal signal)

/-- Asking an event delivers a signal at most. -/
lemma deliver_eq [DecidableEq N] (nodes : N → NodeState S K) (event : Event N S K) (n : N) :
    ∃ value, event.deliver nodes n = (nodes n).receiveSignal value := by
  unfold deliver
  cases event.delivery nodes with
  | none => exact ⟨_, rfl⟩
  | some d =>
    by_cases hn : n = d.1
    · subst hn
      exact ⟨d.2, Function.update_self ..⟩
    · exact ⟨_, Function.update_of_ne hn ..⟩

end Event

/-! ## Machines -/

/-- A transition as it is given to `add_transition`. -/
structure Transition (N S K : Type) where
  source : N
  event : Event N S K
  target : N

/-- The event of a transition when it has been added. -/
def Transition.linked {N S K : Type} (t : Transition N S K) : Event N S K :=
  t.event.linkTo t.source t.target

/-- The graph of a `StateMachine` after its `setup`: the transitions in the order in which they were
added, the start node and the finish node. -/
structure StateMachine (N S K : Type) where
  transitions : List (Transition N S K)
  node : Option N
  finishNode : Option N

/-- Where the machine is in a frame: outside, in the loop of `run`, behind the loop, or nowhere
because an exception has been raised, which turns the interpreter off. -/
inductive FramePhase
  | idle
  | choosing
  | processing
  | raised
  deriving DecidableEq, Repr

/-- The state of a machine and of its nodes, and the time of the frame. -/
structure MachineState (N S K : Type) where
  nodes : N → NodeState S K
  node : Option N
  finished : Bool
  aborted : Bool
  now : K
  phase : FramePhase

/-- What the loop over the events of a node comes to. -/
inductive Asked (N S K : Type)
  | none
  | first (t : Transition N S K)
  | raised

/-- The moves of a run: `processFrame` is called, the loop of `run` makes a pass, `run` processes the
current node, other code calls a method of a node, or `finish` or `abort` of the machine. -/
inductive MachineMove (N S K : Type)
  | frame (now : K)
  | pass
  | process (calls : List (N × NodeCall S))
  | call (node : N) (c : NodeCall S)
  | finish
  | abort

namespace StateMachine

variable {N S K : Type}

/-! ### Setup -/

/-- `StateMachine.reset`, before `setup`. -/
def empty : StateMachine N S K := ⟨[], none, none⟩

/-- The loop of `_add_transition` -/
def addChain : N → List (Event N S K × N) → StateMachine N S K → StateMachine N S K
  | _, [], m => m
  | source, (event, target) :: rest, m =>
    addChain target rest
      { m with
        transitions := m.transitions ++ [⟨source, event, target⟩]
        finishNode := some target }

/-- `StateMachine._add_transition` -/
def addTransition (source : N) (rest : List (Event N S K × N)) (m : StateMachine N S K) :
    StateMachine N S K :=
  addChain source rest { m with node := m.node.or (some source) }

/-- `StateMachine.setStart` -/
def setStart (node : Option N) (m : StateMachine N S K) : StateMachine N S K :=
  { m with node := node }

/-- `StateMachine.setFinish` -/
def setFinish (node : Option N) (m : StateMachine N S K) : StateMachine N S K :=
  { m with finishNode := node }

/-- The machine when it has been reset, with nodes that have been constructed. -/
def initialState (now : K) (m : StateMachine N S K) : MachineState N S K :=
  ⟨fun _ => .construct now, m.node, false, false, now, .idle⟩

/-! ### Moves -/

variable [DecidableEq N]

/-- The transitions of `node.events`. -/
def events (m : StateMachine N S K) (node : N) : List (Transition N S K) :=
  m.transitions.filter fun t => t.source = node

/-- The transitions of a node leave it. -/
lemma source_of_mem_events {m : StateMachine N S K} {node : N} {t : Transition N S K}
    (ht : t ∈ m.events node) : t.source = node :=
  of_decide_eq_true (List.mem_filter.mp ht).2

/-- A transition fires. -/
def fire (m : StateMachine N S K) (source : N) (t : Transition N S K)
    (s : MachineState N S K) : MachineState N S K :=
  let signal := (s.nodes source).outSignal
  let nodes := Function.update s.nodes t.target ((s.nodes t.target).receiveSignal signal)
  let nodes := Function.update nodes source (nodes source).finish
  let nodes := Function.update nodes t.target ((nodes t.target).reset s.now)
  if some t.target = m.finishNode then
    { s with nodes := nodes, node := some t.target, finished := true, phase := .processing }
  else { s with nodes := nodes, node := some t.target }

/-- The target of a transition that fires is the current node. -/
@[simp] lemma fire_node (m : StateMachine N S K) (source : N) (t : Transition N S K)
    (s : MachineState N S K) : (m.fire source t s).node = some t.target := by
  unfold fire
  dsimp only
  split <;> rfl

/-- The time does not change when a transition fires. -/
@[simp] lemma fire_now (m : StateMachine N S K) (source : N) (t : Transition N S K)
    (s : MachineState N S K) : (m.fire source t s).now = s.now := by
  unfold fire
  dsimp only
  split <;> rfl

/-- The target of a transition that fires has been reset, after it received the signal and, if it is
the source as well, has been finished. -/
lemma fire_nodes_target (m : StateMachine N S K) (source : N) (t : Transition N S K)
    (s : MachineState N S K) :
    (m.fire source t s).nodes t.target =
      let x := (s.nodes t.target).receiveSignal (s.nodes source).outSignal
      (if t.target = source then x.finish else x).reset s.now := by
  unfold fire
  dsimp only
  by_cases hsource : t.target = source
  · subst hsource
    split <;> simp
  · split <;> simp [hsource]

/-- When a transition fires its source is finished, and no other node but its target is changed. -/
lemma fire_nodes_of_ne (m : StateMachine N S K) (source : N) {t : Transition N S K}
    (s : MachineState N S K) {n : N} (hn : n ≠ t.target) :
    (m.fire source t s).nodes n = if n = source then (s.nodes n).finish else s.nodes n := by
  unfold fire
  dsimp only
  by_cases hsource : n = source
  · subst hsource
    split <;> simp [Function.update_of_ne hn]
  · split <;> simp [Function.update_of_ne hn, hsource]

variable [DecidableEq S] [Zero K] [Sub K] [LT K] [DecidableEq K] [DecidableLT K]

omit [DecidableEq N] in
/-- The event of a transition looks at its source. -/
lemma ready_linked {now : K} {nodes : N → NodeState S K} {t : Transition N S K}
    {kind : EventClass S K} (h : t.event.IsOfClass kind) :
    t.linked.ready now nodes = some (kind.holds now (nodes t.source)) := by
  unfold Transition.linked
  cases hevent : t.event with
  | ofClass kind' links =>
    rw [hevent] at h
    obtain rfl : kind' = kind := h
    cases kind' <;> rfl
  | negation event links =>
    rw [hevent] at h
    exact h.elim

/-- The loop over the events of the current node, up to the first that is ready. -/
def ask (now : K) : List (Transition N S K) → (N → NodeState S K) →
    (N → NodeState S K) × Asked N S K
  | [], nodes => (nodes, .none)
  | t :: rest, nodes =>
    match t.linked.ready now nodes with
    | none => (nodes, .raised)
    | some true => (t.linked.deliver nodes, .first t)
    | some false => ask now rest (t.linked.deliver nodes)

/-- The body of the loop of `run` -/
def pass (m : StateMachine N S K) (s : MachineState N S K) : MachineState N S K :=
  match s.node with
  | none => { s with phase := .idle }
  | some node =>
    let asked := ask s.now (m.events node) s.nodes
    let s := { s with nodes := asked.1 }
    match asked.2 with
    | .none => { s with phase := .processing }
    | .first t => m.fire node t s
    | .raised => { s with phase := .raised }

/-- One move. -/
def step (m : StateMachine N S K) : MachineMove N S K → MachineState N S K → MachineState N S K
  | .frame now, s =>
    if s.phase = .idle then
      { s with now := now, phase := if s.aborted || s.finished then .idle else .choosing }
    else s
  | .pass, s => if s.phase = .choosing then m.pass s else s
  | .process calls, s =>
    if s.phase = .processing then
      match s.node with
      | none => { s with phase := .idle }
      | some node => { s with nodes := processNode s.now calls node s.nodes, phase := .idle }
    else s
  | .call node c, s =>
    if s.phase = .idle then { s with nodes := makeCalls s.now s.nodes [(node, c)] } else s
  | .finish, s => if s.phase = .idle then { s with finished := true } else s
  | .abort, s => if s.phase = .idle then { s with finished := true, aborted := true } else s

/-- In this state a pass fires this transition of the current node. -/
def Fires (m : StateMachine N S K) (t : Transition N S K) (s : MachineState N S K) : Prop :=
  s.phase = .choosing ∧
    ∃ node, s.node = some node ∧ (ask s.now (m.events node) s.nodes).2 = .first t

/-! ### What a move does -/

/-- The transition that is found is one of those that are asked. -/
lemma mem_of_ask_first {now : K} {ts : List (Transition N S K)} {nodes : N → NodeState S K}
    {t : Transition N S K} (h : (ask now ts nodes).2 = .first t) : t ∈ ts := by
  induction ts generalizing nodes with
  | nil => cases h
  | cons u rest ih =>
    rw [ask] at h
    split at h
    · cases h
    · cases h
      exact List.mem_cons_self
    · exact List.mem_cons_of_mem u (ih h)

/-- A transition that fires leaves the current node. -/
lemma Fires.node_eq {m : StateMachine N S K} {t : Transition N S K} {s : MachineState N S K}
    (h : m.Fires t s) : s.node = some t.source := by
  obtain ⟨-, node, hnode, hfirst⟩ := h
  rw [hnode, source_of_mem_events (mem_of_ask_first hfirst)]

/-- Asking the events of a node delivers signals at most. -/
lemma ask_eq (now : K) (ts : List (Transition N S K)) (nodes : N → NodeState S K) (n : N) :
    ∃ value, (ask now ts nodes).1 n = (nodes n).receiveSignal value := by
  induction ts generalizing nodes with
  | nil => exact ⟨_, rfl⟩
  | cons t rest ih =>
    rw [ask]
    split
    · exact ⟨_, rfl⟩
    · exact t.linked.deliver_eq nodes n
    · obtain ⟨value, hvalue⟩ := ih (t.linked.deliver nodes)
      obtain ⟨delivered, hdelivered⟩ := t.linked.deliver_eq nodes n
      exact ⟨value, by rw [hvalue, hdelivered]; rfl⟩

/-- The transition that is found is ready. -/
lemma ready_of_ask_first {now : K} {ts : List (Transition N S K)} {nodes : N → NodeState S K}
    {t : Transition N S K} (h : (ask now ts nodes).2 = .first t) :
    t.linked.ready now nodes = some true := by
  induction ts generalizing nodes with
  | nil => cases h
  | cons u rest ih =>
    rw [ask] at h
    split at h
    · cases h
    · cases h
      assumption
    · rw [← Event.ready_congr (u.linked.deliver_eq nodes)]
      exact ih h

/-- The move that fires a transition. -/
lemma step_pass_of_fires {m : StateMachine N S K} {t : Transition N S K} {s : MachineState N S K}
    (h : m.Fires t s) :
    m.step .pass s =
      m.fire t.source t { s with nodes := (ask s.now (m.events t.source) s.nodes).1 } := by
  obtain ⟨hphase, node, hnode, hfirst⟩ := h
  obtain rfl : t.source = node := source_of_mem_events (mem_of_ask_first hfirst)
  simp only [step, hphase, if_true, pass, hnode, hfirst]

/-- What a move does to the nodes and to the current node. -/
inductive Effect (m : StateMachine N S K) (s : MachineState N S K) :
    MachineMove N S K → MachineState N S K → Prop
  /-- Neither changes. -/
  | stays {a s'} (hnodes : s'.nodes = s.nodes) (hnode : s'.node = s.node) : Effect m s a s'
  /-- A pass finds no event that is ready. -/
  | asked {s'} {node : N} (hphase : s.phase = .choosing) (hnode : s.node = some node)
      (hasked : ∀ t, (ask s.now (m.events node) s.nodes).2 ≠ .first t)
      (hnodes : s'.nodes = (ask s.now (m.events node) s.nodes).1) (hnode' : s'.node = s.node) :
      Effect m s .pass s'
  /-- A pass fires a transition. -/
  | fires {t : Transition N S K} (hfires : m.Fires t s) :
      Effect m s .pass
        (m.fire t.source t { s with nodes := (ask s.now (m.events t.source) s.nodes).1 })
  /-- The current node is processed. -/
  | processes {s' calls} {node : N} (hphase : s.phase = .processing) (hnode : s.node = some node)
      (hnodes : s'.nodes = processNode s.now calls node s.nodes) (hnode' : s'.node = s.node) :
      Effect m s (.process calls) s'
  /-- A method of a node is called. -/
  | calls {s'} {node : N} {c : NodeCall S} (hnodes : s'.nodes = makeCalls s.now s.nodes [(node, c)])
      (hnode' : s'.node = s.node) : Effect m s (.call node c) s'

/-- A pass asks the events of the current node and fires the first that is ready. -/
lemma effect_pass (m : StateMachine N S K) {s : MachineState N S K} (hphase : s.phase = .choosing) :
    Effect m s .pass (m.pass s) := by
  unfold pass
  split
  · exact .stays rfl rfl
  · rename_i node hnode
    dsimp only
    split
    · rename_i hasked
      exact .asked hphase hnode (fun t ht => by rw [hasked] at ht; cases ht) rfl rfl
    · rename_i t hasked
      have hfires : m.Fires t s := ⟨hphase, node, hnode, hasked⟩
      have hsource : t.source = node := source_of_mem_events (mem_of_ask_first hasked)
      subst hsource
      exact .fires hfires
    · rename_i hasked
      exact .asked hphase hnode (fun t ht => by rw [hasked] at ht; cases ht) rfl rfl

/-- Every move has one of these effects. -/
theorem effect_step (m : StateMachine N S K) (a : MachineMove N S K) (s : MachineState N S K) :
    Effect m s a (m.step a s) := by
  cases a with
  | pass =>
    simp only [step]
    split
    · exact effect_pass m ‹_›
    · exact .stays rfl rfl
  | process calls =>
    simp only [step]
    split
    · split
      · exact .stays rfl rfl
      · exact .processes ‹_› ‹_› rfl rfl
    · exact .stays rfl rfl
  | call node c =>
    simp only [step]
    split
    · exact .calls rfl rfl
    · exact .stays rfl rfl
  | frame now => simp only [step]; split <;> exact .stays rfl rfl
  | finish => simp only [step]; split <;> exact .stays rfl rfl
  | abort => simp only [step]; split <;> exact .stays rfl rfl

end StateMachine

/-! ### What is kept -/

section Kept

variable {N S K : Type} [DecidableEq N] {P : NodeState S K → Prop} {now : K}

/-- What every call keeps is kept by all calls. -/
lemma makeCalls_preserves (hcall : ∀ x c, P x → P (x.call now c)) {n : N}
    {nodes : N → NodeState S K} (h : P (nodes n)) (calls : List (N × NodeCall S)) :
    P (makeCalls now nodes calls n) := by
  induction calls generalizing nodes with
  | nil => exact h
  | cons c rest ih =>
    refine ih ?_
    by_cases hn : n = c.1
    · subst hn
      rw [Function.update_self]
      exact hcall _ _ h
    · rw [Function.update_of_ne hn]
      exact h

/-- What every call and `start` keep is kept when a node is processed. -/
lemma processNode_preserves (hcall : ∀ x c, P x → P (x.call now c))
    (hstart : ∀ x, P x → P (x.start now)) {n : N} {nodes : N → NodeState S K} (h : P (nodes n))
    (calls : List (N × NodeCall S)) (node : N) : P (processNode now calls node nodes n) := by
  have hupdate : ∀ x, (node = n → P x) → P (Function.update nodes node x n) := by
    intro x hx
    by_cases hn : node = n
    · subst hn
      rw [Function.update_self]
      exact hx rfl
    · rw [Function.update_of_ne (Ne.symm hn)]
      exact h
  unfold processNode
  dsimp only
  split
  · exact hupdate _ fun hn => hcall _ .finish (hn ▸ h)
  · split
    · exact h
    · split
      · exact makeCalls_preserves hcall h calls
      · have hstarted := hupdate ((nodes node).start now) fun hn => hstart _ (hn ▸ h)
        split
        · exact hstarted
        · exact makeCalls_preserves hcall hstarted calls

end Kept

end NaoSoccer
