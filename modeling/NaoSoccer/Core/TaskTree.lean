import NaoSoccer.Foundation.OneShot
import Mathlib.Data.Fintype.Basic
import Mathlib.Data.List.FinRange

/-!
# Trees of behaviour tasks

The objects of `task.py` and the nodes of `state_machine.py` that wrap a task.  A `TaskTree` is what
is fixed when the objects are constructed, a `TaskState` of it is what they remember.  `Methods` are
the methods of an object; each class gives them from those of its children.

A leaf has a `run` of its own.  What it does there is a function of the number of its runs since its
reset, so a run is observed as that number.  Runs of a tree are those that run no other task, and
next to them its events are the calls of `finish()`.

`_started`, the timer and the counters of frames and iterations decide about no run and are left
out, and so is `_chainIndexes`, which is only written.  None of these runs returns a task, so
`Task.processFrame` has nothing to pass to `setSubtask` or `setChain`, and nothing aborts a task.
-/

namespace NaoSoccer

/-! ## Events -/

/-- What a task does. -/
inductive TaskAction
  /-- A run that runs no other task, counted since the reset from one on. -/
  | ran (run : ℕ)
  /-- A call of `finish()`. -/
  | finish
  deriving DecidableEq, Repr

/-- An action and the path to the task whose action it is. -/
structure TaskEvent where
  path : List ℕ
  action : TaskAction
  deriving DecidableEq, Repr

/-- An event of a child, as one of its parent. -/
def TaskEvent.under (i : ℕ) (e : TaskEvent) : TaskEvent := ⟨i :: e.path, e.action⟩

/-! ## Objects -/

/-- The `run` method of a `Task` with `n` children. -/
inductive RunMethod (n : ℕ)
  /-- A method of its own that calls `finish()` in some of its runs. -/
  | own (finishes : ℕ → Bool)
  /-- `Task.run`, with the value of `_chain`. -/
  | walkChain (chain : List (Fin n))

/-- The objects of a tree as they are constructed: a `Task` with the value of `_subtask`, a
`MultiTask` with its chains, a `TaskNode` and a `MachineNode` with what they wrap. -/
inductive TaskTree
  | task {n : ℕ} (run : RunMethod n) (subtask : Option (Fin n)) (children : Fin n → TaskTree)
  | multiTask {n : ℕ} (idpChains : Bool) (length : Fin n → ℕ)
      (chains : (i : Fin n) → Fin (length i) → TaskTree)
  | taskNode (task : TaskTree)
  | machineNode (submachine : TaskTree)

/-- The fields of a `BaseTask`, with the number of its runs since its reset. -/
structure BaseTask where
  finished : Bool
  runs : ℕ

/-- What the objects of a tree remember.  The list `_subtasks` of a `MultiTask` is empty at first
and then as long as its list of chains. -/
inductive TaskState : TaskTree → Type
  | task {n : ℕ} {run : RunMethod n} {initial : Option (Fin n)} {children : Fin n → TaskTree}
      (base : BaseTask) (subtask : Option (Fin n)) (states : (i : Fin n) → TaskState (children i)) :
      TaskState (.task run initial children)
  | multiTask {n : ℕ} {idpChains : Bool} {length : Fin n → ℕ}
      {chains : (i : Fin n) → Fin (length i) → TaskTree}
      (base : BaseTask) (subtasks : Option ((i : Fin n) → Option (Fin (length i))))
      (states : (i : Fin n) → (j : Fin (length i)) → TaskState (chains i j)) :
      TaskState (.multiTask idpChains length chains)
  | taskNode {task : TaskTree} (base : BaseTask) (state : TaskState task) :
      TaskState (.taskNode task)
  | machineNode {submachine : TaskTree} (base : BaseTask) (state : TaskState submachine) :
      TaskState (.machineNode submachine)

/-- The fields of `BaseTask` in an object. -/
def TaskState.base : {t : TaskTree} → TaskState t → BaseTask
  | _, .task base _ _ => base
  | _, .multiTask base _ _ => base
  | _, .taskNode base _ => base
  | _, .machineNode base _ => base

/-- `BaseTask.finished` -/
def TaskState.finished {t : TaskTree} (s : TaskState t) : Bool := s.base.finished

namespace BaseTask

/-- `BaseTask.reset` -/
def reset : BaseTask := ⟨false, 0⟩

/-- `BaseTask.finish`, for a task that has not finished. -/
def finish (b : BaseTask) : BaseTask × List TaskEvent :=
  ({ b with finished := true }, [⟨[], .finish⟩])

/-- A run that runs no other task, and may call `finish()`. -/
def run (finishes : ℕ → Bool) (b : BaseTask) : BaseTask × List TaskEvent :=
  if finishes (b.runs + 1) then
    (⟨true, b.runs + 1⟩, [⟨[], .ran (b.runs + 1)⟩, ⟨[], .finish⟩])
  else ({ b with runs := b.runs + 1 }, [⟨[], .ran (b.runs + 1)⟩])

end BaseTask

/-- The state after construction. -/
def TaskTree.fresh : (t : TaskTree) → TaskState t
  | .task _ subtask children => .task .reset subtask fun i => (children i).fresh
  | .multiTask _ _ chains => .multiTask .reset none fun i j => (chains i j).fresh
  | .taskNode t => .taskNode .reset t.fresh
  | .machineNode submachine => .machineNode .reset submachine.fresh

/-- `BaseTask.reset`, `MultiTask.reset`, `TaskNode.reset` and `MachineNode.reset` -/
def TaskState.reset : {t : TaskTree} → TaskState t → TaskState t
  | _, .task _ subtask states => .task .reset subtask states
  | _, .multiTask _ subtasks states => .multiTask .reset subtasks fun i j => (states i j).reset
  | _, .taskNode _ state => .taskNode .reset state.reset
  | _, .machineNode _ state => .machineNode .reset state.reset

/-! ## Methods -/

/-- The methods of an object that its parent calls. -/
structure Methods (t : TaskTree) where
  startrun : TaskState t → TaskState t × List TaskEvent
  processFrame : TaskState t → TaskState t × List TaskEvent

section Children

variable {n : ℕ} {S : Fin n → Type}

/-- Call a method of one child, if there is one to call it on. -/
def onChild (call : (i : Fin n) → S i → S i × List TaskEvent) (child : Option (Fin n))
    (states : (i : Fin n) → S i) : ((i : Fin n) → S i) × List TaskEvent :=
  match child with
  | none => (states, [])
  | some i => (Function.update states i (call i (states i)).1, (call i (states i)).2.map (.under i))

/-- Call a method for every chain, in their order. -/
def onChains (call : (i : Fin n) → S i → S i × List TaskEvent) (states : (i : Fin n) → S i) :
    ((i : Fin n) → S i) × List TaskEvent :=
  (fun i => (call i (states i)).1,
    (List.finRange n).flatMap fun i => (call i (states i)).2.map (.under i))

/-- A subtask, unless it has finished. -/
def unfinished {children : Fin n → TaskTree} (states : (i : Fin n) → TaskState (children i))
    (subtask : Option (Fin n)) : Option (Fin n) :=
  subtask.filter fun i => !(states i).finished

/-- The first task of a chain that has not finished. -/
def firstUnfinished {children : Fin n → TaskTree} (states : (i : Fin n) → TaskState (children i))
    (chain : List (Fin n)) : Option (Fin n) :=
  chain.find? fun i => !(states i).finished

end Children

namespace Task

variable {n : ℕ} {initial : Option (Fin n)} {children : Fin n → TaskTree}

/-- The `run` of a `Task`.  `Task.run` starts the first task of the chain that has not finished and
keeps it as the subtask. -/
def run (method : RunMethod n) (methods : (i : Fin n) → Methods (children i)) (base : BaseTask)
    (subtask : Option (Fin n)) (states : (i : Fin n) → TaskState (children i)) :
    TaskState (.task method initial children) × List TaskEvent :=
  match method with
  | .own finishes => (.task (base.run finishes).1 subtask states, (base.run finishes).2)
  | .walkChain [] =>
    (.task (base.run fun _ => false).1 subtask states, (base.run fun _ => false).2)
  | .walkChain (link :: chain) =>
    match firstUnfinished states (link :: chain) with
    | some i =>
      let called := onChild (fun i => (methods i).startrun) (some i) states
      (.task base (some i) called.1, called.2)
    | none => (.task base.finish.1 subtask states, base.finish.2)

/-- `BaseTask._startrun` -/
def startrun (method : RunMethod n) (methods : (i : Fin n) → Methods (children i)) :
    TaskState (.task method initial children) →
      TaskState (.task method initial children) × List TaskEvent
  | .task base subtask states =>
    if base.finished then (.task base subtask states, [])
    else run method methods base subtask states

/-- `Task.processFrame` -/
def processFrame (method : RunMethod n) (methods : (i : Fin n) → Methods (children i)) :
    TaskState (.task method initial children) →
      TaskState (.task method initial children) × List TaskEvent
  | .task base subtask states =>
    match unfinished states subtask with
    | some i =>
      let called := onChild (fun i => (methods i).processFrame) (some i) states
      (.task base subtask called.1, called.2)
    | none => startrun method methods (.task base subtask states)

end Task

namespace MultiTask

variable {n : ℕ} {idpChains : Bool} {length : Fin n → ℕ}
  {chains : (i : Fin n) → Fin (length i) → TaskTree}

/-- The subtask of a chain. -/
def subtask (subtasks : Option ((i : Fin n) → Option (Fin (length i)))) (i : Fin n) :
    Option (Fin (length i)) :=
  subtasks.elim none fun f => f i

/-- The task of each chain that `MultiTask.run` starts. -/
def started (states : (i : Fin n) → (j : Fin (length i)) → TaskState (chains i j)) (i : Fin n) :
    Option (Fin (length i)) :=
  firstUnfinished (states i) (List.finRange (length i))

/-- The loop of `MultiTask.run` -/
def startChains (methods : (i : Fin n) → (j : Fin (length i)) → Methods (chains i j))
    (states : (i : Fin n) → (j : Fin (length i)) → TaskState (chains i j)) :
    ((i : Fin n) → (j : Fin (length i)) → TaskState (chains i j)) × List TaskEvent :=
  onChains (fun i => onChild (fun j => (methods i j).startrun) (started states i)) states

/-- The loop of `MultiTask.processFrame` -/
def processSubtasks (methods : (i : Fin n) → (j : Fin (length i)) → Methods (chains i j))
    (subtasks : Option ((i : Fin n) → Option (Fin (length i))))
    (states : (i : Fin n) → (j : Fin (length i)) → TaskState (chains i j)) :
    ((i : Fin n) → (j : Fin (length i)) → TaskState (chains i j)) × List TaskEvent :=
  onChains (fun i => onChild (fun j => (methods i j).processFrame)
    (unfinished (states i) (subtask subtasks i))) states

/-- `MultiTask.run` -/
def run (methods : (i : Fin n) → (j : Fin (length i)) → Methods (chains i j)) (base : BaseTask)
    (subtasks : Option ((i : Fin n) → Option (Fin (length i))))
    (states : (i : Fin n) → (j : Fin (length i)) → TaskState (chains i j)) :
    TaskState (.multiTask idpChains length chains) × List TaskEvent :=
  if n = 0 then
    (.multiTask (base.run fun _ => false).1 subtasks states, (base.run fun _ => false).2)
  else
    let kept := some fun i => (started states i).or (subtask subtasks i)
    let called := startChains methods states
    if ∀ i, started states i = none then
      (.multiTask base.finish.1 kept called.1, called.2 ++ base.finish.2)
    else (.multiTask base kept called.1, called.2)

/-- `BaseTask._startrun` -/
def startrun (methods : (i : Fin n) → (j : Fin (length i)) → Methods (chains i j)) :
    TaskState (.multiTask idpChains length chains) →
      TaskState (.multiTask idpChains length chains) × List TaskEvent
  | .multiTask base subtasks states =>
    if base.finished then (.multiTask base subtasks states, [])
    else run methods base subtasks states

/-- `MultiTask.processFrame` -/
def processFrame (methods : (i : Fin n) → (j : Fin (length i)) → Methods (chains i j)) :
    TaskState (.multiTask idpChains length chains) →
      TaskState (.multiTask idpChains length chains) × List TaskEvent
  | .multiTask base subtasks states =>
    let someFinished : Bool :=
      subtasks.isSome && decide (∃ i, unfinished (states i) (subtask subtasks i) = none)
    let allFinished : Bool := decide (∀ i, unfinished (states i) (subtask subtasks i) = none)
    let called := processSubtasks methods subtasks states
    if someFinished && idpChains || allFinished then
      let next := startrun methods (.multiTask base subtasks called.1)
      (next.1, called.2 ++ next.2)
    else (.multiTask base subtasks called.1, called.2)

end MultiTask

namespace TaskNode

variable {task : TaskTree}

/-- `TaskNode.run` -/
def run (methods : Methods task) (base : BaseTask) (state : TaskState task) :
    TaskState (.taskNode task) × List TaskEvent :=
  let called := methods.processFrame state
  if called.1.finished then
    (.taskNode base.finish.1 called.1, called.2.map (.under 0) ++ base.finish.2)
  else (.taskNode base called.1, called.2.map (.under 0))

/-- `BaseTask._startrun`, and `Node.processFrame`: a node has no subtask. -/
def startrun (methods : Methods task) :
    TaskState (.taskNode task) → TaskState (.taskNode task) × List TaskEvent
  | .taskNode base state =>
    if base.finished then (.taskNode base state, []) else run methods base state

end TaskNode

namespace MachineNode

variable {submachine : TaskTree}

/-- `MachineNode.run` -/
def run (methods : Methods submachine) (base : BaseTask) (state : TaskState submachine) :
    TaskState (.machineNode submachine) × List TaskEvent :=
  if state.finished then (.machineNode base.finish.1 state, base.finish.2)
  else
    let called := methods.processFrame state
    (.machineNode base called.1, called.2.map (.under 0))

/-- `BaseTask._startrun`, and `Node.processFrame`: a node has no subtask. -/
def startrun (methods : Methods submachine) :
    TaskState (.machineNode submachine) → TaskState (.machineNode submachine) × List TaskEvent
  | .machineNode base state =>
    if base.finished then (.machineNode base state, []) else run methods base state

end MachineNode

namespace TaskTree

/-- The methods of the object at the root of a tree. -/
def methods : (t : TaskTree) → Methods t
  | .task run _ children =>
    ⟨Task.startrun run fun i => (children i).methods,
      Task.processFrame run fun i => (children i).methods⟩
  | .multiTask _ _ chains =>
    ⟨MultiTask.startrun fun i j => (chains i j).methods,
      MultiTask.processFrame fun i j => (chains i j).methods⟩
  | .taskNode t => ⟨TaskNode.startrun t.methods, TaskNode.startrun t.methods⟩
  | .machineNode submachine =>
    ⟨MachineNode.startrun submachine.methods, MachineNode.startrun submachine.methods⟩

/-- `BaseTask._startrun` of the root. -/
def startrun (t : TaskTree) : TaskState t → TaskState t × List TaskEvent := t.methods.startrun

/-- `processFrame` of the root. -/
def processFrame (t : TaskTree) : TaskState t → TaskState t × List TaskEvent :=
  t.methods.processFrame

/-- `processFrame` of a tree whose root is a multitask. -/
lemma processFrame_multiTask {n : ℕ} {idpChains : Bool} {length : Fin n → ℕ}
    {chains : (i : Fin n) → Fin (length i) → TaskTree}
    (s : TaskState (.multiTask idpChains length chains)) :
    (multiTask idpChains length chains).processFrame s =
      MultiTask.processFrame (fun i j => (chains i j).methods) s := rfl

/-- `_startrun` of a tree whose root is a multitask. -/
lemma startrun_multiTask {n : ℕ} {idpChains : Bool} {length : Fin n → ℕ}
    {chains : (i : Fin n) → Fin (length i) → TaskTree}
    (s : TaskState (.multiTask idpChains length chains)) :
    (multiTask idpChains length chains).startrun s =
      MultiTask.startrun (fun i j => (chains i j).methods) s := rfl

/-- The state of a constructed tree after some frames. -/
def afterFrames (t : TaskTree) (n : ℕ) : TaskState t := OneShot.after t.processFrame n t.fresh

/-- From this state, `reset()` starts the tree over: whatever number of frames follows, each has the
events that it has in a tree that has been constructed just now. -/
def StartsOver (t : TaskTree) (s : TaskState t) : Prop :=
  ∀ m, OneShot.trace t.processFrame m s.reset = OneShot.trace t.processFrame m t.fresh

end TaskTree

end NaoSoccer
