import NaoSoccer.Core.TaskEvents

/-!
# When a reset starts a tree of tasks over

`reset()` clears the fields of the root.  A `MultiTask` and a node pass it on, a `Task` does not,
and neither a `Task` nor a `MultiTask` forgets its subtasks.  So a tree need not start over.

`Consistent` is what holds of the subtasks in every state.  `Restartable` is the condition on a
state under which `reset()` works, with a parameter for what comes first in a tree that has been
constructed just now: a `MultiTask` calls `_startrun` of its first tasks there, but `processFrame`
of them after a reset.  One frame brings the two trees into the same state; and a tree that is not
restartable has spent an event that a new tree emits, or shows another event in its first frame.
-/

namespace NaoSoccer

open OneShot

/-! ## The states of a tree -/

/-- The value of `_chain`, when `run` uses it. -/
def RunMethod.chain {n : ℕ} : RunMethod n → List (Fin n)
  | .own _ => []
  | .walkChain chain => chain

/-- A chain is at the task `j`: those before it have finished, and those after it are new. -/
structure MultiTask.At {m : ℕ} {chain : Fin m → TaskTree} (states : (j : Fin m) → TaskState (chain j))
    (j : Fin m) : Prop where
  before : ∀ k < j, (states k).finished = true
  ne_fresh : states j ≠ (chain j).fresh
  after : ∀ k, j < k → states k = (chain k).fresh

namespace TaskState

/-- What holds of the subtasks.  Only a chain moves the subtask of a `Task`, to a task that is not
new any more, and a chain of a `MultiTask` is at the task that is its subtask. -/
def Consistent : {t : TaskTree} → TaskState t → Prop
  | .task method initial children, .task base subtask states =>
    (∀ i, (states i).Consistent) ∧ (method.chain = [] → subtask = initial) ∧
      (method.chain ≠ [] → (∀ i, states i = (children i).fresh) →
        base = .reset ∧ subtask = initial)
  | .multiTask _ _ chains, .multiTask _ none states =>
    (∀ i j, (states i j).Consistent) ∧ ∀ i j, states i j = (chains i j).fresh
  | .multiTask (n := n) _ length _, .multiTask base (some subtasks) states =>
    (∀ i j, (states i j).Consistent) ∧ 0 < n ∧
      ((∀ i, subtasks i = none) → base.finished = true) ∧
      ∀ i, (subtasks i = none → length i = 0) ∧
        ∀ j, subtasks i = some j → MultiTask.At (states i) j
  | .taskNode _, .taskNode _ state => state.Consistent
  | .machineNode _, .machineNode _ state => state.Consistent

/-- A new tree has not finished. -/
@[simp] lemma finished_fresh (t : TaskTree) : t.fresh.finished = false := by
  cases t <;> rfl

/-- A tree that has been reset has not finished. -/
@[simp] lemma finished_reset {t : TaskTree} (s : TaskState t) : s.reset.finished = false := by
  cases s <;> rfl

/-- Resetting a new tree changes nothing. -/
@[simp] lemma reset_fresh (t : TaskTree) : t.fresh.reset = t.fresh := by
  induction t with
  | task => rfl
  | multiTask _ _ _ ih => simp only [TaskTree.fresh, reset, ih]
  | taskNode _ ih => simp only [TaskTree.fresh, reset, ih]
  | machineNode _ ih => simp only [TaskTree.fresh, reset, ih]

/-- In a new tree nothing has happened. -/
lemma notMem_spent_fresh (t : TaskTree) (e : TaskEvent) : e ∉ t.fresh.spent := by
  induction t generalizing e with
  | task _ _ _ ih =>
    rintro (he | ⟨i, e, he, -⟩)
    · rwa [BaseTask.spent_reset] at he
    · exact ih i e he
  | multiTask _ _ _ ih =>
    rintro (he | ⟨i, -, ⟨j, e, he, -⟩, -⟩)
    · rwa [BaseTask.spent_reset] at he
    · exact ih i j e he
  | taskNode _ ih =>
    rintro (he | ⟨i, e, he, -⟩)
    · rwa [BaseTask.spent_reset] at he
    · exact ih e he
  | machineNode _ ih =>
    rintro (he | ⟨i, e, he, -⟩)
    · rwa [BaseTask.spent_reset] at he
    · exact ih e he

/-- A new tree is consistent. -/
lemma consistent_fresh (t : TaskTree) : t.fresh.Consistent := by
  induction t with
  | task _ _ _ ih => exact ⟨ih, fun _ => rfl, fun _ _ => ⟨rfl, rfl⟩⟩
  | multiTask _ _ _ ih => exact ⟨ih, fun _ _ => rfl⟩
  | taskNode _ ih => exact ih
  | machineNode _ ih => exact ih

/-- A consistent tree in which nothing has happened is new. -/
lemma Consistent.eq_fresh {t : TaskTree} {s : TaskState t} (h : s.Consistent)
    (hspent : ∀ e, e ∉ s.spent) : s = t.fresh := by
  induction s with
  | task base subtask states ih =>
    obtain ⟨hstates, hown, hchain⟩ := h
    obtain rfl := BaseTask.eq_reset_of_spent fun e he => hspent e (Or.inl he)
    have hfresh i : states i = _ :=
      ih i (hstates i) fun e he => hspent _ (Or.inr ⟨i, e, he, rfl⟩)
    rename_i method initial children
    obtain rfl : subtask = initial := by
      by_cases hnil : method.chain = []
      · exact hown hnil
      · exact (hchain hnil hfresh).2
    rw [TaskTree.fresh, funext hfresh]
  | multiTask base subtasks states ih =>
    obtain rfl := BaseTask.eq_reset_of_spent fun e he => hspent e (Or.inl he)
    cases subtasks with
    | none =>
      obtain ⟨-, hfresh⟩ := h
      rw [TaskTree.fresh, funext fun i => funext (hfresh i)]
    | some subtasks =>
      obtain ⟨hstates, -, hfinished, hsubtasks⟩ := h
      have hnone i : subtasks i = none := by
        by_contra hi
        obtain ⟨j, hj⟩ := Option.ne_none_iff_exists'.mp hi
        refine ((hsubtasks i).2 j hj).ne_fresh (ih i j (hstates i j) fun e he => ?_)
        exact hspent _ (Or.inr ⟨i, _, ⟨j, e, he, rfl⟩, rfl⟩)
      exact absurd (hfinished hnone) nofun
  | taskNode base state ih =>
    obtain rfl := BaseTask.eq_reset_of_spent fun e he => hspent e (Or.inl he)
    rw [TaskTree.fresh, ih h fun e he => hspent _ (Or.inr ⟨0, e, he, rfl⟩)]
  | machineNode base state ih =>
    obtain rfl := BaseTask.eq_reset_of_spent fun e he => hspent e (Or.inl he)
    rw [TaskTree.fresh, ih h fun e he => hspent _ (Or.inr ⟨0, e, he, rfl⟩)]

/-- A reset forgets events and adds none. -/
lemma spent_reset_subset {t : TaskTree} (s : TaskState t) : s.reset.spent ⊆ s.spent := by
  induction s with
  | task base subtask states ih =>
    rintro e (he | he)
    · rw [BaseTask.spent_reset] at he
      exact absurd he (Set.notMem_empty e)
    · exact Or.inr he
  | multiTask base subtasks states ih =>
    rintro e (he | ⟨i, -, ⟨j, e, he, rfl⟩, rfl⟩)
    · rw [BaseTask.spent_reset] at he
      exact absurd he (Set.notMem_empty e)
    · exact Or.inr ⟨i, _, ⟨j, e, ih i j he, rfl⟩, rfl⟩
  | taskNode base state ih =>
    rintro e (he | ⟨i, e, he, rfl⟩)
    · rw [BaseTask.spent_reset] at he
      exact absurd he (Set.notMem_empty e)
    · exact Or.inr ⟨i, e, ih he, rfl⟩
  | machineNode base state ih =>
    rintro e (he | ⟨i, e, he, rfl⟩)
    · rw [BaseTask.spent_reset] at he
      exact absurd he (Set.notMem_empty e)
    · exact Or.inr ⟨i, e, ih he, rfl⟩

end TaskState

/-! ## Every method keeps a tree consistent -/

section Calls

variable {n : ℕ} {children : Fin n → TaskTree}
  {call : (i : Fin n) → TaskState (children i) → TaskState (children i) × List TaskEvent}
  {states : (i : Fin n) → TaskState (children i)}

/-- The child that is called. -/
lemma onChild_self (i : Fin n) : (onChild call (some i) states).1 i = (call i (states i)).1 :=
  Function.update_self i _ states

/-- A child that is not called stays as it is. -/
lemma onChild_of_ne {child : Option (Fin n)} {i : Fin n} (hi : child ≠ some i) :
    (onChild call child states).1 i = states i := by
  cases child with
  | none => rfl
  | some j => exact Function.update_of_ne (fun hij => hi (congrArg some hij.symm)) _ states

/-- After an event of its own a tree is not new. -/
lemma IsSound.ne_fresh {t : TaskTree} {call : TaskState t → TaskState t × List TaskEvent}
    (h : IsSound call) {s : TaskState t} (hs : s.finished = false) : (call s).1 ≠ t.fresh := by
  intro hfresh
  obtain ⟨e, he⟩ := List.exists_mem_of_ne_nil _ (h.emits s hs)
  apply TaskState.notMem_spent_fresh t e
  rw [← hfresh]
  exact (h.spends s).mem_of_mem he

/-- A call keeps the children consistent when it keeps each of them so. -/
lemma consistent_onChild (h : ∀ i s, s.Consistent → (call i s).1.Consistent)
    (hstates : ∀ i, (states i).Consistent) (child : Option (Fin n)) (i : Fin n) :
    ((onChild call child states).1 i).Consistent := by
  by_cases hi : child = some i
  · rw [hi, onChild_self]
    exact h i _ (hstates i)
  · rw [onChild_of_ne hi]
    exact hstates i

/-- The tasks before the first one that has not finished have finished. -/
lemma finished_of_lt_firstUnfinished {i k : Fin n}
    (hi : firstUnfinished states (List.finRange n) = some i) (hk : k < i) :
    (states k).finished = true := by
  have hfirst := (List.find?_eq_some_iff_getElem.mp hi).2
  obtain ⟨j, hj, hji, hbefore⟩ := hfirst
  rw [List.getElem_finRange] at hji
  have hkj : (k : ℕ) < j := by
    rw [← hji] at hk
    exact hk
  have hunfinished := hbefore k hkj
  rw [List.getElem_finRange] at hunfinished
  simpa using hunfinished

/-- All tasks have finished when there is no first one that has not. -/
lemma finished_of_firstUnfinished_eq_none {chain : List (Fin n)}
    (h : firstUnfinished states chain = none) {i : Fin n} (hi : i ∈ chain) :
    (states i).finished = true := by
  simpa using List.find?_eq_none.mp h i hi

end Calls

namespace Task

variable {n : ℕ} {method : RunMethod n} {initial : Option (Fin n)} {children : Fin n → TaskTree}
  {methods : (i : Fin n) → Methods (children i)} (h : ∀ i, (methods i).Sound)
include h

/-- `_startrun` keeps a task consistent when it keeps its children so. -/
lemma consistent_startrun
    (hmethods : ∀ i s, s.Consistent → ((methods i).startrun s).1.Consistent)
    (s : TaskState (.task method initial children)) (hs : s.Consistent) :
    (startrun method methods s).1.Consistent := by
  cases s with | task base subtask states
  rw [startrun]
  split
  · exact hs
  · obtain ⟨hstates, hown, hchain⟩ := hs
    cases method with
    | own finishes => exact ⟨hstates, hown, fun hne => absurd rfl hne⟩
    | walkChain chain =>
      cases chain with
      | nil => exact ⟨hstates, hown, fun hne => absurd rfl hne⟩
      | cons link chain =>
        rw [run]
        split
        next i hi =>
          refine ⟨consistent_onChild hmethods hstates _, fun h => absurd h (List.cons_ne_nil _ _), fun _ hfresh => ?_⟩
          have hne := (h i).startrun.ne_fresh (finished_of_firstUnfinished hi)
          exact absurd ((onChild_self i).symm.trans (hfresh i)) hne
        next hnone =>
          refine ⟨hstates, fun h => absurd h (List.cons_ne_nil _ _), fun _ hfresh => ?_⟩
          have hlink := finished_of_firstUnfinished_eq_none hnone List.mem_cons_self
          rw [hfresh link, TaskState.finished_fresh] at hlink
          exact absurd hlink Bool.false_ne_true

/-- `processFrame` keeps a task consistent when it keeps its children so. -/
lemma consistent_processFrame
    (hstartrun : ∀ i s, s.Consistent → ((methods i).startrun s).1.Consistent)
    (hprocess : ∀ i s, s.Consistent → ((methods i).processFrame s).1.Consistent)
    (s : TaskState (.task method initial children)) (hs : s.Consistent) :
    (processFrame method methods s).1.Consistent := by
  cases s with | task base subtask states
  rw [processFrame]
  split
  next i hi =>
    obtain ⟨hstates, hown, -⟩ := hs
    refine ⟨consistent_onChild hprocess hstates _, hown, fun _ hfresh => ?_⟩
    have hne := (h i).processFrame.ne_fresh (finished_of_unfinished hi)
    exact absurd ((onChild_self i).symm.trans (hfresh i)) hne
  · exact consistent_startrun h hstartrun _ hs

end Task

namespace MultiTask

variable {n : ℕ} {idpChains : Bool} {length : Fin n → ℕ}
  {chains : (i : Fin n) → Fin (length i) → TaskTree}
  {methods : (i : Fin n) → (j : Fin (length i)) → Methods (chains i j)}

/-- Calling the task that a chain is at leaves it there. -/
lemma At.onChild {m : ℕ} {chain : Fin m → TaskTree} {states : (j : Fin m) → TaskState (chain j)}
    {j : Fin m} (hat : At states j)
    {call : (j : Fin m) → TaskState (chain j) → TaskState (chain j) × List TaskEvent}
    (hcall : ∀ j, IsSound (call j)) :
    At (onChild call (unfinished states (some j)) states).1 j := by
  cases hchild : unfinished states (some j) with
  | none => exact hat
  | some k =>
    obtain rfl : j = k := Option.some.inj (Option.filter_eq_some_iff.mp hchild).1
    refine ⟨fun k hk => ?_, ?_, fun k hk => ?_⟩
    · rw [onChild_of_ne fun hjk => hk.ne (Option.some.inj hjk).symm]
      exact hat.before k hk
    · rw [onChild_self]
      exact (hcall j).ne_fresh (finished_of_unfinished hchild)
    · rw [onChild_of_ne fun hjk => hk.ne (Option.some.inj hjk)]
      exact hat.after k hk

/-- Starting the first task that has not finished takes a chain there, when it was not past it. -/
lemma at_onChild {m : ℕ} {chain : Fin m → TaskTree} {states : (j : Fin m) → TaskState (chain j)}
    {j : Fin m} (hj : firstUnfinished states (List.finRange m) = some j)
    (hafter : ∀ k, j < k → states k = (chain k).fresh)
    {call : (j : Fin m) → TaskState (chain j) → TaskState (chain j) × List TaskEvent}
    (hcall : ∀ j, IsSound (call j)) : At (onChild call (some j) states).1 j := by
  refine ⟨fun k hk => ?_, ?_, fun k hk => ?_⟩
  · rw [onChild_of_ne fun hjk => hk.ne (Option.some.inj hjk).symm]
    exact finished_of_lt_firstUnfinished hj hk
  · rw [onChild_self]
    exact (hcall j).ne_fresh (finished_of_firstUnfinished hj)
  · rw [onChild_of_ne fun hjk => hk.ne (Option.some.inj hjk)]
    exact hafter k hk

/-- A chain is not past the first of its tasks that has not finished. -/
lemma At.after_firstUnfinished {m : ℕ} {chain : Fin m → TaskTree}
    {states : (j : Fin m) → TaskState (chain j)} {i j : Fin m} (hat : At states i)
    (hj : firstUnfinished states (List.finRange m) = some j) :
    ∀ k, j < k → states k = (chain k).fresh := by
  intro k hk
  apply hat.after
  have hij : i ≤ j := by
    by_contra hji
    have hfinished := hat.before j (not_le.mp hji)
    rw [finished_of_firstUnfinished hj] at hfinished
    exact absurd hfinished Bool.false_ne_true
  exact hij.trans_lt hk

/-- What consistency says of one chain, whether or not there are subtasks yet. -/
lemma subtask_of_consistent {base : BaseTask}
    {subtasks : Option ((i : Fin n) → Option (Fin (length i)))}
    {states : (i : Fin n) → (j : Fin (length i)) → TaskState (chains i j)}
    (hs : (.multiTask base subtasks states :
      TaskState (.multiTask idpChains length chains)).Consistent)
    (i : Fin n) :
    (subtask subtasks i = none ∧ ∀ j, states i j = (chains i j).fresh) ∨
      ∃ j, subtask subtasks i = some j ∧ At (states i) j := by
  cases subtasks with
  | none => exact Or.inl ⟨rfl, hs.2 i⟩
  | some subtasks =>
    obtain ⟨-, -, -, hsubtasks⟩ := hs
    cases hi : subtasks i with
    | none =>
      have hlength := (hsubtasks i).1 hi
      exact Or.inl ⟨hi, fun j => absurd j.isLt (by omega)⟩
    | some j => exact Or.inr ⟨j, hi, (hsubtasks i).2 j hi⟩

/-- The children of a consistent multitask are consistent. -/
lemma states_of_consistent {base : BaseTask}
    {subtasks : Option ((i : Fin n) → Option (Fin (length i)))}
    {states : (i : Fin n) → (j : Fin (length i)) → TaskState (chains i j)}
    (hs : (.multiTask base subtasks states :
      TaskState (.multiTask idpChains length chains)).Consistent) :
    ∀ i j, (states i j).Consistent := by
  cases subtasks with
  | none => exact hs.1
  | some subtasks => exact hs.1

include idpChains in
/-- After the loop of `run` every chain is at its subtask. -/
lemma at_startChains (h : ∀ i j, (methods i j).Sound) {base : BaseTask}
    {subtasks : Option ((i : Fin n) → Option (Fin (length i)))}
    {states : (i : Fin n) → (j : Fin (length i)) → TaskState (chains i j)}
    (hs : (.multiTask base subtasks states :
      TaskState (.multiTask idpChains length chains)).Consistent) (i : Fin n) :
    ((started states i).or (subtask subtasks i) = none → length i = 0) ∧
      ∀ j, (started states i).or (subtask subtasks i) = some j →
        At ((startChains methods states).1 i) j := by
  have hcalled : (startChains methods states).1 i =
      (onChild (fun j => (methods i j).startrun) (started states i) (states i)).1 := rfl
  rw [hcalled]
  cases hstarted : started states i with
  | some j =>
    refine ⟨nofun, fun k hk => ?_⟩
    obtain rfl : j = k := Option.some.inj hk
    refine at_onChild hstarted ?_ fun j => (h i j).startrun
    rcases subtask_of_consistent hs i with ⟨-, hfresh⟩ | ⟨k, -, hat⟩
    · exact fun k _ => hfresh k
    · exact hat.after_firstUnfinished hstarted
  | none =>
    rw [Option.none_or]
    rcases subtask_of_consistent hs i with ⟨hnone, hfresh⟩ | ⟨k, hk, hat⟩
    · refine ⟨fun _ => ?_, fun j hj => ?_⟩
      · by_contra hlength
        have hfinished := finished_of_firstUnfinished_eq_none hstarted
          (List.mem_finRange ⟨0, Nat.pos_of_ne_zero hlength⟩)
        rw [hfresh, TaskState.finished_fresh] at hfinished
        exact absurd hfinished Bool.false_ne_true
      · rw [hnone] at hj
        exact absurd hj nofun
    · refine ⟨fun hnone => ?_, fun j hj => ?_⟩
      · rw [hk] at hnone
        exact absurd hnone nofun
      · rw [hk] at hj
        exact Option.some.inj hj ▸ hat

/-- `_startrun` keeps a multitask consistent when it keeps its children so. -/
lemma consistent_startrun (h : ∀ i j, (methods i j).Sound)
    (hmethods : ∀ i j s, s.Consistent → ((methods i j).startrun s).1.Consistent)
    (s : TaskState (.multiTask idpChains length chains)) (hs : s.Consistent) :
    (startrun methods s).1.Consistent := by
  cases s with | multiTask base subtasks states
  rw [startrun]
  split
  · exact hs
  · rw [run]
    split
    next hn =>
      cases subtasks with
      | none => exact hs
      | some subtasks => exact absurd hs.2.1 (by omega)
    next hn =>
      have hstates : ∀ i j, ((startChains methods states).1 i j).Consistent :=
        fun i => consistent_onChild (hmethods i) (states_of_consistent hs i) _
      simp only []
      split
      · exact ⟨hstates, Nat.pos_of_ne_zero hn, fun _ => rfl, at_startChains h hs⟩
      next hstarted =>
        refine ⟨hstates, Nat.pos_of_ne_zero hn, fun hnone => ?_, at_startChains h hs⟩
        refine absurd (fun i => ?_) hstarted
        exact (Option.or_eq_none_iff.mp (hnone i)).1

/-- `processFrame` keeps a multitask consistent when its methods keep its children so. -/
lemma consistent_processFrame (h : ∀ i j, (methods i j).Sound)
    (hstartrun : ∀ i j s, s.Consistent → ((methods i j).startrun s).1.Consistent)
    (hprocess : ∀ i j s, s.Consistent → ((methods i j).processFrame s).1.Consistent)
    (s : TaskState (.multiTask idpChains length chains)) (hs : s.Consistent) :
    (processFrame methods s).1.Consistent := by
  cases s with | multiTask base subtasks states
  have hcalled : (.multiTask base subtasks (processSubtasks methods subtasks states).1 :
      TaskState (.multiTask idpChains length chains)).Consistent := by
    have hstates : ∀ i j, ((processSubtasks methods subtasks states).1 i j).Consistent :=
      fun i => consistent_onChild (hprocess i) (states_of_consistent hs i) _
    cases subtasks with
    | none => exact ⟨hstates, hs.2⟩
    | some subtasks =>
      obtain ⟨-, hn, hfinished, hsubtasks⟩ := hs
      refine ⟨hstates, hn, hfinished, fun i => ⟨(hsubtasks i).1, fun j hj => ?_⟩⟩
      have hat := ((hsubtasks i).2 j hj).onChild fun j => (h i j).processFrame
      rw [← hj] at hat
      exact hat
  rw [processFrame]
  simp only []
  split
  · exact consistent_startrun h hstartrun _ hcalled
  · exact hcalled

end MultiTask

/-- **Both methods of every object keep it consistent.** -/
theorem TaskTree.consistent_methods (t : TaskTree) :
    (∀ s, s.Consistent → (t.methods.startrun s).1.Consistent) ∧
      ∀ s, s.Consistent → (t.methods.processFrame s).1.Consistent := by
  induction t with
  | task method initial children ih =>
    have hsound i := (children i).sound_methods
    exact ⟨Task.consistent_startrun hsound fun i => (ih i).1,
      Task.consistent_processFrame hsound (fun i => (ih i).1) fun i => (ih i).2⟩
  | multiTask idpChains length chains ih =>
    have hsound i j := (chains i j).sound_methods
    exact ⟨MultiTask.consistent_startrun hsound fun i j => (ih i j).1,
      MultiTask.consistent_processFrame hsound (fun i j => (ih i j).1) fun i j => (ih i j).2⟩
  | taskNode t ih =>
    have hnode (s : TaskState (.taskNode t)) (hs : s.Consistent) :
        (TaskNode.startrun t.methods s).1.Consistent := by
      cases s with | taskNode base state
      rw [TaskNode.startrun]
      split
      · exact hs
      · rw [TaskNode.run]
        split
        · exact ih.2 _ hs
        · exact ih.2 _ hs
    exact ⟨hnode, hnode⟩
  | machineNode t ih =>
    have hnode (s : TaskState (.machineNode t)) (hs : s.Consistent) :
        (MachineNode.startrun t.methods s).1.Consistent := by
      cases s with | machineNode base state
      rw [MachineNode.startrun]
      split
      · exact hs
      · rw [MachineNode.run]
        split
        · exact hs
        · exact ih.2 _ hs
    exact ⟨hnode, hnode⟩

/-! ## The condition -/

/-- The method that is called first: `_startrun`, or else `processFrame`. -/
def TaskTree.begin (t : TaskTree) (started : Bool) : TaskState t → TaskState t × List TaskEvent :=
  if started then t.startrun else t.processFrame

/-- The condition on a state under which a frame after `reset()` does what the first method, which
is `_startrun` if the flag is set and else `processFrame`, does to a new tree.

The children of a `Task` are new and its subtask is the first one; and where `_startrun` comes
first, there is no subtask and `run` starts no chain.  A `MultiTask` has not been run.  Or every
chain that is not empty is at its first task, which meets the condition; and if `idpChains` is set,
no chain is empty unless all are. -/
def TaskState.Restartable : Bool → {t : TaskTree} → TaskState t → Prop
  | started, .task method initial children, .task _ subtask states =>
    subtask = initial ∧ (∀ i, states i = (children i).fresh) ∧
      (started = true → initial = none ∧ method.chain = [])
  | _, .multiTask _ _ _, .multiTask _ none _ => True
  | _, .multiTask idpChains length _, .multiTask _ (some subtasks) states =>
    (∀ i, length i = 0 ∨ ∃ h : 0 < length i,
      subtasks i = some ⟨0, h⟩ ∧ (states i ⟨0, h⟩).Restartable true) ∧
      (idpChains = true → (∃ i, length i = 0) → ∀ i, length i = 0)
  | _, .taskNode _, .taskNode _ state => state.Restartable false
  | _, .machineNode _, .machineNode _ state => state.Restartable false

/-! ## A restartable tree starts over -/

namespace MultiTask

variable {n : ℕ} {idpChains : Bool} {length : Fin n → ℕ}
  {chains : (i : Fin n) → Fin (length i) → TaskTree}
  {methods : (i : Fin n) → (j : Fin (length i)) → Methods (chains i j)} {base : BaseTask}
  {subtasks : Option ((i : Fin n) → Option (Fin (length i)))}
  {states : (i : Fin n) → (j : Fin (length i)) → TaskState (chains i j)}

/-- Chains on which the calls agree are gone through alike. -/
lemma onChains_congr {S : Fin n → Type} {call call' : (i : Fin n) → S i → S i × List TaskEvent}
    {states states' : (i : Fin n) → S i} (h : ∀ i, call i (states i) = call' i (states' i)) :
    onChains call states = onChains call' states' := by
  simp only [onChains, h]

/-- Children on which the calls agree are called alike, when the other children agree. -/
lemma onChild_congr {S : Fin n → Type} {call call' : (i : Fin n) → S i → S i × List TaskEvent}
    {states states' : (i : Fin n) → S i} {i : Fin n}
    (h : call i (states i) = call' i (states' i)) (hother : ∀ j, j ≠ i → states j = states' j) :
    onChild call (some i) states = onChild call' (some i) states' := by
  simp only [onChild, h]
  congr 1
  funext j
  by_cases hj : j = i
  · subst hj
    rw [Function.update_self, Function.update_self]
  · rw [Function.update_of_ne hj, Function.update_of_ne hj, hother j hj]

/-- When there is no child to call, going through the chains does nothing. -/
lemma onChains_none
    {call : (i : Fin n) → (j : Fin (length i)) → TaskState (chains i j) →
      TaskState (chains i j) × List TaskEvent}
    {child : (i : Fin n) → Option (Fin (length i))} (h : ∀ i, child i = none) :
    onChains (fun i => onChild (call i) (child i)) states = (states, []) := by
  have hone i : onChild (call i) (child i) (states i) = (states i, []) := by
    rw [h i]
    rfl
  simp only [onChains, hone, List.map_nil]
  rw [List.flatMap_eq_nil_iff.mpr fun _ _ => rfl]

/-- A multitask whose subtasks have all finished goes on with `_startrun`. -/
lemma processFrame_of_all_finished
    (h : ∀ i, unfinished (states i) (subtask subtasks i) = none) :
    processFrame methods (.multiTask base subtasks states :
        TaskState (.multiTask idpChains length chains)) =
      startrun methods (.multiTask base subtasks states) := by
  have hcalled : processSubtasks methods subtasks states = (states, []) := onChains_none h
  rw [processFrame]
  simp only [hcalled, decide_eq_true h, Bool.or_true, if_true, List.nil_append]

/-- A multitask with a subtask that has not finished does not run, unless some subtask has finished
and the chains do not wait for each other. -/
lemma processFrame_of_not_finished {i : Fin n}
    (hi : unfinished (states i) (subtask subtasks i) ≠ none)
    (hidp : idpChains = true → ∀ i, unfinished (states i) (subtask subtasks i) ≠ none) :
    processFrame methods (.multiTask base subtasks states :
        TaskState (.multiTask idpChains length chains)) =
      (.multiTask base subtasks (processSubtasks methods subtasks states).1,
        (processSubtasks methods subtasks states).2) := by
  have hall : ¬ ∀ i, unfinished (states i) (subtask subtasks i) = none := fun h => hi (h i)
  have hsome : (subtasks.isSome &&
      decide (∃ i, unfinished (states i) (subtask subtasks i) = none) && idpChains) = false := by
    cases hidpChains : idpChains with
    | false => rw [Bool.and_false]
    | true =>
      have hnot : ¬ ∃ i, unfinished (states i) (subtask subtasks i) = none :=
        fun ⟨i, hnone⟩ => hidp hidpChains i hnone
      rw [decide_eq_false hnot, Bool.and_false, Bool.false_and]
  rw [processFrame]
  simp only [hsome, decide_eq_false hall, Bool.or_false, Bool.false_eq_true, if_false]

/-- Both methods run a new multitask. -/
lemma begin_fresh (started : Bool) :
    (TaskTree.multiTask idpChains length chains).begin started
        (TaskTree.multiTask idpChains length chains).fresh =
      run (fun i j => (chains i j).methods) .reset none fun i j => (chains i j).fresh := by
  have hframe : (TaskTree.multiTask idpChains length chains).processFrame
        (TaskTree.multiTask idpChains length chains).fresh =
      (TaskTree.multiTask idpChains length chains).startrun
        (TaskTree.multiTask idpChains length chains).fresh := by
    rw [TaskTree.processFrame_multiTask, TaskTree.startrun_multiTask]
    exact processFrame_of_all_finished fun _ => rfl
  cases started with
  | true => rfl
  | false => exact hframe.trans rfl

/-- A chain of tasks that have not finished is started at the first one. -/
lemma started_of_unfinished (hstates : ∀ i j, (states i j).finished = false) {i : Fin n}
    (h : 0 < length i) : started states i = some ⟨0, h⟩ := by
  cases hstarted : started states i with
  | none =>
    have hfinished := finished_of_firstUnfinished_eq_none hstarted (List.mem_finRange ⟨0, h⟩)
    rw [hstates] at hfinished
    exact absurd hfinished Bool.false_ne_true
  | some j =>
    by_contra hj
    have hlt : (⟨0, h⟩ : Fin (length i)) < j := by
      rcases Nat.eq_zero_or_pos (j : ℕ) with hzero | hpos
      · exact absurd (congrArg some (Fin.ext hzero)) hj
      · exact hpos
    have hfinished := finished_of_lt_firstUnfinished hstarted hlt
    rw [hstates] at hfinished
    exact absurd hfinished Bool.false_ne_true

/-- A subtask that has not finished is processed. -/
lemma unfinished_of_finished_eq_false {m : ℕ} {children : Fin m → TaskTree}
    {states : (j : Fin m) → TaskState (children j)} (h : ∀ j, (states j).finished = false)
    (subtask : Option (Fin m)) : unfinished states subtask = subtask := by
  cases subtask with
  | none => rfl
  | some j => simp [unfinished, h j]

/-- In an empty chain there is nothing to call. -/
lemma eq_none_of_length_eq_zero {i : Fin n} (h : length i = 0) (child : Option (Fin (length i))) :
    child = none := by
  cases child with
  | none => rfl
  | some j => exact absurd j.isLt (by omega)

/-- A restartable multitask that has been run does in a frame after its reset what a new one does,
when its first tasks do so. -/
lemma processFrame_reset {subtasks : (i : Fin n) → Option (Fin (length i))}
    (hs : (.multiTask base (some subtasks) states :
      TaskState (.multiTask idpChains length chains)).Consistent)
    (hr : (.multiTask base (some subtasks) states :
      TaskState (.multiTask idpChains length chains)).Restartable false)
    (ih : ∀ i j, (states i j).Restartable true →
      (chains i j).processFrame (states i j).reset = (chains i j).startrun (chains i j).fresh) :
    processFrame (fun i j => (chains i j).methods)
        (.multiTask .reset (some subtasks) fun i j => (states i j).reset :
          TaskState (.multiTask idpChains length chains)) =
      run (fun i j => (chains i j).methods) .reset none fun i j => (chains i j).fresh := by
  obtain ⟨-, hn, -, hsubtasks⟩ := hs
  obtain ⟨hfirst, hidp⟩ := hr
  have hn' : ¬ n = 0 := by omega
  have hunfinished i : unfinished (fun j => (states i j).reset) (subtask (some subtasks) i) =
      subtasks i :=
    unfinished_of_finished_eq_false (fun j => TaskState.finished_reset (states i j)) _
  by_cases hempty : ∀ i, length i = 0
  · have hchild (child : (i : Fin n) → Option (Fin (length i))) i : child i = none :=
      eq_none_of_length_eq_zero (hempty i) (child i)
    have hstates : (fun i j => (states i j).reset) = fun i j => (chains i j).fresh :=
      funext fun i => funext fun j => absurd j.isLt (by have := hempty i; omega)
    have hkept : (fun i => (started (fun i j => (chains i j).fresh) i).or
        (subtask (some subtasks) i)) = fun i =>
          (started (fun i j => (chains i j).fresh) i).or (subtask none i) :=
      funext fun i => (eq_none_of_length_eq_zero (hempty i) _).trans
        (eq_none_of_length_eq_zero (hempty i) _).symm
    rw [processFrame_of_all_finished fun i => (hunfinished i).trans
        (eq_none_of_length_eq_zero (hempty i) _), hstates,
      startrun, run, run, if_neg hn', if_neg hn', hkept]
    rfl
  · push Not at hempty
    obtain ⟨i₀, hi₀⟩ := hempty
    have hstarted {i : Fin n} (h : 0 < length i) :
        started (fun i j => (chains i j).fresh) i = some ⟨0, h⟩ :=
      started_of_unfinished (fun i j => TaskState.finished_fresh (chains i j)) h
    have hrunning {i : Fin n} (hi : length i ≠ 0) :
        unfinished (fun j => (states i j).reset) (subtask (some subtasks) i) ≠ none := by
      rw [hunfinished]
      obtain ⟨h, hsubtask, -⟩ := (hfirst i).resolve_left hi
      rw [hsubtask]
      exact Option.some_ne_none _
    have hcalled : processSubtasks (fun i j => (chains i j).methods) (some subtasks)
          (fun i j => (states i j).reset) =
        startChains (fun i j => (chains i j).methods) fun i j => (chains i j).fresh := by
      refine onChains_congr fun i => ?_
      rw [hunfinished]
      rcases hfirst i with hzero | ⟨h, hsubtask, hrestartable⟩
      · have hstates : (fun j => (states i j).reset) = fun j => (chains i j).fresh :=
          funext fun j => absurd j.isLt (by omega)
        rw [eq_none_of_length_eq_zero hzero (subtasks i), eq_none_of_length_eq_zero hzero
          (started _ i), hstates]
        rfl
      · rw [hsubtask, hstarted h]
        refine onChild_congr (ih i ⟨0, h⟩ hrestartable) fun j hj => ?_
        have hfresh := ((hsubtasks i).2 _ hsubtask).after j
          (Nat.pos_of_ne_zero fun hzero => hj (Fin.ext hzero))
        rw [hfresh, TaskState.reset_fresh]
    have hkept : (fun i => (started (fun i j => (chains i j).fresh) i).or (subtask none i)) =
        subtasks := by
      funext i
      rcases hfirst i with hzero | ⟨h, hsubtask, -⟩
      · exact (eq_none_of_length_eq_zero hzero _).trans (eq_none_of_length_eq_zero hzero _).symm
      · rw [hsubtask, hstarted h]
        rfl
    have hsome : ¬ ∀ i, started (fun i j => (chains i j).fresh) i = none := by
      intro hnone
      have h := hnone i₀
      rw [hstarted (Nat.pos_of_ne_zero hi₀)] at h
      exact absurd h (Option.some_ne_none _)
    rw [processFrame_of_not_finished (hrunning hi₀) fun hidpChains i => hrunning fun hzero =>
        hi₀ (hidp hidpChains ⟨i, hzero⟩ i₀), hcalled, run, if_neg hn', if_neg hsome, hkept]

end MultiTask

namespace TaskNode

variable {task : TaskTree}

/-- Both methods run a new task node. -/
lemma begin_fresh (started : Bool) :
    (TaskTree.taskNode task).begin started (TaskTree.taskNode task).fresh =
      run task.methods .reset task.fresh := by
  cases started <;> rfl

/-- A task node that has been reset is run. -/
lemma processFrame_reset (base : BaseTask) (state : TaskState task) :
    (TaskTree.taskNode task).processFrame (TaskState.taskNode base state).reset =
      run task.methods .reset state.reset := rfl

/-- A run of a task node depends on the frame of its task only. -/
lemma run_congr {methods : Methods task} {base : BaseTask} {state state' : TaskState task}
    (h : methods.processFrame state = methods.processFrame state') :
    run methods base state = run methods base state' := by
  rw [run, run, h]

end TaskNode

namespace MachineNode

variable {submachine : TaskTree}

/-- Both methods give a new machine node a frame of its machine. -/
lemma begin_fresh (started : Bool) :
    (TaskTree.machineNode submachine).begin started (TaskTree.machineNode submachine).fresh =
      (.machineNode .reset (submachine.processFrame submachine.fresh).1,
        (submachine.processFrame submachine.fresh).2.map (.under 0)) := by
  have hrun : run submachine.methods .reset submachine.fresh =
      (.machineNode .reset (submachine.processFrame submachine.fresh).1,
        (submachine.processFrame submachine.fresh).2.map (.under 0)) := by
    rw [run, TaskState.finished_fresh, if_neg Bool.false_ne_true]
    rfl
  cases started with
  | false => exact hrun
  | true => exact hrun

/-- A machine node that has been reset gives its machine a frame. -/
lemma processFrame_reset (base : BaseTask) (state : TaskState submachine) :
    (TaskTree.machineNode submachine).processFrame (TaskState.machineNode base state).reset =
      (.machineNode .reset (submachine.processFrame state.reset).1,
        (submachine.processFrame state.reset).2.map (.under 0)) := by
  show run submachine.methods .reset state.reset = _
  rw [run, TaskState.finished_reset, if_neg Bool.false_ne_true]
  rfl

end MachineNode

/-- **A restartable tree does in a frame after its reset what the first method does to a new
tree.** -/
theorem TaskTree.processFrame_reset {t : TaskTree} {s : TaskState t} (hs : s.Consistent)
    {started : Bool} (hr : s.Restartable started) :
    t.processFrame s.reset = t.begin started t.fresh := by
  induction s generalizing started with
  | task base subtask states ih =>
    obtain ⟨rfl, hfresh, hstarted⟩ := hr
    rw [TaskState.reset, funext hfresh]
    cases started with
    | false => rfl
    | true =>
      obtain ⟨rfl, -⟩ := hstarted rfl
      rfl
  | multiTask base subtasks states ih =>
    rw [MultiTask.begin_fresh]
    cases subtasks with
    | none =>
      rw [← MultiTask.begin_fresh false, TaskState.reset]
      have hstates := funext fun i => funext (hs.2 i)
      simp only [hstates, TaskState.reset_fresh]
      rfl
    | some subtasks =>
      have hchildren := MultiTask.states_of_consistent hs
      exact MultiTask.processFrame_reset hs hr fun i j hij => ih i j (hchildren i j) hij
  | taskNode base state ih =>
    rw [TaskNode.begin_fresh, TaskNode.processFrame_reset]
    exact TaskNode.run_congr (ih hs hr)
  | machineNode base state ih =>
    have hframe := ih hs hr
    rw [MachineNode.begin_fresh, MachineNode.processFrame_reset, hframe]
    rfl

/-! ## A tree that starts over is restartable -/

/-- A frame of a reset task with a subtask does not begin like a run that runs no other task. -/
lemma Task.not_run_of_subtask {n : ℕ} {method : RunMethod n} {children : Fin n → TaskTree}
    {i : Fin n} (hchain : method.chain = []) {rest : List TaskEvent} :
    ((TaskTree.task method (some i) children).processFrame
        (TaskTree.task method (some i) children).fresh).2 ++ rest ≠
      ((TaskTree.task method (some i) children).startrun
        (TaskTree.task method (some i) children).fresh).2 := by
  intro h
  have hunfinished : unfinished (fun i => (children i).fresh) (some i) = some i := by
    simp [unfinished]
  have hframe : ((TaskTree.task method (some i) children).processFrame
      (TaskTree.task method (some i) children).fresh).2 =
        ((children i).processFrame (children i).fresh).2.map (.under i) := by
    show (Task.processFrame method _ (.task _ _ _)).2 = _
    rw [Task.processFrame, hunfinished]
    rfl
  have hrun : ∀ e ∈ ((TaskTree.task method (some i) children).startrun
      (TaskTree.task method (some i) children).fresh).2, e.path = [] := by
    intro e he
    cases method with
    | own finishes => exact BaseTask.path_of_mem_run he
    | walkChain chain =>
      obtain rfl : chain = [] := hchain
      exact BaseTask.path_of_mem_run he
  obtain ⟨e, he⟩ := List.exists_mem_of_ne_nil _
    ((children i).sound_methods.processFrame.emits _ (TaskState.finished_fresh _))
  have hmem := List.mem_append_left rest (List.mem_map_of_mem (f := TaskEvent.under i) he)
  rw [← TaskTree.processFrame, ← hframe, h] at hmem
  exact List.cons_ne_nil _ _ (hrun _ hmem)

namespace MultiTask

variable {n : ℕ} {idpChains : Bool} {length : Fin n → ℕ}
  {chains : (i : Fin n) → Fin (length i) → TaskTree}
  {subtasks : (i : Fin n) → Option (Fin (length i))}
  {states : (i : Fin n) → (j : Fin (length i)) → TaskState (chains i j)}

/-- After a reset the subtasks get a frame first, and then the multitask may be run, which it is if
a chain is empty and the chains do not wait for each other. -/
lemma events_processFrame_reset (idpChains : Bool)
    (subtasks : (i : Fin n) → Option (Fin (length i)))
    (states : (i : Fin n) → (j : Fin (length i)) → TaskState (chains i j)) :
    ∃ extra, (processFrame (fun i j => (chains i j).methods)
        (.multiTask .reset (some subtasks) fun i j => (states i j).reset :
          TaskState (.multiTask idpChains length chains))).2 =
      (processSubtasks (fun i j => (chains i j).methods) (some subtasks)
        fun i j => (states i j).reset).2 ++ extra ∧
      (idpChains = true → (∃ i, length i = 0) → extra ≠ []) := by
  rw [processFrame]
  simp only []
  split
  · refine ⟨_, rfl, fun _ _ => ?_⟩
    exact (isSound_startrun fun i j => (chains i j).sound_methods).emits
      (.multiTask .reset (some subtasks) _) rfl
  next hnot =>
    refine ⟨[], (List.append_nil _).symm, ?_⟩
    rintro hidp ⟨i, hi⟩
    refine absurd ?_ hnot
    have hnone : unfinished (fun j => (states i j).reset) (subtask (some subtasks) i) = none :=
      eq_none_of_length_eq_zero hi _
    have hsome : ∃ i, unfinished (fun j => (states i j).reset) (subtask (some subtasks) i) = none :=
      ⟨i, hnone⟩
    rw [decide_eq_true hsome, hidp]
    rfl

/-- A new multitask with a chain that is not empty starts its chains. -/
lemma events_run_fresh {i : Fin n} (hi : 0 < length i) :
    (run (fun i j => (chains i j).methods) .reset none (fun i j => (chains i j).fresh) :
        TaskState (.multiTask idpChains length chains) × List TaskEvent).2 =
      (startChains (fun i j => (chains i j).methods) fun i j => (chains i j).fresh).2 := by
  have hn : ¬ n = 0 := fun hn => absurd i.isLt (by omega)
  have hsome : ¬ ∀ i, started (fun i j => (chains i j).fresh) i = none := by
    intro hnone
    have h := hnone i
    rw [started_of_unfinished (fun i j => TaskState.finished_fresh (chains i j)) hi] at h
    exact absurd h nofun
  rw [run, if_neg hn, if_neg hsome]

/-- The first task of each chain is what a new multitask starts. -/
lemma mem_startChains_fresh {e : TaskEvent}
    (he : e ∈ (startChains (fun i j => (chains i j).methods) fun i j => (chains i j).fresh).2) :
    ∃ (i : Fin n) (_ : 0 < length i) (e' : TaskEvent), e = (e'.under 0).under i := by
  obtain ⟨i, -, he⟩ := List.mem_flatMap.mp he
  obtain ⟨e₁, he₁, rfl⟩ := List.mem_map.mp he
  beta_reduce at he₁
  by_cases hi : 0 < length i
  · rw [started_of_unfinished (fun i j => TaskState.finished_fresh (chains i j)) hi] at he₁
    obtain ⟨e₂, -, rfl⟩ := List.mem_map.mp he₁
    exact ⟨i, hi, e₂, rfl⟩
  · rw [eq_none_of_length_eq_zero (Nat.eq_zero_of_not_pos hi) (started _ i)] at he₁
    exact absurd he₁ List.not_mem_nil

/-- A multitask that shows a new one's events after its reset, and perhaps more, is restartable,
when this is so for the tasks of its chains. -/
lemma restartable_of_events {base : BaseTask}
    (hs : (.multiTask base (some subtasks) states :
      TaskState (.multiTask idpChains length chains)).Consistent)
    {rest : List TaskEvent}
    (hevents : (processFrame (fun i j => (chains i j).methods)
        (.multiTask .reset (some subtasks) fun i j => (states i j).reset :
          TaskState (.multiTask idpChains length chains))).2 ++ rest =
      (run (fun i j => (chains i j).methods) .reset none (fun i j => (chains i j).fresh) :
        TaskState (.multiTask idpChains length chains) × List TaskEvent).2)
    (ih : ∀ i j, states i j ≠ (chains i j).fresh → ∀ rest,
      ((chains i j).processFrame (states i j).reset).2 ++ rest =
        ((chains i j).startrun (chains i j).fresh).2 → (states i j).Restartable true) :
    (.multiTask base (some subtasks) states :
      TaskState (.multiTask idpChains length chains)).Restartable false := by
  obtain ⟨hstates, -, -, hsubtasks⟩ := hs
  by_cases hempty : ∀ i, length i = 0
  · exact ⟨fun i => Or.inl (hempty i), fun _ _ => hempty⟩
  · push Not at hempty
    obtain ⟨i₀, hi₀⟩ := hempty
    obtain ⟨extra, hextra, hextra_ne⟩ := events_processFrame_reset idpChains subtasks states
    rw [hextra, events_run_fresh (Nat.pos_of_ne_zero hi₀), List.append_assoc] at hevents
    have hchain i (hi : 0 < length i) : ∃ h : 0 < length i, subtasks i = some ⟨0, h⟩ ∧
        (states i ⟨0, h⟩).Restartable true ∧ inside 0 (inside i (extra ++ rest)) = [] := by
      have hin := congrArg (inside i) hevents
      rw [inside_append, processSubtasks, inside_onChains, startChains, inside_onChains,
        started_of_unfinished (fun i j => TaskState.finished_fresh (chains i j)) hi,
        unfinished_of_finished_eq_false fun j => TaskState.finished_reset (states i j)] at hin
      cases hsubtask : subtasks i with
      | none =>
        have hzero := (hsubtasks i).1 hsubtask
        exact absurd hi (by omega)
      | some j =>
        have hcalled : subtask (some subtasks) i = some j := hsubtask
        rw [hcalled] at hin
        -- The first event of a frame tells which task of the chain it is from.
        obtain ⟨e, he⟩ := List.exists_mem_of_ne_nil _ ((chains i j).sound_methods.processFrame.emits
          _ (TaskState.finished_reset (states i j)))
        have hmem : e.under j ∈ (onChild (fun j => (chains i j).methods.startrun) (some ⟨0, hi⟩)
            fun j => (chains i j).fresh).2 := by
          rw [← hin]
          exact List.mem_append_left _ (List.mem_map_of_mem he)
        obtain ⟨e', -, heq⟩ := List.mem_map.mp hmem
        have hj : (0 : ℕ) = j := (List.cons.inj (TaskEvent.mk.inj heq).1).1
        obtain rfl : (⟨0, hi⟩ : Fin (length i)) = j := Fin.ext hj
        have hfirst : ((chains i ⟨0, hi⟩).processFrame (states i ⟨0, hi⟩).reset).2 ++
            inside 0 (inside i (extra ++ rest)) =
              ((chains i ⟨0, hi⟩).startrun (chains i ⟨0, hi⟩).fresh).2 := by
          have hin := congrArg (inside (⟨0, hi⟩ : Fin (length i))) hin
          rw [inside_append, inside_onChild, inside_onChild] at hin
          exact hin
        have hrestartable := ih i ⟨0, hi⟩ ((hsubtasks i).2 _ hsubtask).ne_fresh _ hfirst
        refine ⟨hi, rfl, hrestartable, ?_⟩
        rw [TaskTree.processFrame_reset (hstates i ⟨0, hi⟩) hrestartable] at hfirst
        exact List.append_cancel_left (hfirst.trans (List.append_nil _).symm)
    refine ⟨fun i => ?_, fun hidp hsome i => ?_⟩
    · rcases Nat.eq_zero_or_pos (length i) with hzero | hpos
      · exact Or.inl hzero
      · obtain ⟨h, hsubtask, hrestartable, -⟩ := hchain i hpos
        exact Or.inr ⟨h, hsubtask, hrestartable⟩
    · obtain ⟨e, he⟩ := List.exists_mem_of_ne_nil _ (hextra_ne hidp hsome)
      have hmem : e ∈ (startChains (fun i j => (chains i j).methods)
          fun i j => (chains i j).fresh).2 := by
        rw [← hevents]
        exact List.mem_append_right _ (List.mem_append_left _ he)
      obtain ⟨k, hk, e', rfl⟩ := mem_startChains_fresh hmem
      obtain ⟨-, -, -, hnil⟩ := hchain k hk
      have hin := mem_inside (mem_inside (List.mem_append_left rest he))
      rw [hnil] at hin
      exact absurd hin List.not_mem_nil

end MultiTask

/-- The events of the task are those of a run of its node. -/
lemma TaskNode.inside_run {task : TaskTree} (base : BaseTask) (state : TaskState task) :
    inside 0 (run task.methods base state).2 = (task.processFrame state).2 := by
  rw [run]
  split
  · rw [inside_append, inside_map_under]
    exact List.append_nil _
  · exact inside_map_under 0 _

/-- **A tree that shows a new one's events after its reset is restartable**, if its reset forgets
all that has happened. -/
theorem TaskTree.restartable_of_events {t : TaskTree} {s : TaskState t} (hs : s.Consistent)
    (hspent : ∀ e, e ∉ s.reset.spent) {started : Bool} (hnew : started = true → s ≠ t.fresh)
    {rest : List TaskEvent}
    (hevents : (t.processFrame s.reset).2 ++ rest = (t.begin started t.fresh).2) :
    s.Restartable started := by
  induction s generalizing started rest with
  | task base subtask states ih =>
    rename_i method initial children
    obtain ⟨hstates, hown, hmoves⟩ := hs
    have hfresh i : states i = (children i).fresh :=
      (hstates i).eq_fresh fun e he => hspent _ (Or.inr ⟨i, e, he, rfl⟩)
    obtain rfl := funext hfresh
    by_cases hchain : method.chain = []
    · obtain rfl := hown hchain
      refine ⟨rfl, fun _ => rfl, fun hstarted => ⟨?_, hchain⟩⟩
      subst hstarted
      cases subtask with
      | none => rfl
      | some i => exact absurd hevents (Task.not_run_of_subtask hchain)
    · obtain ⟨rfl, rfl⟩ := hmoves hchain fun _ => rfl
      refine ⟨rfl, fun _ => rfl, fun hstarted => ?_⟩
      exact absurd rfl (hnew hstarted)
  | multiTask base subtasks states ih =>
    cases subtasks with
    | none => trivial
    | some subtasks =>
      rw [MultiTask.begin_fresh] at hevents
      refine MultiTask.restartable_of_events hs hevents fun i j hne rest hrest => ?_
      refine ih i j (MultiTask.states_of_consistent hs i j) (fun e he => ?_) (fun _ => hne) hrest
      exact hspent _ (Or.inr ⟨i, _, ⟨j, e, he, rfl⟩, rfl⟩)
  | taskNode base state ih =>
    rw [TaskNode.begin_fresh, TaskNode.processFrame_reset] at hevents
    have hin := congrArg (inside 0) hevents
    rw [inside_append, TaskNode.inside_run, TaskNode.inside_run] at hin
    have hnew : false = true → state ≠ TaskTree.fresh _ := nofun
    exact ih hs (fun e he => hspent _ (Or.inr ⟨0, e, he, rfl⟩)) hnew hin
  | machineNode base state ih =>
    rw [MachineNode.begin_fresh, MachineNode.processFrame_reset] at hevents
    have hin := congrArg (inside 0) hevents
    rw [inside_append, inside_map_under, inside_map_under] at hin
    have hnew : false = true → state ≠ TaskTree.fresh _ := nofun
    exact ih hs (fun e he => hspent _ (Or.inr ⟨0, e, he, rfl⟩)) hnew hin

/-! ## Trees after some frames -/

/-- After any number of frames a tree is consistent. -/
lemma TaskTree.consistent_afterFrames (t : TaskTree) (n : ℕ) : (t.afterFrames n).Consistent :=
  after_preserves t.consistent_methods.2 (TaskState.consistent_fresh t) n

/-- **A tree starts over exactly when it is restartable**, after any number of frames. -/
theorem TaskTree.startsOver_afterFrames_iff (t : TaskTree) (n : ℕ) :
    t.StartsOver (t.afterFrames n) ↔ (t.afterFrames n).Restartable false := by
  have hconsistent := t.consistent_afterFrames n
  constructor
  · intro h
    have hspent : ∀ e, e ∉ (t.afterFrames n).reset.spent := by
      intro e he
      exact notMem_of_trace_eq t.sound_methods.processFrame.spends (h n)
        (TaskState.spent_reset_subset _ he) (TaskState.notMem_spent_fresh t e) he
    have hfirst : (t.processFrame (t.afterFrames n).reset).2 ++ [] = (t.begin false t.fresh).2 := by
      rw [List.append_nil]
      exact (List.cons.inj (h 1)).1
    have hnew : false = true → t.afterFrames n ≠ t.fresh := nofun
    exact restartable_of_events hconsistent hspent hnew hfirst
  · intro h m
    exact trace_eq_of_step_eq (processFrame_reset hconsistent h) m

/-- A leaf starts over after any number of frames. -/
theorem TaskTree.startsOver_leaf (finishes : ℕ → Bool) (n : ℕ) :
    (task (n := 0) (.own finishes) none nofun).StartsOver
      ((task (n := 0) (.own finishes) none nofun).afterFrames n) := by
  rw [startsOver_afterFrames_iff]
  have hconsistent := (task (n := 0) (.own finishes) none nofun).consistent_afterFrames n
  generalize (task (n := 0) (.own finishes) none nofun).afterFrames n = s at hconsistent ⊢
  cases s with | task base subtask states
  exact ⟨hconsistent.2.1 rfl, fun i => i.elim0, nofun⟩

/-- A task with the chain of two poses that are reached in one frame each, as `PoseSequence` builds
it. -/
def poseSequence : TaskTree :=
  .task (.walkChain [0, 1]) none fun _ : Fin 2 => .task (n := 0) (.own fun _ => true) none nofun

/-- When the two poses have been reached, a reset does not start the sequence over: there is nothing
left to run. -/
theorem not_startsOver_poseSequence :
    ¬ poseSequence.StartsOver (poseSequence.afterFrames 2) := by
  intro h
  have hframe : trace poseSequence.processFrame 1 (poseSequence.afterFrames 2).reset ≠
      trace poseSequence.processFrame 1 poseSequence.fresh := by decide
  exact hframe (h 1)

end NaoSoccer
