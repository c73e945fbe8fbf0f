import NaoSoccer.Core.TaskTree

/-!
# Every event of a task happens once

Between two resets a task counts its runs and does not become unfinished again.  So its state says
which events have happened, and a method adds events that had not.  `Methods.Sound` is the contract
of the methods of an object: each class meets it when its children do.
-/

namespace NaoSoccer

open OneShot

/-! ## The events of children -/

/-- An event of the child at a place among `n` children. -/
def TaskEvent.ofChild {n : ℕ} (i : Fin n) (e : TaskEvent) : TaskEvent := e.under i

/-- An event of a child tells the child and the event. -/
lemma injective2_ofChild {n : ℕ} : Function.Injective2 (TaskEvent.ofChild (n := n)) := by
  intro i j ⟨path, action⟩ ⟨path', action'⟩ h
  simp only [TaskEvent.ofChild, TaskEvent.under, TaskEvent.mk.injEq, List.cons.injEq] at h
  obtain ⟨⟨hij, rfl⟩, rfl⟩ := h
  exact ⟨Fin.ext hij, rfl⟩

/-- The events that children have spent, as events of their parent. -/
abbrev ofChildren {n : ℕ} (spent : Fin n → Set TaskEvent) : Set TaskEvent :=
  gather TaskEvent.ofChild spent

/-- Events of children have a longer path than those of their parent. -/
lemma path_ne_nil_of_mem_ofChildren {n : ℕ} {spent : Fin n → Set TaskEvent} {e : TaskEvent}
    (he : e ∈ ofChildren spent) : e.path ≠ [] := by
  obtain ⟨i, e', -, rfl⟩ := he
  exact List.cons_ne_nil _ _

/-- The events of the child `i` among those of its parent. -/
def inside (i : ℕ) (evs : List TaskEvent) : List TaskEvent :=
  evs.filterMap fun e =>
    match e.path with
    | [] => none
    | j :: path => if j = i then some ⟨path, e.action⟩ else none

/-- The child's events in two lists one after the other. -/
lemma inside_append (i : ℕ) (evs evs' : List TaskEvent) :
    inside i (evs ++ evs') = inside i evs ++ inside i evs' := List.filterMap_append

/-- The child's own events. -/
@[simp] lemma inside_map_under (i : ℕ) (evs : List TaskEvent) :
    inside i (evs.map (.under i)) = evs := by
  rw [inside, List.filterMap_map]
  refine Eq.trans (List.filterMap_congr fun e _ => ?_) (List.filterMap_some)
  simp [TaskEvent.under]

/-- The events of another child. -/
lemma inside_map_under_of_ne {i j : ℕ} (h : j ≠ i) (evs : List TaskEvent) :
    inside i (evs.map (.under j)) = [] := by
  rw [inside, List.filterMap_map, List.filterMap_eq_nil_iff]
  intro e _
  simp [TaskEvent.under, h]

/-- The events of the child that is called. -/
lemma inside_onChild {n : ℕ} {S : Fin n → Type}
    (call : (i : Fin n) → S i → S i × List TaskEvent) (states : (i : Fin n) → S i) (i : Fin n) :
    inside i (onChild call (some i) states).2 = (call i (states i)).2 := inside_map_under _ _

/-- An event of a child is seen by its parent. -/
lemma mem_inside {i : ℕ} {e : TaskEvent} {evs : List TaskEvent} (h : e.under i ∈ evs) :
    e ∈ inside i evs := by
  refine List.mem_filterMap.mpr ⟨_, h, ?_⟩
  simp [TaskEvent.under]

/-- The events of one chain when all chains are gone through. -/
lemma inside_onChains {n : ℕ} {S : Fin n → Type}
    (call : (i : Fin n) → S i → S i × List TaskEvent) (states : (i : Fin n) → S i) (i : Fin n) :
    inside i (onChains call states).2 = (call i (states i)).2 := by
  have hflat (members : List (Fin n)) (hnodup : members.Nodup) :
      inside i (members.flatMap fun j => (call j (states j)).2.map (.under j)) =
        if i ∈ members then (call i (states i)).2 else [] := by
    induction members with
    | nil => rfl
    | cons j members ih =>
      obtain ⟨hj, hnodup⟩ := List.nodup_cons.mp hnodup
      rw [List.flatMap_cons, inside_append, ih hnodup]
      by_cases hij : j = i
      · subst hij
        rw [inside_map_under, if_neg hj, if_pos List.mem_cons_self, List.append_nil]
      · rw [inside_map_under_of_ne fun h => hij (Fin.ext h), List.nil_append]
        simp [Ne.symm hij]
  rw [onChains, hflat _ (List.nodup_finRange n), if_pos (List.mem_finRange i)]

/-! ## What has happened -/

/-- The events of the task itself that have happened since its reset. -/
def BaseTask.spent (b : BaseTask) : Set TaskEvent :=
  {e | e.path = [] ∧
    match e.action with
    | .ran run => 1 ≤ run ∧ run ≤ b.runs
    | .finish => b.finished = true}

/-- The events of a tree that have happened, each one since the reset of its own task. -/
def TaskState.spent : {t : TaskTree} → TaskState t → Set TaskEvent
  | _, .task base _ states => base.spent ∪ ofChildren fun i => (states i).spent
  | _, .multiTask base _ states =>
    base.spent ∪ ofChildren fun i => ofChildren fun j => (states i j).spent
  | _, .taskNode base state => base.spent ∪ ofChildren fun _ : Fin 1 => state.spent
  | _, .machineNode base state => base.spent ∪ ofChildren fun _ : Fin 1 => state.spent

namespace BaseTask

/-- A task has finished when its finish has happened. -/
lemma finish_mem_spent {b : BaseTask} : ⟨[], .finish⟩ ∈ b.spent ↔ b.finished = true := by
  simp [spent]

/-- After a reset nothing has happened. -/
lemma eq_reset_of_spent {b : BaseTask} (h : ∀ e, e ∉ b.spent) : b = reset := by
  obtain ⟨finished, runs⟩ := b
  have hfinished : finished ≠ true := fun hf => h ⟨[], .finish⟩ ⟨rfl, hf⟩
  have hruns : ¬ 1 ≤ runs := fun hr => h ⟨[], .ran runs⟩ ⟨rfl, hr, le_rfl⟩
  obtain rfl : finished = false := by simpa using hfinished
  obtain rfl : runs = 0 := by omega
  rfl

/-- After a reset nothing has happened. -/
lemma spent_reset : reset.spent = ∅ := by
  ext ⟨path, action⟩
  simp only [spent, reset, Set.mem_ofPred_eq, Set.mem_empty_iff_false, iff_false, not_and]
  intro
  cases action with
  | ran run => simp only; omega
  | finish => simp

/-- A finish happens once. -/
lemma spends_finish {b : BaseTask} (hb : b.finished = false) :
    Spends b.spent b.finish.2 b.finish.1.spent where
  mem_iff := by
    rintro ⟨path, action⟩
    cases action <;> simp [spent, finish, hb]
  new := by
    rintro e he
    obtain rfl := List.mem_singleton.mp he
    simp [spent, hb]

/-- A run has a number that no run before it has. -/
lemma spends_run {finishes : ℕ → Bool} {b : BaseTask} (hb : b.finished = false) :
    Spends b.spent (b.run finishes).2 (b.run finishes).1.spent := by
  rw [run]
  split
  · constructor
    · rintro ⟨path, action⟩
      cases action with
      | ran run => simp [spent]; grind
      | finish => simp [spent, hb]
    · intro e he
      rcases List.mem_pair.mp he with rfl | rfl
      · simp [spent]
      · simp [spent, hb]
  · constructor
    · rintro ⟨path, action⟩
      cases action with
      | ran run => simp [spent]; grind
      | finish => simp [spent, hb]
    · intro e he
      obtain rfl := List.mem_singleton.mp he
      simp [spent]

/-- The events of a run are those of the task itself. -/
lemma path_of_mem_run {finishes : ℕ → Bool} {b : BaseTask} {e : TaskEvent}
    (he : e ∈ (b.run finishes).2) : e.path = [] := by
  rw [run] at he
  split at he
  · rcases List.mem_pair.mp he with rfl | rfl <;> rfl
  · rw [List.mem_singleton.mp he]

/-- A run is always an event. -/
lemma run_ne_nil {finishes : ℕ → Bool} {b : BaseTask} : (b.run finishes).2 ≠ [] := by
  rw [run]
  split <;> exact List.cons_ne_nil _ _

variable {b b' : BaseTask} {evs : List TaskEvent}

/-- What the task itself does, next to its children. -/
lemma spends_union {n : ℕ} {spent : Fin n → Set TaskEvent} (h : Spends b.spent evs b'.spent)
    (hpath : ∀ e ∈ evs, e.path = []) :
    Spends (b.spent ∪ ofChildren spent) evs (b'.spent ∪ ofChildren spent) :=
  h.union_right fun e he hchild => path_ne_nil_of_mem_ofChildren hchild (hpath e he)

/-- What children do, next to the task itself. -/
lemma spends_union_children {n : ℕ} {spent spent' : Fin n → Set TaskEvent} {evs : List TaskEvent}
    (h : Spends (ofChildren spent) evs (ofChildren spent')) :
    Spends (b.spent ∪ ofChildren spent) evs (b.spent ∪ ofChildren spent') :=
  h.union_left fun _ he hb => path_ne_nil_of_mem_ofChildren (h.mem_of_mem he) hb.1

end BaseTask

/-- A tree has finished when the finish of its root has happened. -/
lemma TaskState.finish_mem_spent {t : TaskTree} {s : TaskState t} :
    ⟨[], .finish⟩ ∈ s.spent ↔ s.finished = true := by
  have hroot : ⟨[], .finish⟩ ∈ s.spent ↔ ⟨[], .finish⟩ ∈ s.base.spent := by
    cases s <;>
    · constructor
      · rintro (h | h)
        · exact h
        · exact absurd rfl (path_ne_nil_of_mem_ofChildren h)
      · exact Or.inl
  rw [hroot, BaseTask.finish_mem_spent]
  rfl

/-! ## Calls of children -/

section Calls

variable {n : ℕ} {S : Fin n → Type} {P : (i : Fin n) → S i → Set TaskEvent}
  {call : (i : Fin n) → S i → S i × List TaskEvent} {states : (i : Fin n) → S i}

/-- Calling one child spends what the child spends. -/
lemma spends_onChild (h : ∀ i s, Spends (P i s) (call i s).2 (P i (call i s).1))
    (child : Option (Fin n)) (states : (i : Fin n) → S i) :
    Spends (ofChildren fun i => P i (states i)) (onChild call child states).2
      (ofChildren fun i => P i ((onChild call child states).1 i)) := by
  cases child with
  | none => exact Spends.refl _
  | some i =>
    refine Spends.gather_single injective2_ofChild (P := fun i => P i (states i)) ?_ ?_
    · show Spends _ _ (P i (Function.update states i _ i))
      rw [Function.update_self]
      exact h i (states i)
    · intro j hj
      show P j (Function.update states i _ j) = _
      rw [Function.update_of_ne hj]

/-- Going through all chains spends what they spend. -/
lemma spends_onChains (h : ∀ i, Spends (P i (states i)) (call i (states i)).2
      (P i (call i (states i)).1)) :
    Spends (ofChildren fun i => P i (states i)) (onChains call states).2
      (ofChildren fun i => P i ((onChains call states).1 i)) :=
  Spends.gather injective2_ofChild (P := fun i => P i (states i)) h (List.mem_finRange)

end Calls

/-! ## The contract of a method -/

/-- A method adds events that have not happened, and it adds one unless the task has finished. -/
structure IsSound {t : TaskTree} (call : TaskState t → TaskState t × List TaskEvent) : Prop where
  spends : ∀ s, Spends s.spent (call s).2 (call s).1.spent
  emits : ∀ s, s.finished = false → (call s).2 ≠ []

/-- Both methods of an object meet the contract. -/
structure Methods.Sound {t : TaskTree} (m : Methods t) : Prop where
  startrun : IsSound m.startrun
  processFrame : IsSound m.processFrame

/-- A subtask that is to be processed has not finished. -/
lemma finished_of_unfinished {n : ℕ} {children : Fin n → TaskTree}
    {states : (i : Fin n) → TaskState (children i)} {subtask : Option (Fin n)} {i : Fin n}
    (hi : unfinished states subtask = some i) : (states i).finished = false := by
  simpa using (Option.filter_eq_some_iff.mp hi).2

/-- A task that is to be started has not finished. -/
lemma finished_of_firstUnfinished {n : ℕ} {children : Fin n → TaskTree}
    {states : (i : Fin n) → TaskState (children i)} {chain : List (Fin n)} {i : Fin n}
    (hi : firstUnfinished states chain = some i) : (states i).finished = false := by
  simpa using List.find?_some hi

/-- Calling a child that has not finished is an event. -/
lemma onChild_ne_nil {n : ℕ} {children : Fin n → TaskTree}
    {call : (i : Fin n) → TaskState (children i) → TaskState (children i) × List TaskEvent}
    (h : ∀ i, IsSound (call i)) {i : Fin n} {states : (i : Fin n) → TaskState (children i)}
    (hi : (states i).finished = false) : (onChild call (some i) states).2 ≠ [] := by
  intro hnil
  exact (h i).emits _ hi (List.map_eq_nil_iff.mp hnil)

namespace Task

variable {n : ℕ} {method : RunMethod n} {initial : Option (Fin n)} {children : Fin n → TaskTree}
  {methods : (i : Fin n) → Methods (children i)} (h : ∀ i, (methods i).Sound)
include h

/-- `_startrun` of a task meets the contract. -/
lemma isSound_startrun :
    IsSound (t := .task method initial children) (startrun method methods) where
  spends := by
    intro s
    cases s with | task base subtask states
    rw [startrun]
    split
    · exact Spends.refl _
    next hbase =>
      have hbase : base.finished = false := by simpa using hbase
      cases method with
      | own finishes =>
        exact BaseTask.spends_union (BaseTask.spends_run hbase)
          fun e he => BaseTask.path_of_mem_run he
      | walkChain chain =>
        cases chain with
        | nil =>
          exact BaseTask.spends_union (BaseTask.spends_run hbase)
            fun e he => BaseTask.path_of_mem_run he
        | cons link chain =>
          rw [run]
          split
          · exact BaseTask.spends_union_children
              (spends_onChild (fun i s => (h i).startrun.spends s) _ states)
          · refine BaseTask.spends_union (BaseTask.spends_finish hbase) fun e he => ?_
            rw [List.mem_singleton.mp he]
  emits := by
    intro s hbase
    cases s with | task base subtask states
    have hbase : base.finished = false := hbase
    rw [startrun, hbase, if_neg Bool.false_ne_true]
    cases method with
    | own finishes => exact BaseTask.run_ne_nil
    | walkChain chain =>
      cases chain with
      | nil => exact BaseTask.run_ne_nil
      | cons link chain =>
        rw [run]
        split
        next i hi =>
          exact onChild_ne_nil (fun i => (h i).startrun) (finished_of_firstUnfinished hi)
        · exact List.cons_ne_nil _ _

/-- `processFrame` of a task meets the contract. -/
lemma isSound_processFrame :
    IsSound (t := .task method initial children) (processFrame method methods) where
  spends := by
    intro s
    cases s with | task base subtask states
    rw [processFrame]
    split
    · exact BaseTask.spends_union_children
        (spends_onChild (fun i s => (h i).processFrame.spends s) _ states)
    · exact (isSound_startrun h).spends _
  emits := by
    intro s hbase
    cases s with | task base subtask states
    rw [processFrame]
    split
    next i hi =>
      exact onChild_ne_nil (fun i => (h i).processFrame) (finished_of_unfinished hi)
    · exact (isSound_startrun h).emits _ hbase

end Task

namespace MultiTask

variable {n : ℕ} {idpChains : Bool} {length : Fin n → ℕ}
  {chains : (i : Fin n) → Fin (length i) → TaskTree}
  {methods : (i : Fin n) → (j : Fin (length i)) → Methods (chains i j)}
  (h : ∀ i j, (methods i j).Sound)

/-- Going through the chains is an event when there is a child to call. -/
lemma onChains_ne_nil
    {call : (i : Fin n) → (j : Fin (length i)) → TaskState (chains i j) →
      TaskState (chains i j) × List TaskEvent}
    (hcall : ∀ i j, IsSound (call i j)) {child : (i : Fin n) → Option (Fin (length i))}
    {states : (i : Fin n) → (j : Fin (length i)) → TaskState (chains i j)} {i : Fin n}
    {j : Fin (length i)} (hchild : child i = some j) (hj : (states i j).finished = false) :
    (onChains (fun i => onChild (call i) (child i)) states).2 ≠ [] := by
  intro hnil
  have hi := List.flatMap_eq_nil_iff.mp hnil i (List.mem_finRange i)
  rw [List.map_eq_nil_iff] at hi
  have hone : (onChild (call i) (child i) (states i)).2 = [] := hi
  rw [hchild] at hone
  exact onChild_ne_nil (hcall i) hj hone

/-- Calling one child of each chain spends what they spend. -/
lemma spends_call
    {call : (i : Fin n) → (j : Fin (length i)) → TaskState (chains i j) →
      TaskState (chains i j) × List TaskEvent}
    (hcall : ∀ i j, IsSound (call i j)) (child : (i : Fin n) → Option (Fin (length i)))
    (base : BaseTask) (states : (i : Fin n) → (j : Fin (length i)) → TaskState (chains i j)) :
    Spends (base.spent ∪ ofChildren fun i => ofChildren fun j => (states i j).spent)
      (onChains (fun i => onChild (call i) (child i)) states).2
      (base.spent ∪ ofChildren fun i => ofChildren fun j =>
        ((onChains (fun i => onChild (call i) (child i)) states).1 i j).spent) :=
  BaseTask.spends_union_children (spends_onChains
    (S := fun i => (j : Fin (length i)) → TaskState (chains i j))
    (P := fun _ s => ofChildren fun j => (s j).spent)
    fun i => spends_onChild (fun j s => (hcall i j).spends s) _ (states i))

include h

/-- `_startrun` of a multitask meets the contract. -/
lemma isSound_startrun :
    IsSound (t := .multiTask idpChains length chains) (startrun methods) where
  spends := by
    intro s
    cases s with | multiTask base subtasks states
    rw [startrun]
    split
    · exact Spends.refl _
    next hbase =>
      have hbase : base.finished = false := by simpa using hbase
      rw [run]
      split
      · exact BaseTask.spends_union (BaseTask.spends_run hbase)
          fun e he => BaseTask.path_of_mem_run he
      · have hcalled := spends_call (fun i j => (h i j).startrun) (started states) base states
        simp only []
        split
        · refine hcalled.append (BaseTask.spends_union (BaseTask.spends_finish hbase) ?_)
          intro e he
          rw [List.mem_singleton.mp he]
        · exact hcalled
  emits := by
    intro s hbase
    cases s with | multiTask base subtasks states
    have hbase : base.finished = false := hbase
    rw [startrun, hbase, if_neg Bool.false_ne_true, run]
    split
    · exact BaseTask.run_ne_nil
    · simp only []
      split
      · exact List.append_ne_nil_of_right_ne_nil _ (List.cons_ne_nil _ _)
      next hstarted =>
        push Not at hstarted
        obtain ⟨i, hi⟩ := hstarted
        obtain ⟨j, hj⟩ := Option.ne_none_iff_exists'.mp hi
        exact onChains_ne_nil (fun i j => (h i j).startrun) hj (finished_of_firstUnfinished hj)

/-- `processFrame` of a multitask meets the contract. -/
lemma isSound_processFrame :
    IsSound (t := .multiTask idpChains length chains) (processFrame methods) where
  spends := by
    intro s
    cases s with | multiTask base subtasks states
    have hcalled := spends_call (fun i j => (h i j).processFrame)
      (fun i => unfinished (states i) (subtask subtasks i)) base states
    rw [processFrame]
    simp only []
    split
    · have hstart : IsSound (t := .multiTask idpChains length chains) (startrun methods) :=
        isSound_startrun h
      have hnext := hstart.spends
        (.multiTask base subtasks (processSubtasks methods subtasks states).1)
      exact hcalled.append hnext
    · exact hcalled
  emits := by
    intro s hbase
    cases s with | multiTask base subtasks states
    rw [processFrame]
    simp only []
    split
    · exact List.append_ne_nil_of_right_ne_nil _ ((isSound_startrun h).emits _ hbase)
    next hnext =>
      simp only [Bool.or_eq_true, decide_eq_true_eq, not_or, not_forall] at hnext
      obtain ⟨i, hi⟩ := hnext.2
      obtain ⟨j, hj⟩ := Option.ne_none_iff_exists'.mp hi
      exact onChains_ne_nil (fun i j => (h i j).processFrame) hj (finished_of_unfinished hj)

end MultiTask

namespace TaskNode

variable {task : TaskTree} {methods : Methods task} (h : methods.Sound)
include h

/-- `_startrun` of a task node meets the contract. -/
lemma isSound_startrun : IsSound (t := .taskNode task) (startrun methods) where
  spends := by
    intro s
    cases s with | taskNode base state
    rw [startrun]
    split
    · exact Spends.refl _
    next hbase =>
      have hbase : base.finished = false := by simpa using hbase
      have hcalled := BaseTask.spends_union_children (b := base)
        (Spends.gather_single (i := (0 : Fin 1)) injective2_ofChild
          (P := fun _ => state.spent) (Q := fun _ => (methods.processFrame state).1.spent)
          (h.processFrame.spends state) fun j hj => absurd (Subsingleton.elim j 0) hj)
      rw [run]
      split
      · refine hcalled.append (BaseTask.spends_union (BaseTask.spends_finish hbase) ?_)
        intro e he
        rw [List.mem_singleton.mp he]
      · exact hcalled
  emits := by
    intro s hbase
    cases s with | taskNode base state
    have hbase : base.finished = false := hbase
    rw [startrun, hbase, if_neg Bool.false_ne_true, run]
    split
    · exact List.append_ne_nil_of_right_ne_nil _ (List.cons_ne_nil _ _)
    next hrunning =>
      -- The wrapped task has not finished, so it had not before, and its frame is an event.
      intro hnil
      refine h.processFrame.emits state ?_ (List.map_eq_nil_iff.mp hnil)
      by_contra hfinished
      rw [Bool.not_eq_false] at hfinished
      apply hrunning
      rw [← TaskState.finish_mem_spent] at hfinished ⊢
      exact (h.processFrame.spends state).subset hfinished

end TaskNode

namespace MachineNode

variable {submachine : TaskTree} {methods : Methods submachine} (h : methods.Sound)
include h

/-- `_startrun` of a machine node meets the contract. -/
lemma isSound_startrun : IsSound (t := .machineNode submachine) (startrun methods) where
  spends := by
    intro s
    cases s with | machineNode base state
    rw [startrun]
    split
    · exact Spends.refl _
    next hbase =>
      have hbase : base.finished = false := by simpa using hbase
      rw [run]
      split
      · refine BaseTask.spends_union (BaseTask.spends_finish hbase) ?_
        intro e he
        rw [List.mem_singleton.mp he]
      · exact BaseTask.spends_union_children
          (Spends.gather_single (i := (0 : Fin 1)) injective2_ofChild
            (P := fun _ => state.spent) (Q := fun _ => (methods.processFrame state).1.spent)
            (h.processFrame.spends state) fun j hj => absurd (Subsingleton.elim j 0) hj)
  emits := by
    intro s hbase
    cases s with | machineNode base state
    have hbase : base.finished = false := hbase
    rw [startrun, hbase, if_neg Bool.false_ne_true, run]
    split
    · exact List.cons_ne_nil _ _
    next hrunning =>
      intro hnil
      exact h.processFrame.emits state (by simpa using hrunning) (List.map_eq_nil_iff.mp hnil)

end MachineNode

/-- **The methods of every object meet the contract.** -/
theorem TaskTree.sound_methods (t : TaskTree) : t.methods.Sound := by
  induction t with
  | task run subtask children ih =>
    exact ⟨Task.isSound_startrun ih, Task.isSound_processFrame ih⟩
  | multiTask idpChains length chains ih =>
    exact ⟨MultiTask.isSound_startrun ih, MultiTask.isSound_processFrame ih⟩
  | taskNode t ih => exact ⟨TaskNode.isSound_startrun ih, TaskNode.isSound_startrun ih⟩
  | machineNode t ih => exact ⟨MachineNode.isSound_startrun ih, MachineNode.isSound_startrun ih⟩

end NaoSoccer
