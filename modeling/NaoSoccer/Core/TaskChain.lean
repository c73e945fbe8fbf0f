import NaoSoccer.Foundation.SequentialWork
import Mathlib.Data.List.Find
import Mathlib.Data.Option.Basic
import Mathlib.Logic.Function.Basic

/-!
# Chains of tasks

A `Task` whose `_chain` has been set runs the tasks of the chain one after the other, in `Task.run`.
A `run` that overrides this one may return a list of tasks, which `processFrame` sets as the chain.
From then on the chain is there, but the next frame calls the same overriding `run`: what walks
through the chain is the method that has been overridden.

Of an overriding `run` each call returns the list, returns nothing, or calls the `run` that it
overrides.  The tasks of the chain are named by their places in the list, and each calls `finish` in
the run that is given.  Whether the parent has been started decides nothing and is left out.
-/

namespace NaoSoccer

open SequentialWork

/-- The fields of a task of the chain, with the number of its runs. -/
structure ChainTask where
  started : Bool
  finished : Bool
  runs : ℕ
  deriving DecidableEq, Repr

namespace ChainTask

/-- `run` of a task that calls `finish` in this run. -/
def run (finishes : ℕ) (t : ChainTask) : ChainTask :=
  { t with finished := t.runs + 1 = finishes, runs := t.runs + 1 }

/-- `BaseTask._startrun`, and `processFrame`: the task has no subtask. -/
def startrun (finishes : ℕ) (t : ChainTask) : ChainTask :=
  let t := { t with started := true }
  if t.finished then t else t.run finishes

end ChainTask

/-- What a call of `run` of the parent does. -/
inductive RunCall
  | returnsChain
  | returnsNothing
  | inherited
  deriving DecidableEq, Repr

/-- How the parent gets its chain: by `setChain`, or from its own `run`, which is given by what it does
in each of its calls. -/
inductive ChainSource
  | setChain
  | returned (calls : ℕ → RunCall)

/-- A `Task` with a chain, the tasks of it, and the number of calls of its `run`. -/
structure TaskChain where
  tasks : ℕ → ChainTask
  finished : Bool
  chain : Option (List ℕ)
  subtask : Option ℕ
  runs : ℕ

/-- What `run` of the parent does in a call. -/
def ChainSource.call : ChainSource → ℕ → RunCall
  | .setChain, _ => .inherited
  | .returned calls, n => calls n

namespace TaskChain

variable (counts : List ℕ)

/-- The parent and the tasks when they have been constructed, and after a call of `setChain`. -/
def construct : ChainSource → TaskChain
  | .setChain =>
    ⟨fun _ => ⟨false, false, 0⟩, false, some (List.range counts.length), none, 0⟩
  | .returned _ => ⟨fun _ => ⟨false, false, 0⟩, false, none, none, 0⟩

/-- The call of `processFrame` or `_startrun` of a task of the chain. -/
def startTask (i : ℕ) (s : TaskChain) : TaskChain :=
  { s with tasks := Function.update s.tasks i ((s.tasks i).startrun (counts.getD i 0)) }

/-- `Task.run` -/
def walk (s : TaskChain) : TaskChain :=
  match s.chain with
  | none => s
  | some chain =>
    if chain = [] then s
    else match chain.find? fun i => !(s.tasks i).finished with
      | some i => { startTask counts i s with subtask := some i }
      | none => { s with finished := true }

/-- `run` of the parent, with the list that it returns. -/
def run (source : ChainSource) (s : TaskChain) : TaskChain × Option (List ℕ) :=
  let called := { s with runs := s.runs + 1 }
  match source.call s.runs with
  | .returnsChain => (called, some (List.range counts.length))
  | .returnsNothing => (called, none)
  | .inherited => (walk counts called, none)

/-- `BaseTask._startrun` of the parent -/
def startrun (source : ChainSource) (s : TaskChain) : TaskChain × Option (List ℕ) :=
  if s.finished then (s, none) else run counts source s

/-- `Task.processFrame` of the parent -/
def processFrame (source : ChainSource) (s : TaskChain) : TaskChain :=
  match s.subtask.filter fun i => !(s.tasks i).finished with
  | some i => startTask counts i s
  | none =>
    let called := startrun counts source s
    match called.2 with
    | none => called.1
    | some [] => called.1
    | some chain => { called.1 with chain := some chain }

/-- The state after some calls of `processFrame`. -/
def after (source : ChainSource) : ℕ → TaskChain
  | 0 => construct counts source
  | n + 1 => processFrame counts source (after source n)

/-- The chain runs in order and to the end. -/
structure RunsToTheEnd (source : ChainSource) : Prop where
  /-- When a task is started the one before it has finished. -/
  order : ∀ n i, i + 1 < counts.length →
    ((after counts source n).tasks (i + 1)).started = false →
      ((after counts source (n + 1)).tasks (i + 1)).started = true →
        ((after counts source n).tasks i).finished = true
  /-- A task that has finished is not run again. -/
  once : ∀ n n' i, i < counts.length → n ≤ n' →
    ((after counts source n).tasks i).finished = true →
      ((after counts source n').tasks i).runs = ((after counts source n).tasks i).runs
  /-- Each task is run up to the run in which it finishes. -/
  exact : ∀ i, i < counts.length → ∃ n, ∀ n' ≥ n,
    ((after counts source n').tasks i).runs = counts.getD i 0
  /-- The parent does not finish before the last task. -/
  notBefore : ∀ n, (after counts source n).finished = true →
    ((after counts source n).tasks (counts.length - 1)).finished = true
  /-- The parent finishes. -/
  finishes : ∀ n, counts.sum + 2 ≤ n → (after counts source n).finished = true

/-! ## How far the chain is -/

variable {counts : List ℕ} {source : ChainSource}

/-- The chain has had this many runs of its tasks, and one call more once the parent has finished. -/
structure Progress (counts : List ℕ) (w : ℕ) (s : TaskChain) : Prop where
  tasks : ∀ i, i < counts.length →
    s.tasks i = ⟨begun counts w i, done counts w i, share counts w i⟩
  finished : s.finished = decide (counts.sum < w)

/-- Where the parent is: before the first task, at a task, or finished.  `wasted` calls of its `run`
have not walked through the chain. -/
inductive Place (counts : List ℕ) (wasted w : ℕ) (s : TaskChain) : Prop
  | first (hw : w = 0) (hsubtask : s.subtask = none) (hruns : s.runs = wasted)
  | at_ (i : ℕ) (hi : i < counts.length) (hsubtask : s.subtask = some i)
      (hbegun : before counts i < w) (hle : w ≤ before counts (i + 1))
      (hruns : s.runs = wasted + i + 1)
  | ended (hw : counts.sum < w) (hsubtask : s.subtask = some (counts.length - 1))
      (hruns : s.runs = wasted + counts.length + 1)

/-- The chain is set and has got so far. -/
structure At (counts : List ℕ) (wasted w : ℕ) (s : TaskChain) : Prop extends
    Progress counts w s where
  chain : s.chain = some (List.range counts.length)
  place : Place counts wasted w s

/-- A task that has not finished is run once more. -/
lemma startrun_current (w i : ℕ) (hi : i < counts.length) (h : Current counts w i) :
    (ChainTask.mk (begun counts w i) (done counts w i) (share counts w i)).startrun
        (counts.getD i 0) =
      ⟨begun counts (w + 1) i, done counts (w + 1) i, share counts (w + 1) i⟩ := by
  have hbegun : begun counts (w + 1) i = true := decide_eq_true (Nat.lt_succ_of_le h.1)
  rw [hbegun, done_succ_self h hi, share_succ_self h hi, h.not_done]
  rfl

/-- A run of the current task brings the chain one further. -/
lemma Progress.startTask (hpos : ∀ n ∈ counts, 0 < n) {w i : ℕ} {s : TaskChain}
    (h : Progress counts w s) (hi : i < counts.length) (hcurrent : Current counts w i) :
    Progress counts (w + 1) (startTask counts i s) := by
  constructor
  · intro j hj
    unfold TaskChain.startTask
    dsimp only
    by_cases hji : j = i
    · subst hji
      rw [Function.update_self, h.tasks j hj]
      exact startrun_current w j hj hcurrent
    · obtain ⟨hbegun, hdone, hshare⟩ :=
        succ_of_not_current hpos hj fun hcurrent' => hji (hcurrent'.unique hcurrent)
      rw [Function.update_of_ne hji, h.tasks j hj, hbegun, hdone, hshare]
  · have hsum : w + 1 ≤ counts.sum := Nat.le_trans hcurrent.2 (before_le_sum _ _)
    have hfinished := h.finished
    rw [decide_eq_false (by omega)] at hfinished
    rw [decide_eq_false (by omega)]
    exact hfinished

/-- What `Task.run` finds in the chain. -/
lemma Progress.find? {w : ℕ} {s : TaskChain} (h : Progress counts w s) :
    (List.range counts.length).find? (fun i => !(s.tasks i).finished) =
      (List.range counts.length).find? fun i => !done counts w i := by
  apply List.find?_congr
  intro i hi
  rw [h.tasks i (List.mem_range.mp hi)]

/-- The tasks of a chain are not none. -/
lemma range_ne_nil {n : ℕ} (hn : 0 < n) : List.range n ≠ [] := by
  rw [Ne, List.range_eq_nil]
  exact Nat.ne_of_gt hn

/-- `Task.run` starts the next task. -/
lemma At.walk_of_lt (hpos : ∀ n ∈ counts, 0 < n) {wasted w j : ℕ} {s : TaskChain}
    (h : At counts wasted w s) (hj : j < counts.length) (hw : before counts j = w)
    (hruns : s.runs = wasted + j) :
    At counts wasted (w + 1) (walk counts { s with runs := s.runs + 1 }) := by
  have hcurrent := current_of_before_eq hpos hj hw
  have hnext := h.startTask hpos hj hcurrent
  have hwalk : walk counts { s with runs := s.runs + 1 } =
      { startTask counts j s with subtask := some j, runs := s.runs + 1 } := by
    simp only [walk, h.chain, range_ne_nil (Nat.zero_lt_of_lt hj), if_false, h.find?,
      find?_of_current hcurrent hj, TaskChain.startTask]
  rw [hwalk]
  exact {
    tasks := hnext.tasks
    finished := hnext.finished
    chain := h.chain
    place := .at_ j hj rfl (hw ▸ Nat.lt_succ_self _) hcurrent.2 (by dsimp only; omega) }

/-- Behind the last task nothing changes but that the parent has finished. -/
lemma Progress.tasks_succ (hpos : ∀ n ∈ counts, 0 < n) {w : ℕ} {s : TaskChain}
    (h : Progress counts w s) (hw : counts.sum ≤ w) (i : ℕ) (hi : i < counts.length) :
    s.tasks i = ⟨begun counts (w + 1) i, done counts (w + 1) i, share counts (w + 1) i⟩ := by
  obtain ⟨hbegun, hdone, hshare⟩ := succ_of_not_current hpos hi (not_current_of_sum_le hw)
  rw [h.tasks i hi, hbegun, hdone, hshare]

/-- `Task.run` finishes the parent behind the last task. -/
lemma At.walk_of_eq (hpos : ∀ n ∈ counts, 0 < n) (hne : counts ≠ []) {wasted : ℕ} {s : TaskChain}
    (h : At counts wasted counts.sum s) (hruns : s.runs = wasted + counts.length)
    (hlast : s.subtask = some (counts.length - 1)) :
    At counts wasted (counts.sum + 1) (walk counts { s with runs := s.runs + 1 }) := by
  have hlength : 0 < counts.length := List.length_pos_iff.mpr hne
  have hwalk : walk counts { s with runs := s.runs + 1 } =
      { s with finished := true, runs := s.runs + 1 } := by
    simp only [walk, h.chain, range_ne_nil hlength, if_false, h.find?,
      find?_of_sum_le (Nat.le_refl _)]
  rw [hwalk]
  exact {
    tasks := h.tasks_succ hpos (Nat.le_refl _)
    finished := (decide_eq_true (Nat.lt_succ_self _)).symm
    chain := h.chain
    place := .ended (Nat.lt_succ_self _) hlast (by dsimp only; omega) }

/-- A call of `run` that does not walk through the chain leaves it where it is. -/
lemma At.waste {wasted w : ℕ} {s : TaskChain} (h : At counts wasted w s) :
    At counts (wasted + 1) w { s with runs := s.runs + 1 } where
  tasks := h.tasks
  finished := h.finished
  chain := h.chain
  place := by
    cases h.place with
    | first hw hsubtask hruns => exact .first hw hsubtask (congrArg (· + 1) hruns)
    | at_ i hi hsubtask hbegun hle hruns =>
      exact .at_ i hi hsubtask hbegun hle (by dsimp only; omega)
    | ended hw hsubtask hruns => exact .ended hw hsubtask (by dsimp only; omega)

/-- A frame in which the parent runs itself. -/
lemma processFrame_idle (source : ChainSource) (hne : counts ≠ []) {s : TaskChain}
    (hidle : s.subtask.filter (fun i => !(s.tasks i).finished) = none)
    (hunfinished : s.finished = false) :
    processFrame counts source s =
      match source.call s.runs with
      | .returnsChain => { s with runs := s.runs + 1, chain := some (List.range counts.length) }
      | .returnsNothing => { s with runs := s.runs + 1 }
      | .inherited => walk counts { s with runs := s.runs + 1 } := by
  simp only [processFrame, hidle, startrun, hunfinished, run]
  cases source.call s.runs with
  | inherited => rfl
  | returnsNothing => rfl
  | returnsChain =>
    have hrange := range_ne_nil (List.length_pos_iff.mpr hne)
    cases hlist : List.range counts.length with
    | nil => exact absurd hlist hrange
    | cons i rest => rfl

/-- `Task.run` does not change how often `run` has been called. -/
lemma walk_runs (s : TaskChain) : (walk counts s).runs = s.runs := by
  unfold walk
  split
  · rfl
  · split
    · rfl
    · split <;> rfl

/-- A call of `run` of the parent, when no task is being run: the chain goes one further if the
call walks through it, and else the call is wasted. -/
lemma At.step_run (hpos : ∀ n ∈ counts, 0 < n) (hne : counts ≠ []) {wasted w j : ℕ} {s : TaskChain}
    (h : At counts wasted w s) (hidle : s.subtask.filter (fun i => !(s.tasks i).finished) = none)
    (hj : j ≤ counts.length) (hw : before counts j = w) (hruns : s.runs = wasted + j)
    (hlast : j = counts.length → s.subtask = some (counts.length - 1)) :
    At counts wasted (w + 1) (processFrame counts source s) ∧
        source.call s.runs = .inherited ∧ (processFrame counts source s).runs = s.runs + 1 ∨
      At counts (wasted + 1) w (processFrame counts source s) ∧
        source.call s.runs ≠ .inherited := by
  have hunfinished : s.finished = false := by
    rw [h.finished]
    exact decide_eq_false (Nat.not_lt_of_le (hw ▸ before_le_sum counts j))
  rw [processFrame_idle source hne hidle hunfinished]
  cases hcall : source.call s.runs with
  | inherited =>
    refine .inl ⟨?_, rfl, walk_runs _⟩
    rcases Nat.lt_or_eq_of_le hj with hlt | heq
    · exact h.walk_of_lt hpos hlt hw hruns
    · subst heq
      rw [before_length] at hw
      subst hw
      exact h.walk_of_eq hpos hne hruns (hlast rfl)
  | returnsNothing => exact .inr ⟨h.waste, RunCall.noConfusion⟩
  | returnsChain =>
    refine .inr ⟨?_, RunCall.noConfusion⟩
    have hwaste := h.waste
    rw [← h.chain]
    exact hwaste

/-- A frame, once the chain is set.  Unless `run` is called and does not walk through the chain, the
chain goes one further. -/
theorem At.step (source : ChainSource) (hpos : ∀ n ∈ counts, 0 < n) (hne : counts ≠ []) {wasted w : ℕ} {s : TaskChain}
    (h : At counts wasted w s) :
    At counts wasted (w + 1) (processFrame counts source s) ∧
        ((processFrame counts source s).runs = s.runs ∨
          source.call s.runs = .inherited ∧ (processFrame counts source s).runs = s.runs + 1) ∨
      At counts (wasted + 1) w (processFrame counts source s) ∧
        ∃ j ≤ counts.length, s.runs = wasted + j ∧ source.call s.runs ≠ .inherited := by
  have hlength : 0 < counts.length := List.length_pos_iff.mpr hne
  cases h.place with
  | first hw hsubtask hruns =>
    have hidle : s.subtask.filter (fun i => !(s.tasks i).finished) = none := by
      rw [hsubtask]
      rfl
    rcases h.step_run hpos hne hidle (Nat.zero_le _) hw.symm hruns (by omega) with hwalk | hwaste
    · exact .inl ⟨hwalk.1, .inr hwalk.2⟩
    · exact .inr ⟨hwaste.1, 0, Nat.zero_le _, hruns, hwaste.2⟩
  | at_ i hi hsubtask hbegun hle hruns =>
    have hfinished : (s.tasks i).finished = done counts w i := by rw [h.tasks i hi]
    rcases Nat.lt_or_eq_of_le hle with hlt | heq
    · have hcurrent : Current counts w i := ⟨Nat.le_of_lt hbegun, hlt⟩
      have hnext := h.startTask hpos hi hcurrent
      have hbusy : s.subtask.filter (fun i => !(s.tasks i).finished) = some i := by
        simp [hsubtask, hfinished, hcurrent.not_done]
      have hframe : processFrame counts source s = startTask counts i s := by
        simp only [processFrame, hbusy]
      rw [hframe]
      refine .inl ⟨⟨hnext, h.chain, ?_⟩, .inl rfl⟩
      exact .at_ i hi hsubtask (Nat.lt_succ_of_lt hbegun) hlt hruns
    · have hidle : s.subtask.filter (fun i => !(s.tasks i).finished) = none := by
        have hdone : done counts w i = true := decide_eq_true (Nat.le_of_eq heq.symm)
        simp [hsubtask, hfinished, hdone]
      have hlast : i + 1 = counts.length → s.subtask = some (counts.length - 1) := by
        intro hend
        rw [hsubtask, ← hend]
        rfl
      rcases h.step_run hpos hne hidle hi heq.symm hruns hlast with hwalk | hwaste
      · exact .inl ⟨hwalk.1, .inr hwalk.2⟩
      · exact .inr ⟨hwaste.1, i + 1, hi, hruns, hwaste.2⟩
  | ended hw hsubtask hruns =>
    have hfinished : s.finished = true := h.finished.trans (decide_eq_true hw)
    have hdone : (s.tasks (counts.length - 1)).finished = true := by
      rw [h.tasks _ (Nat.sub_one_lt_of_lt hlength)]
      exact decide_eq_true ((before_le_sum _ _).trans (Nat.le_of_lt hw))
    have hidle : s.subtask.filter (fun i => !(s.tasks i).finished) = none := by
      simp [hsubtask, hdone]
    have hframe : processFrame counts source s = s := by
      simp only [processFrame, hidle, startrun, hfinished, if_true]
    rw [hframe]
    refine .inl ⟨⟨⟨h.tasks_succ hpos (Nat.le_of_lt hw), ?_⟩, h.chain, ?_⟩, .inl rfl⟩
    · exact hfinished.trans (decide_eq_true (Nat.lt_succ_of_lt hw)).symm
    · exact .ended (Nat.lt_succ_of_lt hw) hsubtask hruns

/-! ## Whole runs -/

/-- After the calls that have not walked through it, each call brings the chain one further. -/
def OneByOne (counts : List ℕ) (source : ChainSource) (wasted : ℕ) : Prop :=
  ∀ n, Progress counts (n - wasted) (after counts source n)

/-- A chain that loses one call at most runs in order and to the end. -/
lemma RunsToTheEnd.of_oneByOne (hne : counts ≠ []) {wasted : ℕ} (hwasted : wasted ≤ 1)
    (h : OneByOne counts source wasted) : RunsToTheEnd counts source := by
  have hlength : 0 < counts.length := List.length_pos_iff.mpr hne
  constructor
  · intro n i hi hbefore hafter
    rw [(h n).tasks _ hi] at hbefore
    rw [(h (n + 1)).tasks _ hi] at hafter
    rw [(h n).tasks i (Nat.lt_of_succ_lt hi)]
    have hnot := of_decide_eq_false hbefore
    have hyes := of_decide_eq_true hafter
    exact decide_eq_true (by omega)
  · intro n n' i hi hle hfinished
    rw [(h n).tasks i hi] at hfinished ⊢
    rw [(h n').tasks i hi]
    have hdone : done counts (n' - wasted) i = true := by
      have hle' := of_decide_eq_true hfinished
      exact decide_eq_true (by omega)
    exact (share_of_done hi hdone).trans (share_of_done hi hfinished).symm
  · intro i hi
    refine ⟨counts.sum + wasted, fun n hn => ?_⟩
    rw [(h n).tasks i hi]
    apply share_of_done hi
    have hle := before_le_sum counts (i + 1)
    exact decide_eq_true (by omega)
  · intro n hfinished
    rw [(h n).finished] at hfinished
    have hlt := of_decide_eq_true hfinished
    rw [(h n).tasks _ (Nat.sub_one_lt_of_lt hlength)]
    exact decide_eq_true ((before_le_sum _ _).trans (Nat.le_of_lt hlt))
  · intro n hn
    rw [(h n).finished]
    exact decide_eq_true (by omega)

/-- The tasks of a chain before the first of them is started. -/
lemma progress_zero (hpos : ∀ n ∈ counts, 0 < n) {s : TaskChain}
    (htasks : ∀ i, s.tasks i = ⟨false, false, 0⟩) (hfinished : s.finished = false) :
    Progress counts 0 s := by
  refine ⟨fun i hi => ?_, hfinished.trans (decide_eq_false (Nat.not_lt_zero _)).symm⟩
  have hwork := pos_getD hpos hi
  have hbegun : begun counts 0 i = false := decide_eq_false (Nat.not_lt_zero _)
  have hdone : done counts 0 i = false := by
    refine decide_eq_false ?_
    rw [before_succ hi]
    omega
  have hshare : share counts 0 i = 0 := by
    unfold share
    omega
  rw [htasks, hbegun, hdone, hshare]

/-- The chain is set and none of it has been run. -/
lemma at_zero (hpos : ∀ n ∈ counts, 0 < n) {wasted : ℕ} {s : TaskChain}
    (htasks : ∀ i, s.tasks i = ⟨false, false, 0⟩) (hfinished : s.finished = false)
    (hchain : s.chain = some (List.range counts.length)) (hsubtask : s.subtask = none)
    (hruns : s.runs = wasted) : At counts wasted 0 s :=
  ⟨progress_zero hpos htasks hfinished, hchain, .first rfl hsubtask hruns⟩

/-- If all calls of `run` from one on walk through the chain, it goes one further in each frame. -/
lemma at_after (source : ChainSource) (wasted : ℕ) (hpos : ∀ n ∈ counts, 0 < n)
    (hne : counts ≠ []) (hset : At counts wasted 0 (after counts source wasted))
    (hcalls : ∀ j ≤ counts.length, source.call (wasted + j) = .inherited) (n : ℕ) :
    At counts wasted n (after counts source (wasted + n)) := by
  induction n with
  | zero => exact hset
  | succ n ih =>
    rcases ih.step source hpos hne with hnext | ⟨-, j, hj, hruns, hcall⟩
    · exact hnext.1
    · rw [hruns] at hcall
      exact absurd (hcalls j hj) hcall

/-- The parent when `run` has been called this often and no chain has been set. -/
def unset (n : ℕ) : TaskChain := ⟨fun _ => ⟨false, false, 0⟩, false, none, none, n⟩

/-- A frame when no chain has been set. -/
lemma processFrame_unset (source : ChainSource) (hpos : ∀ n ∈ counts, 0 < n) (hne : counts ≠ [])
    (n : ℕ) :
    At counts (n + 1) 0 (processFrame counts source (unset n)) ∧
        source.call n = .returnsChain ∧ (processFrame counts source (unset n)).runs = n + 1 ∨
      source.call n ≠ .returnsChain ∧ processFrame counts source (unset n) = unset (n + 1) := by
  have hframe := processFrame_idle source (s := unset n) hne rfl rfl
  have hruns : (unset n).runs = n := rfl
  rw [hruns] at hframe
  rw [hframe]
  cases source.call n with
  | returnsChain => exact .inl ⟨at_zero hpos (fun _ => rfl) rfl rfl rfl rfl, rfl, rfl⟩
  | returnsNothing => exact .inr ⟨RunCall.noConfusion, rfl⟩
  | inherited => exact .inr ⟨RunCall.noConfusion, rfl⟩

/-- When a chain has been set by `setChain`, or when the first call of an overriding `run` returns it
and the calls that follow, one for each task and one more, call the `run` that is overridden. -/
def Walked (counts : List ℕ) : ChainSource → Prop
  | .setChain => True
  | .returned calls =>
    calls 0 = .returnsChain ∧ ∀ n, 0 < n → n ≤ counts.length + 1 → calls n = .inherited

/-- A chain that is walked through runs in order and to the end. -/
lemma runsToTheEnd_of_walked (hpos : ∀ n ∈ counts, 0 < n) (hne : counts ≠ [])
    (h : Walked counts source) : RunsToTheEnd counts source := by
  cases source with
  | setChain =>
    have hset : At counts 0 0 (after counts .setChain 0) :=
      at_zero hpos (fun _ => rfl) rfl rfl rfl rfl
    refine .of_oneByOne hne (Nat.zero_le 1) fun n => ?_
    have hn := at_after .setChain 0 hpos hne hset (fun _ _ => rfl) n
    rw [Nat.zero_add] at hn
    exact hn.toProgress
  | returned calls =>
    obtain ⟨hfirst, hrest⟩ := h
    have hset : At counts 1 0 (after counts (.returned calls) 1) := by
      rcases processFrame_unset (.returned calls) hpos hne 0 with hset | hunset
      · exact hset.1
      · exact absurd hfirst hunset.1
    refine .of_oneByOne hne (Nat.le_refl 1) fun n => ?_
    cases n with
    | zero => exact progress_zero hpos (fun _ => rfl) rfl
    | succ n =>
      have hn := at_after (.returned calls) 1 hpos hne hset
        (fun j hj => hrest (1 + j) (by omega) (by omega)) n
      rw [Nat.add_comm] at hn
      exact hn.toProgress

/-- A call is lost before the chain is set, and whenever `run` does not walk through it then. -/
lemma after_returned (calls : ℕ → RunCall) (hpos : ∀ n ∈ counts, 0 < n) (hne : counts ≠ [])
    (n : ℕ) :
    after counts (.returned calls) n = unset n ∨
      ∃ wasted w, wasted + w = n ∧ 1 ≤ wasted ∧
        At counts wasted w (after counts (.returned calls) n) ∧
        (wasted = 1 → calls 0 = .returnsChain ∧
          ∀ r, 0 < r → r < (after counts (.returned calls) n).runs → calls r = .inherited) := by
  induction n with
  | zero => exact .inl rfl
  | succ n ih =>
    rcases ih with hunset | ⟨wasted, w, hsum, hwasted, hat, honce⟩
    · have hframe := processFrame_unset (.returned calls) hpos hne n
      rw [← hunset] at hframe
      rcases hframe with ⟨hat, hchain, hruns⟩ | ⟨-, hunset'⟩
      · refine .inr ⟨n + 1, 0, rfl, Nat.succ_pos n, hat, fun hone => ?_⟩
        obtain rfl : n = 0 := Nat.succ.inj hone
        refine ⟨hchain, fun r hr hlt => ?_⟩
        have hone' : (after counts (.returned calls) 1).runs = 1 := hruns
        rw [hone'] at hlt
        exact absurd hr (Nat.not_lt_of_le (Nat.le_of_lt_succ hlt))
      · exact .inl hunset'
    · refine .inr ?_
      rcases hat.step (.returned calls) hpos hne with ⟨hnext, hruns⟩ | ⟨hwaste, -⟩
      · refine ⟨wasted, w + 1, by omega, hwasted, hnext, fun hone => ?_⟩
        obtain ⟨hfirst, hrest⟩ := honce hone
        refine ⟨hfirst, fun r hr hlt => ?_⟩
        rcases hruns with hsame | ⟨hcall, hmore⟩
        · exact hrest r hr (hsame ▸ hlt)
        · rcases Nat.lt_or_eq_of_le (Nat.le_of_lt_succ (hmore ▸ hlt)) with hlt | heq
          · exact hrest r hr hlt
          · rw [heq]
            exact hcall
      · exact ⟨wasted + 1, w, by omega, Nat.le_succ_of_le hwasted, hwaste, by omega⟩

/-- A chain runs in order and to the end exactly when it is walked through. -/
theorem runsToTheEnd_iff (counts : List ℕ) (source : ChainSource) (hne : counts ≠ [])
    (hpos : ∀ n ∈ counts, 0 < n) : RunsToTheEnd counts source ↔ Walked counts source := by
  refine ⟨fun h => ?_, runsToTheEnd_of_walked hpos hne⟩
  cases source with
  | setChain => trivial
  | returned calls =>
    have hfinished := h.finishes (counts.sum + 2) (Nat.le_refl _)
    rcases after_returned calls hpos hne (counts.sum + 2) with
      hunset | ⟨wasted, w, hsum, hwasted, hat, honce⟩
    · rw [hunset] at hfinished
      cases hfinished
    · have hw : counts.sum < w := of_decide_eq_true (hat.finished.symm.trans hfinished)
      obtain ⟨hfirst, hrest⟩ := honce (by omega)
      refine ⟨hfirst, fun n hn hle => hrest n hn ?_⟩
      cases hat.place with
      | first hzero => omega
      | at_ i hi hsubtask hbegun hle' =>
        have hbefore := before_le_sum counts (i + 1)
        omega
      | ended hw' hsubtask hruns => omega

/-- Two tasks that are set as a chain. -/
theorem runsToTheEnd_iff_twoTasks :
    RunsToTheEnd [2, 1] .setChain ↔ Walked [2, 1] .setChain := by
  apply runsToTheEnd_iff [2, 1] .setChain
  · decide
  · decide

/-- A task that is returned as a chain by an overriding `run`, which returns it in each of its
calls. -/
theorem not_runsToTheEnd_returned :
    ¬ RunsToTheEnd [1] (.returned fun _ => .returnsChain) := by
  intro h
  exact absurd (h.finishes 3 (by decide)) (by decide)

end TaskChain

end NaoSoccer
