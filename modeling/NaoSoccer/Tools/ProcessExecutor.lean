import NaoSoccer.Foundation.LabelledRun
import Mathlib.Logic.Function.Basic

/-!
# The process queues of the tool

`queueProcess` puts a process into the queue of its priority, and one worker thread takes the
processes from the queues and runs them.  The worker empties the queue of high priority, then the
queue of normal priority, and then waits for new processes.  It looks at the first queue again only
after the second one is empty.

Every section that holds `qmutex_` is one step, and so is every other test of the worker and every
run of a task.  Tasks are not looked into: a task that queues processes does so by steps of
`queueProcess` while it runs.
-/

namespace NaoSoccer

namespace ProcessExecutor

open LabelledRun

/-- `ProcessExecutor::ProcessPriority` -/
inductive ProcessPriority
  | high
  | normal
  deriving DecidableEq

/-- The queue that the loop over `pqueues_` comes to next. -/
def ProcessPriority.next : ProcessPriority → Option ProcessPriority
  | .high => some .normal
  | .normal => none

/-- The priorities above this one. -/
def ProcessPriority.above : ProcessPriority → List ProcessPriority
  | .high => []
  | .normal => [.high]

/-- Where the worker is in `workerProcess`; `T` is the type `ToolProcess`. -/
inductive WorkerAt (T : Type*)
  /-- at `while(!stopping_)` -/
  | loop
  /-- at `qcv_.wait` -/
  | wait
  /-- at `while(!pq.empty())` -/
  | drain (pq : ProcessPriority)
  /-- at the section that takes the front of the queue -/
  | take (pq : ProcessPriority)
  /-- at `tp.task()` -/
  | task (pq : ProcessPriority) (tp : T)
  | done
  /-- after `front` of an empty queue -/
  | undefined

/-- The queues and the worker, with a record of what has been queued and run. -/
structure State (T : Type*) where
  pqueues : ProcessPriority → List T
  stopping : Bool
  worker : WorkerAt T
  queued : List (ProcessPriority × T)
  ran : List (ProcessPriority × T)

/-- A step of one of the threads. -/
inductive Act (T : Type*)
  | queueProcess (tp : T) (priority : ProcessPriority)
  | stop
  | worker

namespace State

variable {T : Type*}

/-- No process has been queued, and the worker has been started. -/
def start : State T := ⟨fun _ => [], false, .loop, [], []⟩

/-- `ProcessExecutor::queueProcess` -/
def queueProcess (tp : T) (priority : ProcessPriority) (s : State T) : State T :=
  { s with
    pqueues := Function.update s.pqueues priority (s.pqueues priority ++ [tp])
    queued := s.queued ++ [(priority, tp)] }

/-- The predicate of `qcv_.wait`. -/
def awake (s : State T) : Bool :=
  s.stopping || !(s.pqueues .high).isEmpty || !(s.pqueues .normal).isEmpty

/-- A step of `ProcessExecutor::workerProcess` -/
def workerProcess (s : State T) : State T :=
  match s.worker with
  | .loop => { s with worker := if s.stopping then .done else .wait }
  | .wait => if s.awake then { s with worker := .drain .high } else s
  | .drain pq =>
    if (s.pqueues pq).isEmpty then { s with worker := pq.next.elim .loop .drain }
    else { s with worker := .take pq }
  | .take pq =>
    match s.pqueues pq with
    | tp :: rest =>
      { s with pqueues := Function.update s.pqueues pq rest, worker := .task pq tp }
    | [] => { s with worker := .undefined }
  | .task pq tp => { s with ran := s.ran ++ [(pq, tp)], worker := .drain pq }
  | .done => s
  | .undefined => s

/-- One step. -/
def step : Act T → State T → State T
  | .queueProcess tp priority, s => s.queueProcess tp priority
  | .stop, s => { s with stopping := true }
  | .worker, s => s.workerProcess

/-! ## What the queue is meant to do -/

/-- The processes of one priority in a record. -/
def ofPriority (pq : ProcessPriority) (record : List (ProcessPriority × T)) : List T :=
  (record.filter fun entry => entry.1 = pq).map Prod.snd

/-- If this step takes a process from its queue, no process of higher priority is waiting. -/
def TakesHighest (a : Act T) (s : State T) : Prop :=
  ∀ pq, a = .worker → s.worker = .take pq → ∀ other ∈ pq.above, s.pqueues other = []

/-- **The queue respects priorities** in a run: the processes of each priority that have been run
are the first ones that have been queued with it, in order and each of them once, and whenever the
worker takes a process no process of higher priority is waiting. -/
structure RespectsPriorities (acts : List (Act T)) : Prop where
  inOrder : ∀ pre, pre <+: acts → ∀ pq,
    ofPriority pq (run step start pre).ran <+: ofPriority pq (run step start pre).queued
  takesHighest : Guarded step TakesHighest start acts

/-- The worker is past the queue of high priority and has not come back to wait. -/
def AtNormal (s : State T) : Prop :=
  match s.worker with
  | .drain pq => pq = .normal
  | .take pq => pq = .normal
  | .task pq _ => pq = .normal
  | _ => False

/-- The arrivals that do no harm: while the worker is at the queue of normal priority, a process is
queued only if no process of the other priority is waiting. -/
def ArrivesInTime : Act T → State T → Prop
  | .queueProcess _ .high, s => s.AtNormal → s.pqueues .normal = []
  | .queueProcess _ .normal, s => s.AtNormal → s.pqueues .high = []
  | _, _ => True

/-! ## The steps of the worker -/

/-- An empty queue is left for the next one. -/
lemma workerProcess_drain_nil {s : State T} {pq : ProcessPriority} (h : s.worker = .drain pq)
    (hqueue : s.pqueues pq = []) :
    s.workerProcess = { s with worker := pq.next.elim .loop .drain } := by
  rw [workerProcess, h]
  exact if_pos (by rw [hqueue]; rfl)

/-- A process is to be taken from a queue that is not empty. -/
lemma workerProcess_drain {s : State T} {pq : ProcessPriority} (h : s.worker = .drain pq)
    (hqueue : s.pqueues pq ≠ []) : s.workerProcess = { s with worker := .take pq } := by
  rw [workerProcess, h]
  exact if_neg (by rwa [List.isEmpty_iff])

/-- The first process is taken. -/
lemma workerProcess_take {s : State T} {pq : ProcessPriority} {tp : T} {rest : List T}
    (h : s.worker = .take pq) (hqueue : s.pqueues pq = tp :: rest) :
    s.workerProcess =
      { s with pqueues := Function.update s.pqueues pq rest, worker := .task pq tp } := by
  rw [workerProcess, h]
  dsimp only
  rw [hqueue]

/-- It is run, and the queue is looked at again. -/
lemma workerProcess_task {s : State T} {pq : ProcessPriority} {tp : T}
    (h : s.worker = .task pq tp) :
    s.workerProcess = { s with ran := s.ran ++ [(pq, tp)], worker := .drain pq } := by
  rw [workerProcess, h]

/-- The worker waits or comes to the first queue, and stays out of the second one. -/
lemma workerProcess_of_wait {s : State T} (h : s.worker = .loop ∨ s.worker = .wait) :
    ∃ worker, s.workerProcess = { s with worker := worker } ∧
      (worker = .done ∨ worker = .wait ∨ worker = .drain .high) := by
  rcases h with h | h
  · refine ⟨if s.stopping then .done else .wait, by rw [workerProcess, h], ?_⟩
    split
    · exact Or.inl rfl
    · exact Or.inr (Or.inl rfl)
  · by_cases hawake : s.awake
    · refine ⟨.drain .high, ?_, Or.inr (Or.inr rfl)⟩
      rw [workerProcess, h]
      exact if_pos hawake
    · refine ⟨.wait, ?_, Or.inr (Or.inl rfl)⟩
      rw [workerProcess, h]
      dsimp only
      rw [if_neg hawake, ← h]

/-! ## Every process is in one place -/

/-- The process that has been taken and not yet run. -/
def inHand (pq : ProcessPriority) (s : State T) : List T :=
  match s.worker with
  | .task priority tp => if priority = pq then [tp] else []
  | _ => []

/-- One more entry of a record. -/
lemma ofPriority_concat (pq priority : ProcessPriority) (tp : T)
    (record : List (ProcessPriority × T)) :
    ofPriority pq (record ++ [(priority, tp)]) =
      ofPriority pq record ++ if priority = pq then [tp] else [] := by
  unfold ofPriority
  rw [List.filter_append, List.map_append]
  by_cases h : priority = pq <;> simp [h]

/-- What has been queued has been run, is being run or is waiting, in this order, and the worker
takes from a queue only if it is not empty. -/
structure Accounted (s : State T) : Prop where
  places : ∀ pq,
    ofPriority pq s.ran ++ s.inHand pq ++ s.pqueues pq = ofPriority pq s.queued
  nonempty : ∀ pq, s.worker = .take pq → s.pqueues pq ≠ []

/-- At the start nothing is queued. -/
lemma accounted_start : (start : State T).Accounted :=
  ⟨fun _ => rfl, fun _ h => by cases h⟩

namespace Accounted

variable {s : State T}

/-- A new process waits behind the others. -/
lemma queueProcess (h : s.Accounted) (tp : T) (priority : ProcessPriority) :
    (s.queueProcess tp priority).Accounted := by
  refine ⟨fun pq => ?_, fun pq hworker => ?_⟩
  · show ofPriority pq s.ran ++ s.inHand pq ++ _ = ofPriority pq (s.queued ++ [(priority, tp)])
    rw [ofPriority_concat, ← h.places pq]
    by_cases hpq : priority = pq
    · subst hpq
      simp [State.queueProcess]
    · simp [State.queueProcess, hpq, Function.update_of_ne (Ne.symm hpq)]
  · have hne := h.nonempty pq hworker
    by_cases hpq : pq = priority
    · subst hpq
      simp [State.queueProcess]
    · simpa [State.queueProcess, Function.update_of_ne hpq] using hne

/-- The worker goes elsewhere without a process. -/
lemma move (h : s.Accounted) (hhand : ∀ pq, s.inHand pq = []) {worker : WorkerAt T}
    (htask : ∀ pq tp, worker ≠ .task pq tp) (htake : ∀ pq, worker = .take pq → s.pqueues pq ≠ []) :
    ({ s with worker := worker } : State T).Accounted := by
  refine ⟨fun pq => ?_, htake⟩
  have hhand' : ({ s with worker := worker } : State T).inHand pq = [] := by
    cases worker with
    | task priority tp => exact absurd rfl (htask priority tp)
    | _ => rfl
  have hplaces := h.places pq
  rw [hhand pq] at hplaces
  rw [hhand']
  exact hplaces

/-- **The step lemma**: the worker takes the process that has waited longest. -/
lemma workerProcess (h : s.Accounted) : s.workerProcess.Accounted := by
  cases hworker : s.worker with
  | loop =>
    obtain ⟨worker, heq, hplace⟩ := workerProcess_of_wait (Or.inl hworker)
    rw [heq]
    refine h.move (fun pq => by rw [inHand, hworker]) ?_ ?_ <;>
      rcases hplace with rfl | rfl | rfl <;> simp
  | wait =>
    obtain ⟨worker, heq, hplace⟩ := workerProcess_of_wait (Or.inr hworker)
    rw [heq]
    refine h.move (fun pq => by rw [inHand, hworker]) ?_ ?_ <;>
      rcases hplace with rfl | rfl | rfl <;> simp
  | drain pq =>
    by_cases hqueue : s.pqueues pq = []
    · rw [workerProcess_drain_nil hworker hqueue]
      refine h.move (fun pq => by rw [inHand, hworker]) ?_ ?_ <;> cases pq <;>
        simp [ProcessPriority.next]
    · rw [workerProcess_drain hworker hqueue]
      refine h.move (fun pq => by rw [inHand, hworker]) (by simp) fun pq' heq => ?_
      cases heq
      exact hqueue
  | take pq =>
    obtain ⟨tp, rest, hqueue⟩ := List.exists_cons_of_ne_nil (h.nonempty pq hworker)
    rw [workerProcess_take hworker hqueue]
    refine ⟨fun other => ?_, fun _ heq => by cases heq⟩
    have hplaces := h.places other
    rw [inHand, hworker] at hplaces
    by_cases hother : other = pq
    · subst hother
      rw [hqueue] at hplaces
      simpa [inHand] using hplaces
    · simpa [inHand, Function.update_of_ne hother, Ne.symm hother] using hplaces
  | task pq tp =>
    rw [workerProcess_task hworker]
    refine ⟨fun other => ?_, fun _ heq => by cases heq⟩
    have hplaces := h.places other
    rw [inHand, hworker] at hplaces
    show ofPriority other (s.ran ++ [(pq, tp)]) ++ [] ++ s.pqueues other = ofPriority other s.queued
    rw [ofPriority_concat, List.append_nil]
    exact hplaces
  | done =>
    rw [State.workerProcess, hworker]
    exact h
  | undefined =>
    rw [State.workerProcess, hworker]
    exact h

/-- Every step keeps the account. -/
lemma step (a : Act T) (s : State T) (h : s.Accounted) : (State.step a s).Accounted := by
  cases a with
  | queueProcess tp priority => exact h.queueProcess tp priority
  | stop => exact ⟨h.places, h.nonempty⟩
  | worker => exact h.workerProcess

/-- **Processes of one priority are run in order**, each of them once. -/
lemma inOrder (h : s.Accounted) (pq : ProcessPriority) :
    ofPriority pq s.ran <+: ofPriority pq s.queued := by
  rw [← h.places pq, List.append_assoc]
  exact List.prefix_append _ _

end Accounted

/-! ## Priorities -/

/-- The worker is at the queue of normal priority, and processes are waiting in both queues. -/
structure Crossed (s : State T) : Prop where
  atNormal : s.AtNormal
  high : s.pqueues .high ≠ []
  normal : s.pqueues .normal ≠ []

variable {s : State T}

/-- The places of the worker at the queue of normal priority. -/
lemma AtNormal.cases (h : s.AtNormal) : s.worker = .drain .normal ∨ s.worker = .take .normal ∨
    ∃ tp, s.worker = .task .normal tp := by
  unfold AtNormal at h
  cases hworker : s.worker with
  | drain pq =>
    rw [hworker] at h
    exact Or.inl (congrArg _ h)
  | take pq =>
    rw [hworker] at h
    exact Or.inr (Or.inl (congrArg _ h))
  | task pq tp =>
    rw [hworker] at h
    exact Or.inr (Or.inr ⟨tp, congrArg (WorkerAt.task · tp) h⟩)
  | _ =>
    rw [hworker] at h
    exact h.elim

/-- While no process of high priority is in the way, the worker takes the right ones. -/
lemma takesHighest_of_not_crossed (h : s.Accounted) (hcrossed : ¬ s.Crossed) (a : Act T) :
    TakesHighest a s := by
  intro pq _ hworker other hother
  cases pq with
  | high => exact absurd hother List.not_mem_nil
  | normal =>
    cases List.mem_singleton.mp hother
    by_contra hhigh
    have hat : s.AtNormal := by rw [AtNormal, hworker]
    exact hcrossed ⟨hat, hhigh, h.nonempty _ hworker⟩

/-- The worker does not cross the queues by itself. -/
lemma Crossed.of_workerProcess (h : s.workerProcess.Crossed) : s.Crossed := by
  cases hworker : s.worker with
  | loop =>
    obtain ⟨worker, heq, hplace⟩ := workerProcess_of_wait (Or.inl hworker)
    have hat := h.atNormal
    rw [heq] at hat
    rcases hplace with rfl | rfl | rfl <;> simp [AtNormal] at hat
  | wait =>
    obtain ⟨worker, heq, hplace⟩ := workerProcess_of_wait (Or.inr hworker)
    have hat := h.atNormal
    rw [heq] at hat
    rcases hplace with rfl | rfl | rfl <;> simp [AtNormal] at hat
  | drain pq =>
    by_cases hqueue : s.pqueues pq = []
    · -- the worker comes to the second queue when the first one is empty
      rw [workerProcess_drain_nil hworker hqueue] at h
      cases pq with
      | high => exact absurd hqueue h.high
      | normal => exact absurd hqueue h.normal
    · rw [workerProcess_drain hworker hqueue] at h
      have hat : s.AtNormal := by
        rw [AtNormal, hworker]
        exact h.atNormal
      exact ⟨hat, h.high, h.normal⟩
  | take pq =>
    cases hqueue : s.pqueues pq with
    | nil =>
      have hundefined : s.workerProcess.worker = .undefined := by
        rw [workerProcess, hworker]
        dsimp only
        rw [hqueue]
      have hat := h.atNormal
      rw [AtNormal, hundefined] at hat
      exact hat.elim
    | cons tp rest =>
      rw [workerProcess_take hworker hqueue] at h
      have hpq : pq = .normal := h.atNormal
      subst hpq
      have hat : s.AtNormal := by rw [AtNormal, hworker]
      refine ⟨hat, ?_, by rw [hqueue]; exact List.cons_ne_nil tp rest⟩
      simpa using h.high
  | task pq tp =>
    rw [workerProcess_task hworker] at h
    have hat : s.AtNormal := by
      rw [AtNormal, hworker]
      exact h.atNormal
    exact ⟨hat, h.high, h.normal⟩
  | done =>
    rwa [workerProcess, hworker] at h
  | undefined =>
    rwa [workerProcess, hworker] at h

/-- Nor do arrivals in time. -/
lemma not_crossed_step {a : Act T} (harrival : ArrivesInTime a s) (hcrossed : ¬ s.Crossed) :
    ¬ (step a s).Crossed := by
  intro h
  cases a with
  | queueProcess tp priority =>
    have hat : s.AtNormal := h.atNormal
    cases priority with
    | high =>
      have hnormal : s.pqueues .normal ≠ [] := by
        simpa [step, queueProcess] using h.normal
      exact hnormal (harrival hat)
    | normal =>
      have hhigh : s.pqueues .high ≠ [] := by
        simpa [step, queueProcess] using h.high
      exact hhigh (harrival hat)
  | stop => exact hcrossed ⟨h.atNormal, h.high, h.normal⟩
  | worker => exact hcrossed h.of_workerProcess

/-- Other arrivals do. -/
lemma crossed_of_not_arrivesInTime {a : Act T} (h : ¬ ArrivesInTime a s) :
    (step a s).Crossed := by
  cases a with
  | queueProcess tp priority =>
    cases priority with
    | high =>
      obtain ⟨hat, hnormal⟩ := Classical.not_imp.mp h
      exact ⟨hat, by simp [step, queueProcess], by simpa [step, queueProcess] using hnormal⟩
    | normal =>
      obtain ⟨hat, hhigh⟩ := Classical.not_imp.mp h
      exact ⟨hat, by simpa [step, queueProcess] using hhigh, by simp [step, queueProcess]⟩
  | stop => exact absurd trivial h
  | worker => exact absurd trivial h

/-- Crossed queues stay crossed until the worker takes the wrong process. -/
lemma Crossed.step (h : s.Crossed) {a : Act T} (htakes : TakesHighest a s) :
    (State.step a s).Crossed := by
  cases a with
  | queueProcess tp priority =>
    refine ⟨h.atNormal, ?_, ?_⟩ <;> cases priority <;>
      simp [State.step, queueProcess, h.high, h.normal]
  | stop => exact ⟨h.atNormal, h.high, h.normal⟩
  | worker =>
    rcases h.atNormal.cases with hworker | hworker | ⟨tp, hworker⟩
    · refine ⟨?_, ?_, ?_⟩ <;>
        simp [State.step, workerProcess_drain hworker h.normal, AtNormal, h.high, h.normal]
    · exact absurd (htakes .normal rfl hworker .high (List.mem_singleton_self _)) h.high
    · refine ⟨?_, ?_, ?_⟩ <;>
        simp [State.step, workerProcess_task hworker, AtNormal, h.high, h.normal]

/-- At most three steps of the worker lead from crossed queues to the wrong process: it ends a task,
looks at the queue and takes. -/
lemma Crossed.not_guarded (h : s.Crossed) :
    ¬ Guarded State.step TakesHighest s (List.replicate 3 .worker) := by
  rintro ⟨h₁, h₂, h₃, -⟩
  have hnext := h.step h₁
  have hlast := hnext.step h₂
  rcases h.atNormal.cases with hworker | hworker | ⟨tp, hworker⟩
  · refine hnext.high (h₂ .normal rfl ?_ .high (List.mem_singleton_self _))
    rw [State.step, workerProcess_drain hworker h.normal]
  · exact h.high (h₁ .normal rfl hworker .high (List.mem_singleton_self _))
  · have hdrain : (State.step .worker s).worker = .drain .normal := by
      rw [State.step, workerProcess_task hworker]
    refine hlast.high (h₃ .normal rfl ?_ .high (List.mem_singleton_self _))
    show (State.step .worker s).workerProcess.worker = _
    rw [workerProcess_drain hdrain hnext.normal]

/-- The worker's own steps are no arrivals. -/
lemma guarded_worker (s : State T) (k : ℕ) :
    Guarded State.step ArrivesInTime s (List.replicate k .worker) := by
  induction k generalizing s with
  | zero => trivial
  | succ k ih => exact ⟨trivial, ih _⟩

end State

open State

/-- **The queue respects priorities exactly if every process arrives in time**, in every
interleaving and however long the worker goes on: processes of one priority are always run once and
in order, and the worker passes over a process of high priority exactly if processes come to wait
in both queues while it is at the second one. -/
theorem respectsPriorities_iff {T : Type*} (acts : List (Act T)) :
    (∀ k, RespectsPriorities (acts ++ List.replicate k .worker)) ↔
      Guarded step ArrivesInTime start acts := by
  constructor
  · intro hrespects
    by_contra hnot
    obtain ⟨pre, a, post, rfl, -, ha⟩ := exists_first_unguarded hnot
    have hguarded := (hrespects 3).takesHighest
    rw [guarded_append, guarded_append, guarded_cons] at hguarded
    obtain ⟨⟨-, -, hpost⟩, hlast⟩ := hguarded
    have hcrossed : (run step start (pre ++ a :: post)).Crossed := by
      rw [run_append, run_cons]
      exact run_invariant (I := Crossed) (fun _ _ htakes h => h.step htakes)
        (crossed_of_not_arrivesInTime ha) hpost
    exact hcrossed.not_guarded hlast
  · intro hguarded k
    have hlonger : Guarded step ArrivesInTime start (acts ++ List.replicate k .worker) :=
      (guarded_append step).mpr ⟨hguarded, guarded_worker _ k⟩
    refine ⟨fun pre _ pq => ?_, ?_⟩
    · exact (run_preserves Accounted.step accounted_start pre).inOrder pq
    · refine Guarded.of_invariant (I := fun s => s.Accounted ∧ ¬ s.Crossed)
        (fun a s harrival h => ⟨h.1.step a s, not_crossed_step harrival h.2⟩)
        (fun a s _ h => takesHighest_of_not_crossed h.1 h.2 a) ?_ hlonger
      exact ⟨accounted_start, fun h => h.high rfl⟩

/-- A process of high priority is queued while the first of two others is run, and the second one
is taken before it. -/
theorem not_respectsPriorities :
    ¬ RespectsPriorities (T := ℕ)
      [.queueProcess 1 .normal, .queueProcess 2 .normal, .worker, .worker, .worker, .worker,
        .worker, .queueProcess 3 .high, .worker, .worker, .worker] := by
  intro h
  obtain ⟨-, -, -, -, -, -, -, -, -, -, htakes, -⟩ := h.takesHighest
  exact absurd (htakes .normal rfl rfl .high (List.mem_singleton_self _)) (by decide)

end ProcessExecutor

end NaoSoccer
