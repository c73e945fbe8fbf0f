import NaoSoccer.Foundation.LabelledRun

/-!
# Stopping the TCP server

When a connection has been accepted, `listener_handler` creates the server thread.  In
`server_handler` that thread sets `server_running_` itself and then waits on `server_cv_` until the
flag is cleared.  `stop_server` clears the flag, notifies and joins the thread, and it does not hold
`server_mutex_` for that.

So a stop that comes before the thread has set the flag is lost, and so is a notification between
the test of the flag and the start of the wait.  `stopServer_deadlockFree_iff` says that these are
the only two ways into the deadlock.

Each assignment of the flag, each notification, each test of the predicate and each start of the
wait is one step.  There are no spurious wake-ups.
-/

namespace NaoSoccer

namespace ServerShutdown

open LabelledRun

/-- Where the server thread is. -/
inductive ServerAt
  /-- There is no server thread. -/
  | none
  /-- It is about to set `server_running_`. -/
  | assign
  /-- It is about to test the predicate of the wait. -/
  | test
  /-- It has seen `server_running_` and is about to start the wait. -/
  | startWait
  /-- It waits for `server_cv_`, and may have been notified. -/
  | waiting (notified : Bool)
  /-- It has left the wait for good. -/
  | ended
  deriving DecidableEq

/-- Where `stop_server` is. -/
inductive StopperAt
  /-- It is about to clear `server_running_`. -/
  | assign
  /-- It is about to notify. -/
  | notify
  /-- It joins the server thread. -/
  | join
  /-- It has joined it. -/
  | joined
  deriving DecidableEq

/-- The flag and the threads. -/
structure State where
  serverRunning : Bool
  server : ServerAt
  stopper : StopperAt
  deriving DecidableEq

/-- Whose step it is. -/
inductive Act
  | listener
  | server
  | stopper
  deriving DecidableEq

namespace State

/-- A connection has been accepted. -/
def accepted : State := ⟨false, .none, .assign⟩

/-- `TCPConnection::listener_handler`, as far as it creates the server thread -/
def listenerHandler (s : State) : State :=
  match s.server with
  | .none => { s with server := .assign }
  | _ => s

/-- A step of `TCPConnection::server_handler` -/
def serverHandler (s : State) : State :=
  match s.server with
  | .none => s
  | .assign => { s with serverRunning := true, server := .test }
  | .test => { s with server := if s.serverRunning then .startWait else .ended }
  | .startWait => { s with server := .waiting false }
  | .waiting notified => if notified then { s with server := .test } else s
  | .ended => s

/-- What `server_cv_.notify_one` does to the server thread. -/
def notifyOne : ServerAt → ServerAt
  | .waiting _ => .waiting true
  | other => other

/-- A step of `TCPConnection::stop_server`, which is called when there is a server thread -/
def stopServer (s : State) : State :=
  if s.server = .none then s
  else match s.stopper with
    | .assign => { s with serverRunning := false, stopper := .notify }
    | .notify => { s with server := notifyOne s.server, stopper := .join }
    | .join => if s.server = .ended then { s with stopper := .joined } else s
    | .joined => s

/-- One step. -/
def step : Act → State → State
  | .listener, s => s.listenerHandler
  | .server, s => s.serverHandler
  | .stopper, s => s.stopServer

/-- **The deadlock**: `stop_server` joins the server thread while that thread waits without a
notification, or is about to wait with `server_running_` set. -/
def Deadlocked (s : State) : Prop :=
  s.stopper = .join ∧ (s.server = .waiting false ∨
    (s.server = .test ∨ s.server = .startWait) ∧ s.serverRunning = true)

/-- The steps that lose nothing: `stop_server` clears the flag after the server thread has set it,
and does not notify between its test of the flag and the start of its wait. -/
def StopsInTime : Act → State → Prop
  | .stopper, s => (s.stopper = .assign → s.server ≠ .assign) ∧
      (s.stopper = .notify → s.server ≠ .startWait)
  | _, _ => True

/-! ## Runs that stop in time -/

/-- What holds while nothing is lost. -/
structure InTime (s : State) : Prop where
  /-- Before `stop_server` clears the flag, the server thread does not end. -/
  running : s.stopper = .assign → s.server ≠ .none → s.server ≠ .assign →
    s.serverRunning = true ∧ s.server ≠ .ended
  /-- Afterwards the flag stays cleared. -/
  cleared : s.stopper ≠ .assign → s.serverRunning = false ∧ s.server ≠ .none ∧
    s.server ≠ .assign
  /-- When it has been notified, the server thread does not wait any longer. -/
  awake : s.stopper = .join ∨ s.stopper = .joined → s.server ≠ .startWait ∧
    s.server ≠ .waiting false

/-- Before the server thread has been created. -/
lemma inTime_accepted : accepted.InTime := by
  refine ⟨?_, ?_, ?_⟩ <;> simp [accepted]

/-- A step of the server thread loses nothing. -/
lemma InTime.serverHandler {s : State} (h : s.InTime) : s.serverHandler.InTime := by
  obtain ⟨hrunning, hcleared, hawake⟩ := h
  unfold State.serverHandler
  cases hserver : s.server with
  | none => exact ⟨hrunning, hcleared, hawake⟩
  | assign =>
    -- the flag has not been cleared yet
    have hstopper : s.stopper = .assign := by
      by_contra hne
      exact (hcleared hne).2.2 hserver
    refine ⟨?_, ?_, ?_⟩ <;> simp [hstopper]
  | test =>
    cases hflag : s.serverRunning with
    | true =>
      have hstopper : s.stopper = .assign := by
        by_contra hne
        exact absurd (hcleared hne).1 (by simp [hflag])
      refine ⟨?_, ?_, ?_⟩ <;> simp [hstopper]
    | false =>
      have hstopper : s.stopper ≠ .assign := by
        intro heq
        have hset := (hrunning heq (by simp [hserver]) (by simp [hserver])).1
        exact absurd hset (by simp [hflag])
      refine ⟨?_, ?_, ?_⟩ <;> simp [hstopper]
  | startWait =>
    refine ⟨fun heq _ _ => ?_, fun hne => ?_, fun hafter => ?_⟩
    · exact ⟨(hrunning heq (by simp [hserver]) (by simp [hserver])).1, by simp⟩
    · exact ⟨(hcleared hne).1, by simp⟩
    · exact absurd hserver (hawake hafter).1
  | waiting notified =>
    cases notified with
    | false => exact ⟨hrunning, hcleared, hawake⟩
    | true =>
      refine ⟨fun heq _ _ => ?_, fun hne => ?_, fun hafter => ?_⟩
      · exact ⟨(hrunning heq (by simp [hserver]) (by simp [hserver])).1, by simp⟩
      · exact ⟨(hcleared hne).1, by simp⟩
      · simp
  | ended => exact ⟨hrunning, hcleared, hawake⟩

/-- A step of `stop_server` loses nothing if it is made in time. -/
lemma InTime.stopServer {s : State} (h : s.InTime) (htime : StopsInTime .stopper s) :
    s.stopServer.InTime := by
  obtain ⟨hassign, hnotify⟩ := htime
  unfold State.stopServer
  by_cases hnone : s.server = .none
  · rwa [if_pos hnone]
  · rw [if_neg hnone]
    cases hstopper : s.stopper with
    | assign =>
      refine ⟨by simp, fun _ => ⟨rfl, hnone, hassign hstopper⟩, by simp⟩
    | notify =>
      have hflag := h.cleared (by simp [hstopper])
      refine ⟨by simp, fun _ => ?_, fun _ => ?_⟩
      · cases hserver : s.server <;> simp_all [notifyOne]
      · cases hserver : s.server <;> simp_all [notifyOne]
    | join =>
      dsimp only
      split
      · next hended =>
        refine ⟨by simp, fun _ => h.cleared (by simp [hstopper]), fun _ => ?_⟩
        exact h.awake (Or.inl hstopper)
      · exact h
    | joined => exact h

/-- **The step lemma**: steps in time lose nothing. -/
lemma InTime.step {a : Act} {s : State} (ha : StopsInTime a s) (h : s.InTime) :
    (State.step a s).InTime := by
  cases a with
  | listener =>
    show s.listenerHandler.InTime
    unfold listenerHandler
    cases hserver : s.server with
    | none =>
      have hstopper : s.stopper = .assign := by
        by_contra hne
        exact (h.cleared hne).2.1 hserver
      refine ⟨?_, ?_, ?_⟩ <;> simp [hstopper]
    | _ => exact h
  | server => exact h.serverHandler
  | stopper => exact h.stopServer ha

/-- Where nothing is lost, there is no deadlock. -/
lemma InTime.not_deadlocked {s : State} (h : s.InTime) : ¬ s.Deadlocked := by
  rintro ⟨hjoin, hwaiting | ⟨-, hflag⟩⟩
  · exact (h.awake (Or.inl hjoin)).2 hwaiting
  · have hcleared := (h.cleared (by simp [hjoin])).1
    exact absurd hflag (by simp [hcleared])

/-! ## Runs that do not -/

/-- The request is lost: the server thread sets the flag again, or has done so. -/
structure StopLost (s : State) : Prop where
  called : s.stopper = .notify ∨ s.stopper = .join
  created : s.server ≠ .none
  running : s.server ≠ .ended
  flag : s.server = .assign ∨ s.serverRunning = true

/-- The notification is lost: the server thread waits for another one. -/
def WakeUpLost (s : State) : Prop :=
  s.stopper = .join ∧ (s.server = .startWait ∨ s.server = .waiting false)

/-- A step that is not in time loses the request or the notification. -/
lemma lost_of_not_stopsInTime {a : Act} {s : State} (h : ¬ StopsInTime a s) :
    (step a s).StopLost ∨ (step a s).WakeUpLost := by
  cases a with
  | stopper =>
    have hcases : (s.stopper = .assign ∧ s.server = .assign) ∨
        (s.stopper = .notify ∧ s.server = .startWait) := by
      by_contra hnot
      exact h ⟨fun hstopper hserver => hnot (Or.inl ⟨hstopper, hserver⟩),
        fun hstopper hserver => hnot (Or.inr ⟨hstopper, hserver⟩)⟩
    rcases hcases with ⟨hstopper, hserver⟩ | ⟨hstopper, hserver⟩
    · left
      refine ⟨?_, ?_, ?_, ?_⟩ <;> simp [step, stopServer, hstopper, hserver]
    · right
      refine ⟨?_, ?_⟩ <;> simp [step, stopServer, hstopper, hserver, notifyOne]
  | _ => exact absurd trivial h

/-- A lost request stays lost. -/
lemma StopLost.step {s : State} (h : s.StopLost) (a : Act) : (State.step a s).StopLost := by
  obtain ⟨hcalled, hcreated, hrunning, hflag⟩ := h
  cases a with
  | listener =>
    show s.listenerHandler.StopLost
    unfold listenerHandler
    split
    · next hnone => exact absurd hnone hcreated
    · exact ⟨hcalled, hcreated, hrunning, hflag⟩
  | server =>
    show s.serverHandler.StopLost
    unfold serverHandler
    cases hserver : s.server with
    | none => exact absurd hserver hcreated
    | ended => exact absurd hserver hrunning
    | assign => exact ⟨hcalled, by simp, by simp, Or.inr rfl⟩
    | test =>
      have hset : s.serverRunning = true := hflag.resolve_left (by simp [hserver])
      dsimp only
      rw [hset]
      exact ⟨hcalled, by simp, by simp, Or.inr rfl⟩
    | startWait =>
      exact ⟨hcalled, by simp, by simp, Or.inr (hflag.resolve_left (by simp [hserver]))⟩
    | waiting notified =>
      have hset : s.serverRunning = true := hflag.resolve_left (by simp [hserver])
      cases notified with
      | false => exact ⟨hcalled, hcreated, hrunning, hflag⟩
      | true => exact ⟨hcalled, by simp, by simp, Or.inr hset⟩
  | stopper =>
    show s.stopServer.StopLost
    rw [stopServer, if_neg hcreated]
    rcases hcalled with hstopper | hstopper
    · rw [hstopper]
      refine ⟨Or.inr rfl, ?_, ?_, ?_⟩ <;> cases hserver : s.server <;> simp_all [notifyOne]
    · rw [hstopper]
      dsimp only
      rw [if_neg hrunning]
      exact ⟨Or.inr hstopper, hcreated, hrunning, hflag⟩

/-- Steps in time lead on to a deadlock. -/
def Leads (s : State) : Prop :=
  ∃ more, Guarded step StopsInTime s more ∧ (run step s more).Deadlocked

/-- A step before the others. -/
lemma Leads.of_step {s : State} {a : Act} (ha : StopsInTime a s) (h : (step a s).Leads) :
    s.Leads := by
  obtain ⟨more, hguarded, hdeadlocked⟩ := h
  exact ⟨a :: more, ⟨ha, hguarded⟩, hdeadlocked⟩

/-- A deadlock is one. -/
lemma Deadlocked.leads {s : State} (h : s.Deadlocked) : s.Leads := ⟨[], trivial, h⟩

/-- **A lost notification leads to a deadlock.** -/
lemma WakeUpLost.leads {s : State} (h : s.WakeUpLost) : s.Leads := by
  obtain ⟨hstopper, hserver | hserver⟩ := h
  · refine Leads.of_step (a := .server) trivial (Deadlocked.leads ⟨?_, Or.inl ?_⟩) <;>
      simp [State.step, serverHandler, hstopper, hserver]
  · exact Deadlocked.leads ⟨hstopper, Or.inl hserver⟩

/-- After the notification a lost request leads to a deadlock. -/
lemma StopLost.leads_of_join {s : State} (h : s.StopLost) (hstopper : s.stopper = .join) :
    s.Leads := by
  have hset : s.server ≠ .assign → s.serverRunning = true := h.flag.resolve_left
  cases hserver : s.server with
  | none => exact absurd hserver h.created
  | ended => exact absurd hserver h.running
  | assign =>
    refine Leads.of_step (a := .server) trivial
      (Deadlocked.leads ⟨?_, Or.inr ⟨Or.inl ?_, ?_⟩⟩) <;>
      simp [State.step, serverHandler, hstopper, hserver]
  | test =>
    exact Deadlocked.leads ⟨hstopper, Or.inr ⟨Or.inl hserver, hset (by simp [hserver])⟩⟩
  | startWait =>
    exact Deadlocked.leads ⟨hstopper, Or.inr ⟨Or.inr hserver, hset (by simp [hserver])⟩⟩
  | waiting notified =>
    cases notified with
    | false => exact Deadlocked.leads ⟨hstopper, Or.inl hserver⟩
    | true =>
      refine Leads.of_step (a := .server) trivial
        (Deadlocked.leads ⟨?_, Or.inr ⟨Or.inl ?_, ?_⟩⟩) <;>
        simp [State.step, serverHandler, hstopper, hserver, hset]

/-- **A lost request leads to a deadlock.** -/
lemma StopLost.leads {s : State} (h : s.StopLost) : s.Leads := by
  rcases h.called with hnotify | hjoin
  · -- the notification is made when the server thread is not about to wait
    have hstep : ∀ t : State, t.StopLost → t.stopper = .notify → t.server ≠ .startWait →
        t.Leads := by
      intro t ht hstopper hserver
      refine Leads.of_step (a := .stopper) ⟨fun heq => absurd heq (by simp [hstopper]),
        fun _ => hserver⟩ ((ht.step .stopper).leads_of_join ?_)
      simp [State.step, stopServer, hstopper, ht.created]
    by_cases hserver : s.server = .startWait
    · refine Leads.of_step (a := .server) trivial (hstep _ (h.step .server) ?_ ?_) <;>
        simp [State.step, serverHandler, hserver, hnotify]
    · exact hstep s h hnotify hserver
  · exact h.leads_of_join hjoin

end State

open State

/-- **Stopping the server deadlocks exactly if it is not in time**: in every interleaving, no state
of the run is a deadlock and none can be reached from it by steps in time, if and only if
`stop_server` always clears the flag after the server thread has set it, and never notifies between
that thread's test of the flag and the start of its wait. -/
theorem stopServer_deadlockFree_iff (acts : List Act) :
    (∀ pre, pre <+: acts → ∀ more, Guarded step StopsInTime (run step accepted pre) more →
      ¬ (run step accepted (pre ++ more)).Deadlocked) ↔
      Guarded step StopsInTime accepted acts := by
  constructor
  · intro hfree
    by_contra hnot
    obtain ⟨pre, a, post, rfl, -, ha⟩ := exists_first_unguarded hnot
    have hleads : (run step accepted (pre ++ [a])).Leads := by
      rw [run_append]
      rcases lost_of_not_stopsInTime ha with hstop | hwakeUp
      · exact hstop.leads
      · exact hwakeUp.leads
    obtain ⟨more, hguarded, hdeadlocked⟩ := hleads
    rw [← run_append] at hdeadlocked
    exact hfree (pre ++ [a]) ⟨post, by simp⟩ more hguarded hdeadlocked
  · intro hguarded pre hpre more hmore
    have hlonger : Guarded step StopsInTime accepted (pre ++ more) :=
      (guarded_append step).mpr ⟨hguarded.of_prefix hpre, hmore⟩
    exact (run_invariant (fun _ _ ha h => InTime.step ha h) inTime_accepted hlonger).not_deadlocked

/-- The server is stopped before its thread sets the flag, and it is notified between the test of
the flag and the wait. -/
theorem stopServer_deadlocked :
    (run step accepted [.listener, .stopper, .stopper, .server, .server, .server]).Deadlocked ∧
      (run step accepted [.listener, .server, .server, .stopper, .stopper, .server]).Deadlocked :=
  ⟨⟨rfl, Or.inl rfl⟩, ⟨rfl, Or.inl rfl⟩⟩

end ServerShutdown

end NaoSoccer
