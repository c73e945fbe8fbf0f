import NaoSoccer.Foundation.LabelledRun
import Mathlib.Algebra.Order.Group.Nat

/-!
# Frames of the motion process

The interface to the robot writes the sensors into shared memory, counts `frame_id` up and notifies
the motion process.  `shared_motion` sleeps until there is a frame that it has not processed,
processes it and writes the joint commands, which the interface sends when it is called again.  Both
hold `motion_lock_` for that, but the interface goes on without it if it has waited too long.

The two processes are loops here whose statements are single steps, so that a list of `NaoAct`s is
an interleaving of them.  A reading of the sensors is known by its number, the joint commands by the
frame that they answer, and what `frame_id` counts is not bounded.
-/

namespace NaoSoccer

open LabelledRun

/-- What is in shared memory. -/
structure FrameMemory where
  /-- `frame_info_->frame_id` -/
  frameId : ℕ
  /-- The number of the reading in `raw_sensors_` and `raw_joint_angles_`. -/
  reading : ℕ
  /-- The frame that `raw_joint_commands_` answers. -/
  commands : ℕ
  deriving DecidableEq, Repr

/-- A frame that motion has processed, and the readings that it has used. -/
structure ProcessedFrame where
  id : ℕ
  angles : ℕ
  sensors : ℕ
  deriving DecidableEq, Repr

/-- Where the loop of `shared_motion` is. -/
inductive MotionLoopAt
  | lock
  /-- `while (core->alreadyProcessedFrame())` -/
  | test
  /-- It has found no new frame and is about to sleep. -/
  | wait
  | asleep
  /-- It has left the wait and wants the lock back. -/
  | relock
  | preProcess
  | processMotionFrame
  /-- The last statement of `processMotionFrame` -/
  | finishFrame
  | postProcess
  | unlock
  | notify
  | publishData
  deriving DecidableEq, Repr

/-- Motion holds the lock. -/
def MotionLoopAt.inside : MotionLoopAt → Bool
  | .test | .wait | .preProcess | .processMotionFrame | .finishFrame | .postProcess
  | .unlock => true
  | .lock | .asleep | .relock | .notify | .publishData => false

/-- The motion process: the readings that it has taken over, and the frames that it has processed,
the last one first. -/
structure MotionLoop where
  loc : MotionLoopAt
  lastFrameProcessed : ℕ
  angles : ℕ
  sensors : ℕ
  processed : List ProcessedFrame
  deriving DecidableEq, Repr

namespace MotionLoop

/-- Motion holds the lock. -/
def inside (m : MotionLoop) : Bool := m.loc.inside

/-- `MotionCore::alreadyProcessedFrame` -/
def alreadyProcessedFrame (memory : FrameMemory) (m : MotionLoop) : Bool :=
  memory.frameId ≤ m.lastFrameProcessed

/-- The next statement of the loop; `free` says that nobody else holds the lock. -/
def step (free : Bool) (memory : FrameMemory) (m : MotionLoop) : FrameMemory × MotionLoop :=
  match m.loc with
  | .lock | .relock => (memory, if free then { m with loc := .test } else m)
  | .test =>
    (memory, { m with loc := if m.alreadyProcessedFrame memory then .wait else .preProcess })
  | .wait => (memory, { m with loc := .asleep })
  | .asleep => (memory, m)
  | .preProcess => (memory, { m with loc := .processMotionFrame, angles := memory.reading })
  | .processMotionFrame =>
    (memory,
      if m.alreadyProcessedFrame memory then { m with loc := .postProcess }
      else { m with loc := .finishFrame, sensors := memory.reading })
  -- `frame_id` is a reference into shared memory
  | .finishFrame =>
    (memory,
      { m with
        loc := .postProcess
        lastFrameProcessed := memory.frameId
        processed := ⟨memory.frameId, m.angles, m.sensors⟩ :: m.processed })
  | .postProcess => ({ memory with commands := m.lastFrameProcessed }, { m with loc := .unlock })
  | .unlock => (memory, { m with loc := .notify })
  | .notify => (memory, { m with loc := .publishData })
  | .publishData => (memory, { m with loc := .lock })

/-- What `notify_one` of another process does, and what a wake-up without one does. -/
def wake (m : MotionLoop) : MotionLoop := if m.loc = .asleep then { m with loc := .relock } else m

/-- In front of the first frame. -/
def start : MotionLoop := ⟨.lock, 0, 0, 0, []⟩

/-- What holds however the processes are interleaved: each frame is processed at most once, in
order, and never before it is announced. -/
structure Ordered (memory : FrameMemory) (m : MotionLoop) : Prop where
  processed : m.processed.Pairwise fun later earlier => earlier.id < later.id
  processed_le : ∀ f ∈ m.processed, f.id ≤ m.lastFrameProcessed
  last_le : m.lastFrameProcessed ≤ memory.frameId
  fresh : m.loc = .finishFrame → m.lastFrameProcessed < memory.frameId
  commands_le : memory.commands ≤ m.lastFrameProcessed

variable {memory : FrameMemory} {m : MotionLoop}

/-- Nothing has been processed before the first frame. -/
lemma ordered_start : start.Ordered ⟨0, 0, 0⟩ :=
  ⟨.nil, nofun, le_rfl, nofun, le_rfl⟩

/-- A wake-up touches no frame. -/
lemma Ordered.wake (h : m.Ordered memory) : m.wake.Ordered memory := by
  unfold MotionLoop.wake
  split
  · exact { h with fresh := nofun }
  · exact h

/-- Another frame may be announced at any time. -/
lemma Ordered.announce (h : m.Ordered memory) :
    m.Ordered { memory with frameId := memory.frameId + 1 } :=
  { h with
    last_le := h.last_le.trans (Nat.le_succ _)
    fresh := fun hm => (h.fresh hm).trans (Nat.lt_succ_self _) }

/-- A step of motion keeps the order. -/
lemma Ordered.step (h : m.Ordered memory) (free : Bool) :
    (m.step free memory).2.Ordered (m.step free memory).1 := by
  obtain ⟨loc, last, angles, sensors, processed⟩ := m
  cases loc with
  | lock | relock =>
    simp only [MotionLoop.step]
    split
    · exact { h with fresh := nofun }
    · exact h
  | test =>
    simp only [MotionLoop.step]
    split
    · exact { h with fresh := nofun }
    · exact { h with fresh := nofun }
  | asleep => exact h
  | wait | preProcess | unlock | notify | publishData => exact { h with fresh := nofun }
  | processMotionFrame =>
    simp only [MotionLoop.step, alreadyProcessedFrame, decide_eq_true_eq]
    split
    next => exact { h with fresh := nofun }
    next hfresh => exact { h with fresh := fun _ => not_le.mp hfresh }
  | finishFrame =>
    have hfresh : last < memory.frameId := h.fresh rfl
    exact { h with
      processed := List.pairwise_cons.mpr
        ⟨fun f hf => (h.processed_le f hf).trans_lt hfresh, h.processed⟩
      processed_le := List.forall_mem_cons.mpr
        ⟨le_rfl, fun f hf => (h.processed_le f hf).trans hfresh.le⟩
      last_le := le_rfl
      fresh := nofun
      commands_le := h.commands_le.trans hfresh.le }
  | postProcess => exact { h with fresh := nofun, commands_le := le_rfl }

/-- The commands do not go back. -/
lemma Ordered.commands_step (h : m.Ordered memory) (free : Bool) :
    memory.commands ≤ (m.step free memory).1.commands := by
  obtain ⟨loc, last, angles, sensors, processed⟩ := m
  cases loc with
  | postProcess => exact h.commands_le
  | lock | relock | test | wait | asleep | preProcess | processMotionFrame | finishFrame | unlock
  | notify | publishData => exact le_rfl

end MotionLoop

/-- The two callbacks of the interface. -/
inductive NaoCallback
  | postProcess
  | preProcess
  deriving DecidableEq, Repr

/-- Where the interface is; `res` says that it has got the lock. -/
inductive NaoAt
  | idle
  | lock (callback : NaoCallback)
  | increment (res : Bool)
  | populateSensors (res : Bool)
  | sendToActuators (res : Bool)
  | unlock (res : Bool)
  | notify
  deriving DecidableEq, Repr

/-- The interface, and the frames that the commands sent have answered, the last one first. -/
structure NaoInterface where
  loc : NaoAt
  sent : List ℕ
  deriving DecidableEq, Repr

namespace NaoInterface

/-- The interface holds the lock. -/
def inside (i : NaoInterface) : Bool :=
  match i.loc with
  | .increment res | .populateSensors res | .sendToActuators res | .unlock res => res
  | .idle | .lock _ | .notify => false

/-- The interface writes a frame or reads the commands. -/
def busy (i : NaoInterface) : Bool :=
  match i.loc with
  | .increment _ | .populateSensors _ | .sendToActuators _ => true
  | .idle | .lock _ | .unlock _ | .notify => false

/-- The first statement behind the lock. -/
def locked (res : Bool) : NaoCallback → NaoAt
  | .postProcess => .increment res
  | .preProcess => .sendToActuators res

/-- The next statement of `naointerface::postProcess` or `naointerface::preProcess`; `callback` is
the one that is called next. -/
def step (free : Bool) (callback : NaoCallback) (memory : FrameMemory) (i : NaoInterface) :
    FrameMemory × NaoInterface :=
  match i.loc with
  | .idle => (memory, { i with loc := .lock callback })
  | .lock called => (memory, if free then { i with loc := locked true called } else i)
  | .increment res =>
    ({ memory with frameId := memory.frameId + 1 }, { i with loc := .populateSensors res })
  | .populateSensors res =>
    ({ memory with reading := memory.frameId }, { i with loc := .unlock res })
  | .sendToActuators res => (memory, { loc := .unlock res, sent := memory.commands :: i.sent })
  | .unlock _ => (memory, { i with loc := .notify })
  | .notify => (memory, { i with loc := .idle })

/-- `timed_lock` gives up. -/
def timeOut (i : NaoInterface) : NaoInterface :=
  match i.loc with
  | .lock called => { i with loc := locked false called }
  | _ => i

end NaoInterface

/-- The robot's two processes. -/
structure NaoSystem where
  memory : FrameMemory
  motion : MotionLoop
  interface : NaoInterface
  deriving DecidableEq, Repr

/-- Who makes a step. -/
inductive NaoAct
  | motion
  /-- Motion wakes up without a notification. -/
  | motionWakes
  | interface (callback : NaoCallback)
  | lockTimesOut
  deriving DecidableEq, Repr

namespace NaoSystem

/-- A step of one of the processes. -/
def step (a : NaoAct) (s : NaoSystem) : NaoSystem :=
  match a with
  | .motion =>
    let next := s.motion.step (!s.interface.inside) s.memory
    { s with memory := next.1, motion := next.2 }
  | .motionWakes => { s with motion := s.motion.wake }
  | .interface callback =>
    let next := s.interface.step (!s.motion.inside) callback s.memory
    { memory := next.1
      motion := if s.interface.loc = .notify then s.motion.wake else s.motion
      interface := next.2 }
  | .lockTimesOut => { s with interface := s.interface.timeOut }

/-- Before the first frame. -/
def start : NaoSystem := ⟨⟨0, 0, 0⟩, .start, ⟨.idle, []⟩⟩

/-! ## Any interleaving -/

/-- What holds of the interface as well: the commands sent never go back. -/
structure Ordered (s : NaoSystem) : Prop where
  frames : s.motion.Ordered s.memory
  sent : s.interface.sent.Pairwise fun later earlier => earlier ≤ later
  sent_le : ∀ c ∈ s.interface.sent, c ≤ s.memory.commands

/-- A step of the interface keeps the order. -/
lemma Ordered.interface {s : NaoSystem} (h : s.Ordered) (callback : NaoCallback) :
    (s.step (.interface callback)).Ordered := by
  obtain ⟨memory, motion, ⟨loc, sent⟩⟩ := s
  cases loc with
  | idle | unlock res => exact { h with }
  | lock called =>
    by_cases hfree : motion.inside = true
    · simpa [step, NaoInterface.step, hfree] using h
    · simp only [step, NaoInterface.step, hfree]
      exact { h with }
  | increment res => exact { h with frames := h.frames.announce }
  | populateSensors res => exact { h with frames := { h.frames with } }
  | sendToActuators res =>
    exact { h with
      sent := List.pairwise_cons.mpr ⟨h.sent_le, h.sent⟩
      sent_le := List.forall_mem_cons.mpr ⟨le_rfl, h.sent_le⟩ }
  | notify => exact { h with frames := h.frames.wake }

/-- Steps keep the order. -/
lemma Ordered.step {s : NaoSystem} (h : s.Ordered) (a : NaoAct) : (s.step a).Ordered := by
  cases a with
  | motion =>
    exact { h with
      frames := h.frames.step _
      sent_le := fun c hc => (h.sent_le c hc).trans (h.frames.commands_step _) }
  | motionWakes => exact { h with frames := h.frames.wake }
  | interface callback => exact h.interface callback
  | lockTimesOut =>
    have hsent : s.interface.timeOut.sent = s.interface.sent := by
      unfold NaoInterface.timeOut
      split <;> rfl
    exact { h with sent := hsent ▸ h.sent, sent_le := hsent ▸ h.sent_le }

/-! ## When the lock is always obtained -/

/-- What holds if the interface always gets the lock: the two processes are never in their locked
parts together, each frame has been computed from its own reading, motion does not sleep through a
frame that has been notified, and the commands sent are those of the last frame processed. -/
structure Locked (s : NaoSystem) : Prop where
  exclusive : s.motion.inside = true → s.interface.inside = false
  res : s.interface.busy = true → s.interface.inside = true
  reading : (∀ res, s.interface.loc ≠ .populateSensors res) → s.memory.reading = s.memory.frameId
  wait : s.motion.loc = .wait → s.memory.frameId ≤ s.motion.lastFrameProcessed
  angles : s.motion.loc = .processMotionFrame ∨ s.motion.loc = .finishFrame →
    s.motion.angles = s.memory.frameId
  sensors : s.motion.loc = .finishFrame → s.motion.sensors = s.memory.frameId
  processed : ∀ f ∈ s.motion.processed, f.angles = f.id ∧ f.sensors = f.id
  asleep : s.motion.loc = .asleep → s.motion.lastFrameProcessed < s.memory.frameId →
    (∃ res, s.interface.loc = .populateSensors res) ∨ (∃ res, s.interface.loc = .unlock res) ∨
      s.interface.loc = .notify
  commands : s.motion.loc ≠ .postProcess → s.memory.commands = s.motion.lastFrameProcessed

/-- Nothing is written while motion is inside, so the reading is that of the frame. -/
lemma Locked.reading_of_inside {s : NaoSystem} (h : s.Locked) (hinside : s.motion.inside = true) :
    s.memory.reading = s.memory.frameId := by
  refine h.reading fun res hloc => ?_
  have hout := h.exclusive hinside
  rw [h.res (by rw [NaoInterface.busy, hloc])] at hout
  exact nomatch hout

/-- A wake-up takes motion out of its sleep and no further. -/
lemma Locked.wake {s : NaoSystem} (h : s.Locked) : Locked { s with motion := s.motion.wake } := by
  by_cases hasleep : s.motion.loc = .asleep
  · have hwake : s.motion.wake = { s.motion with loc := .relock } := if_pos hasleep
    rw [hwake]
    exact { h with
      exclusive := nofun
      wait := nofun
      angles := by simp
      sensors := nofun
      asleep := nofun
      commands := fun _ => h.commands (by rw [hasleep]; simp) }
  · have hwake : s.motion.wake = s.motion := if_neg hasleep
    rw [hwake]
    exact h

/-- A step of motion keeps what the lock protects. -/
lemma Locked.motion {s : NaoSystem} (h : s.Locked) : (s.step .motion).Locked := by
  obtain ⟨memory, motion, interface⟩ := s
  obtain ⟨loc, last, angles, sensors, processed⟩ := motion
  cases loc with
  | lock | relock =>
    have hcommands := h.commands nofun
    cases hfree : interface.inside with
    | true => simpa [step, MotionLoop.step, hfree] using h
    | false =>
      simp only [step, MotionLoop.step, hfree]
      exact { h with
        exclusive := fun _ => hfree
        wait := nofun
        angles := by simp
        sensors := nofun
        asleep := nofun
        commands := fun _ => hcommands }
  | test =>
    have hcommands := h.commands nofun
    simp only [step, MotionLoop.step, MotionLoop.alreadyProcessedFrame, decide_eq_true_eq]
    split
    next hold =>
      exact { h with
        wait := fun _ => hold
        angles := by simp
        sensors := nofun
        asleep := nofun
        commands := fun _ => hcommands }
    next =>
      exact { h with
        wait := nofun
        angles := by simp
        sensors := nofun
        asleep := nofun
        commands := fun _ => hcommands }
  | wait =>
    have hcommands := h.commands nofun
    have hold : memory.frameId ≤ last := h.wait rfl
    exact { h with
      exclusive := nofun
      wait := nofun
      angles := by simp [step, MotionLoop.step]
      sensors := nofun
      asleep := fun _ hfresh => absurd hfresh hold.not_gt
      commands := fun _ => hcommands }
  | asleep => exact h
  | preProcess =>
    have hcommands := h.commands nofun
    have hreading := h.reading_of_inside rfl
    exact { h with
      wait := nofun
      angles := fun _ => hreading
      sensors := nofun
      asleep := nofun
      commands := fun _ => hcommands }
  | processMotionFrame =>
    have hcommands := h.commands nofun
    have hreading := h.reading_of_inside rfl
    have hangles := h.angles (.inl rfl)
    simp only [step, MotionLoop.step]
    split
    · exact { h with
        wait := nofun
        angles := by simp
        sensors := nofun
        asleep := nofun
        commands := fun _ => hcommands }
    · exact { h with
        wait := nofun
        angles := fun _ => hangles
        sensors := fun _ => hreading
        asleep := nofun
        commands := fun _ => hcommands }
  | finishFrame =>
    exact { h with
      wait := nofun
      angles := by simp [step, MotionLoop.step]
      sensors := nofun
      processed := List.forall_mem_cons.mpr ⟨⟨h.angles (.inr rfl), h.sensors rfl⟩, h.processed⟩
      asleep := nofun
      commands := fun hne => absurd rfl hne }
  | postProcess =>
    exact { h with
      wait := nofun
      angles := by simp [step, MotionLoop.step]
      sensors := nofun
      asleep := nofun
      commands := fun _ => rfl }
  | unlock | notify | publishData =>
    have hcommands := h.commands nofun
    exact { h with
      exclusive := nofun
      wait := nofun
      angles := by simp [step, MotionLoop.step]
      sensors := nofun
      asleep := nofun
      commands := fun _ => hcommands }

/-- A step of the interface keeps what the lock protects. -/
lemma Locked.interface {s : NaoSystem} (h : s.Locked) (callback : NaoCallback) :
    (s.step (.interface callback)).Locked := by
  obtain ⟨memory, motion, ⟨loc, sent⟩⟩ := s
  cases loc with
  | idle =>
    exact { h with
      res := nofun
      reading := fun _ => h.reading nofun
      asleep := fun hm hf => absurd (h.asleep hm hf) (by simp) }
  | lock called =>
    have hreading := h.reading nofun
    have hasleep : motion.loc = .asleep → ¬ motion.lastFrameProcessed < memory.frameId :=
      fun hm hf => absurd (h.asleep hm hf) (by simp)
    by_cases hfree : motion.inside = true
    · simpa [step, NaoInterface.step, hfree] using h
    · simp only [step, NaoInterface.step, hfree]
      exact { h with
        exclusive := fun hm => absurd hm hfree
        res := by cases called <;> simp [NaoInterface.locked, NaoInterface.inside]
        reading := fun _ => hreading
        asleep := fun hm hf => absurd hf (hasleep hm) }
  | increment res =>
    have hres : res = true := h.res rfl
    subst hres
    have hnot : ∀ loc : MotionLoopAt, loc.inside = true → motion.loc ≠ loc := by
      rintro _ hin rfl
      exact nomatch h.exclusive hin
    exact { h with
      reading := fun hne => absurd rfl (hne true)
      wait := fun hm => absurd hm (hnot _ rfl)
      angles := fun hm => absurd hm (not_or.mpr ⟨hnot _ rfl, hnot _ rfl⟩)
      sensors := fun hm => absurd hm (hnot _ rfl)
      asleep := fun _ _ => .inl ⟨true, rfl⟩ }
  | populateSensors res =>
    exact { h with
      res := nofun
      reading := fun _ => rfl
      asleep := fun _ _ => .inr (.inl ⟨res, rfl⟩) }
  | sendToActuators res =>
    exact { h with
      res := nofun
      reading := fun _ => h.reading nofun
      asleep := fun _ _ => .inr (.inl ⟨res, rfl⟩) }
  | unlock res =>
    exact { h with
      exclusive := fun _ => rfl
      res := nofun
      reading := fun _ => h.reading nofun
      asleep := fun _ _ => .inr (.inr rfl) }
  | notify =>
    have hawake : motion.wake.loc ≠ .asleep := by
      unfold MotionLoop.wake
      split
      · exact nofun
      · assumption
    exact { h.wake with
      exclusive := fun _ => rfl
      res := nofun
      reading := fun _ => h.reading nofun
      asleep := fun hm => absurd hm hawake }

/-- Steps keep what the lock protects as long as no attempt to get the lock times out. -/
lemma Locked.step {s : NaoSystem} (h : s.Locked) {a : NaoAct} (ha : a ≠ .lockTimesOut) :
    (s.step a).Locked := by
  cases a with
  | motion => exact h.motion
  | motionWakes => exact h.wake
  | interface callback => exact h.interface callback
  | lockTimesOut => exact absurd rfl ha

/-- Nothing has been sent before the first frame. -/
lemma ordered_start : start.Ordered := ⟨MotionLoop.ordered_start, .nil, nofun⟩

/-- Nobody is inside before the first frame. -/
lemma locked_start : start.Locked :=
  ⟨nofun, nofun, fun _ => rfl, nofun, by simp [start, MotionLoop.start], nofun, nofun, nofun,
    fun _ => rfl⟩

/-- A frame is announced while motion sleeps, processed, and its commands are sent. -/
example : (run step start
    ([.motion, .motion, .motion] ++ List.replicate 6 (.interface .postProcess) ++
      List.replicate 8 .motion ++ List.replicate 4 (.interface .preProcess))).interface.sent =
    [1] := by decide

end NaoSystem

end NaoSoccer
