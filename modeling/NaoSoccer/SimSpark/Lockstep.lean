import NaoSoccer.Core.MotionFrames

/-!
# The simulator's agent and the motion process in step

For each message of the simulator `RobotBehavior::Think` parses the sensors into shared memory,
counts `frame_id` up, notifies the motion process and waits until it is notified itself; then it
composes its answer from the joint commands.  The parser does not hold `motion_lock_`, and neither
the attempt to get the lock nor the wait lasts longer than nine milliseconds.

The agent and motion are interleaved as the robot's interface and motion are.  If nothing times out
and the wait has no other end than a notification, the two work in turns: every message is
processed exactly once and every answer is the one to its own message.
-/

namespace NaoSoccer

open LabelledRun

/-- Where `RobotBehavior::Think` is; `res` says that it has got the lock. -/
inductive AgentAt
  /-- There is no message. -/
  | receive
  | parse
  | lock
  | increment (res : Bool)
  | notifyMotion
  | timedWait
  | asleep
  /-- It has left the wait and wants the lock back. -/
  | relock
  | composeAction (res : Bool)
  | unlock (res : Bool)
  | notify
  deriving DecidableEq, Repr

/-- An answer: the number of its message, and the frame that its commands answer. -/
structure AgentAnswer where
  frame : ℕ
  commands : ℕ
  deriving DecidableEq, Repr

/-- The agent, and its answers, the last one first. -/
structure SimAgent where
  loc : AgentAt
  answers : List AgentAnswer
  deriving DecidableEq, Repr

namespace AgentAt

/-- The agent holds the lock. -/
def inside : AgentAt → Bool
  | .increment res | .composeAction res | .unlock res => res
  | .notifyMotion | .timedWait => true
  | .receive | .parse | .lock | .asleep | .relock | .notify => false

/-- The agent writes the sensors or reads the commands. -/
def busy : AgentAt → Bool
  | .parse | .increment _ | .composeAction _ => true
  | _ => false

/-- The frame has been announced and not been answered. -/
def pending : AgentAt → Bool
  | .notifyMotion | .timedWait | .asleep | .relock | .composeAction _ => true
  | _ => false

/-- The sensors are those of the next frame. -/
def parsed : AgentAt → Bool
  | .lock | .increment _ => true
  | _ => false

end AgentAt

namespace SimAgent

/-- The agent holds the lock. -/
def inside (agent : SimAgent) : Bool := agent.loc.inside

/-- The next statement of `RobotBehavior::Think` -/
def step (free : Bool) (memory : FrameMemory) (agent : SimAgent) : FrameMemory × SimAgent :=
  match agent.loc with
  | .receive => (memory, { agent with loc := .parse })
  | .parse => ({ memory with reading := memory.frameId + 1 }, { agent with loc := .lock })
  | .lock => (memory, if free then { agent with loc := .increment true } else agent)
  | .increment res =>
    ({ memory with frameId := memory.frameId + 1 },
      { agent with loc := if res then .notifyMotion else .composeAction false })
  | .notifyMotion => (memory, { agent with loc := .timedWait })
  | .timedWait => (memory, { agent with loc := .asleep })
  | .asleep => (memory, agent)
  | .relock => (memory, if free then { agent with loc := .composeAction true } else agent)
  | .composeAction res =>
    (memory, { loc := .unlock res, answers := ⟨memory.frameId, memory.commands⟩ :: agent.answers })
  | .unlock _ => (memory, { agent with loc := .notify })
  | .notify => (memory, { agent with loc := .receive })

/-- What `notify_one` of motion does, and what the end of `timed_wait` without one does. -/
def wake (agent : SimAgent) : SimAgent :=
  if agent.loc = .asleep then { agent with loc := .relock } else agent

/-- `timed_lock` gives up. -/
def timeOut (agent : SimAgent) : SimAgent :=
  if agent.loc = .lock then { agent with loc := .increment false } else agent

end SimAgent

/-- The two processes beside the simulator. -/
structure SimSystem where
  memory : FrameMemory
  motion : MotionLoop
  agent : SimAgent
  deriving DecidableEq, Repr

/-- Who makes a step. -/
inductive SimAct
  | motion
  /-- Motion wakes up without a notification. -/
  | motionWakes
  | agent
  | lockTimesOut
  /-- The wait of the agent times out, or it wakes up without a notification. -/
  | waitEnds
  deriving DecidableEq, Repr

namespace SimSystem

/-- A step of one of the processes. -/
def step (a : SimAct) (s : SimSystem) : SimSystem :=
  match a with
  | .motion =>
    let next := s.motion.step (!s.agent.inside) s.memory
    { memory := next.1
      motion := next.2
      agent := if s.motion.loc = .notify then s.agent.wake else s.agent }
  | .motionWakes => { s with motion := s.motion.wake }
  | .agent =>
    let next := s.agent.step (!s.motion.inside) s.memory
    { memory := next.1
      motion :=
        if s.agent.loc = .notifyMotion ∨ s.agent.loc = .notify then s.motion.wake else s.motion
      agent := next.2 }
  | .lockTimesOut => { s with agent := s.agent.timeOut }
  | .waitEnds => { s with agent := s.agent.wake }

/-- In front of the first message that has sensors. -/
def start : SimSystem := ⟨⟨0, 0, 0⟩, .start, ⟨.receive, []⟩⟩

/-- Nothing times out, and the wait of the agent ends with a notification. -/
def InTime (a : SimAct) (_ : SimSystem) : Prop := a ≠ .lockTimesOut ∧ a ≠ .waitEnds

/-! ## Working in turns -/

/-- The numbers of the first frames, the last one first. -/
def counted : ℕ → List ℕ
  | 0 => []
  | n + 1 => (n + 1) :: counted n

end SimSystem

/-- Motion has nothing to do with a frame. -/
def MotionLoopAt.quiet : MotionLoopAt → Bool
  | .publishData | .lock | .relock | .test | .wait | .asleep => true
  | _ => false

/-- Motion is on its way to a new frame or at work on it. -/
def MotionLoopAt.working : MotionLoopAt → Bool
  | .publishData | .lock | .relock | .test | .preProcess | .processMotionFrame
  | .finishFrame => true
  | _ => false

namespace SimSystem

/-- Whose turn it is. -/
inductive Turn (s : SimSystem) : Prop
  /-- All frames that have been announced are processed. -/
  | agent (hagent : s.agent.loc ≠ .notifyMotion ∧ s.agent.loc ≠ .timedWait ∧ s.agent.loc ≠ .asleep)
      (hquiet : s.motion.loc.quiet = true) (hlast : s.memory.frameId = s.motion.lastFrameProcessed)
      (hcommands : s.memory.commands = s.motion.lastFrameProcessed)
  /-- The agent announces a frame. -/
  | announce (hagent : s.agent.loc = .notifyMotion ∨ s.agent.loc = .timedWait)
      (hquiet : s.motion.loc.quiet = true)
      (hawake : s.agent.loc = .timedWait → s.motion.loc ≠ .asleep)
      (hlast : s.memory.frameId = s.motion.lastFrameProcessed + 1)
  /-- The agent sleeps until the frame is processed. -/
  | motion (hagent : s.agent.loc = .asleep) (hworking : s.motion.loc.working = true)
      (hlast : s.memory.frameId = s.motion.lastFrameProcessed + 1)
  /-- Motion has processed the frame and will notify the agent. -/
  | processed (hagent : s.agent.loc = .asleep) (hmotion : s.motion.loc = .postProcess ∨
        ((s.motion.loc = .unlock ∨ s.motion.loc = .notify) ∧
          s.memory.commands = s.motion.lastFrameProcessed))
      (hlast : s.memory.frameId = s.motion.lastFrameProcessed)

/-- What holds as long as everything is in time. -/
structure InTurns (s : SimSystem) : Prop where
  turn : s.Turn
  exclusive : s.motion.inside = true → s.agent.inside = false
  res : s.agent.loc ≠ .increment false ∧ s.agent.loc ≠ .composeAction false ∧
    s.agent.loc ≠ .unlock false
  reading : s.memory.reading = s.memory.frameId + if s.agent.loc.parsed then 1 else 0
  angles : s.motion.loc = .processMotionFrame ∨ s.motion.loc = .finishFrame →
    s.motion.angles = s.memory.frameId
  sensors : s.motion.loc = .finishFrame → s.motion.sensors = s.memory.frameId
  frames : s.motion.processed = (counted s.motion.lastFrameProcessed).map fun k => ⟨k, k, k⟩
  answers : ∃ n, s.agent.answers = (counted n).map (fun k => ⟨k, k⟩) ∧
    s.memory.frameId = n + if s.agent.loc.pending then 1 else 0

/-- While it announces a frame the agent is inside. -/
lemma inside_of_announce {agent : SimAgent}
    (h : agent.loc = .notifyMotion ∨ agent.loc = .timedWait) : agent.inside = true := by
  rcases h with h | h <;> rw [SimAgent.inside, h] <;> rfl

/-- Motion wakes up in vain. -/
lemma Turn.wake {s : SimSystem} (h : s.Turn) : Turn { s with motion := s.motion.wake } := by
  by_cases hasleep : s.motion.loc = .asleep
  · have hwake : s.motion.wake = { s.motion with loc := .relock } := if_pos hasleep
    rw [hwake]
    cases h with
    | agent hagent _ hlast hcommands => exact .agent hagent rfl hlast hcommands
    | announce hagent _ _ hlast => exact .announce hagent rfl (fun _ => nofun) hlast
    | motion _ hworking _ =>
      exact nomatch (congrArg MotionLoopAt.working hasleep).symm.trans hworking
    | processed _ hmotion _ => simp [hasleep] at hmotion
  · have hwake : s.motion.wake = s.motion := if_neg hasleep
    rw [hwake]
    exact h

/-- Motion wakes up in vain. -/
lemma InTurns.wake {s : SimSystem} (h : s.InTurns) :
    InTurns { s with motion := s.motion.wake } := by
  have hturn := h.turn.wake
  by_cases hasleep : s.motion.loc = .asleep
  · have hwake : s.motion.wake = { s.motion with loc := .relock } := if_pos hasleep
    rw [hwake] at hturn ⊢
    exact { h with turn := hturn, exclusive := nofun, angles := by simp, sensors := nofun }
  · have hwake : s.motion.wake = s.motion := if_neg hasleep
    rw [hwake]
    exact h

/-- While motion is at work on a frame the agent sleeps. -/
lemma Turn.asleep_of_frame {s : SimSystem} (h : s.Turn)
    (hloc : s.motion.loc = .preProcess ∨ s.motion.loc = .processMotionFrame ∨
      s.motion.loc = .finishFrame) :
    s.agent.loc = .asleep ∧ s.memory.frameId = s.motion.lastFrameProcessed + 1 := by
  have hquiet : s.motion.loc.quiet = false := by rcases hloc with h | h | h <;> rw [h] <;> rfl
  cases h with
  | agent _ hq _ _ => exact nomatch hquiet.symm.trans hq
  | announce _ hq _ _ => exact nomatch hquiet.symm.trans hq
  | motion hagent _ hlast => exact ⟨hagent, hlast⟩
  | processed _ hmotion _ => rcases hloc with h | h | h <;> simp [h] at hmotion

/-- While motion is at work on a frame, the reading is that of the frame. -/
lemma InTurns.reading_of_frame {s : SimSystem} (h : s.InTurns)
    (hloc : s.motion.loc = .preProcess ∨ s.motion.loc = .processMotionFrame ∨
      s.motion.loc = .finishFrame) : s.memory.reading = s.memory.frameId := by
  rw [h.reading, (h.turn.asleep_of_frame hloc).1]
  rfl

/-- Motion gets the lock. -/
lemma Turn.lock {s : SimSystem} (h : s.Turn) (hloc : s.motion.loc = .lock ∨ s.motion.loc = .relock)
    (hfree : s.agent.inside = false) :
    Turn { s with motion := { s.motion with loc := .test } } := by
  cases h with
  | agent hagent _ hlast hcommands => exact .agent hagent rfl hlast hcommands
  | announce hagent _ _ _ => exact nomatch hfree.symm.trans (inside_of_announce hagent)
  | motion hagent _ hlast => exact .motion hagent rfl hlast
  | processed _ hmotion _ => rcases hloc with hloc | hloc <;> simp [hloc] at hmotion

/-- A step of motion keeps the turns. -/
lemma InTurns.motion {s : SimSystem} (h : s.InTurns) : (s.step .motion).InTurns := by
  obtain ⟨memory, motion, agent⟩ := s
  obtain ⟨loc, last, angles, sensors, processed⟩ := motion
  cases loc with
  | lock | relock =>
    cases hfree : agent.inside with
    | true => simpa [step, MotionLoop.step, hfree] using h
    | false =>
      have hturn := h.turn.lock (by simp) hfree
      simp only [step, MotionLoop.step, hfree]
      exact { h with
        turn := hturn
        exclusive := fun _ => hfree
        angles := by simp
        sensors := by rintro ⟨⟩ }
  | test =>
    have hturn := h.turn
    simp only [step, MotionLoop.step, MotionLoop.alreadyProcessedFrame, decide_eq_true_eq]
    split
    next hold =>
      refine { h with turn := ?_, angles := by simp, sensors := by rintro ⟨⟩ }
      cases hturn with
      | agent hagent _ hlast hcommands => exact .agent hagent rfl hlast hcommands
      | announce hagent _ _ hlast => exact .announce hagent rfl (fun _ => by rintro ⟨⟩) hlast
      | motion _ _ hlast => exact absurd (hlast.symm.trans_le hold) (Nat.not_succ_le_self _)
      | processed _ hmotion _ => simp at hmotion
    next hfresh =>
      refine { h with turn := ?_, angles := by simp, sensors := by rintro ⟨⟩ }
      have hin : agent.inside = false := h.exclusive rfl
      cases hturn with
      | agent _ _ hlast _ => exact absurd hlast.le hfresh
      | announce hagent _ _ _ => cases hin.symm.trans (inside_of_announce hagent)
      | motion hagent _ hlast => exact .motion hagent rfl hlast
      | processed _ hmotion _ => simp at hmotion
  | wait =>
    have hin : agent.inside = false := h.exclusive rfl
    refine { h with
      turn := ?_
      exclusive := by rintro ⟨⟩
      angles := by simp [step, MotionLoop.step]
      sensors := by rintro ⟨⟩ }
    cases h.turn with
    | agent hagent _ hlast hcommands => exact .agent hagent rfl hlast hcommands
    | announce hagent _ _ _ => cases hin.symm.trans (inside_of_announce hagent)
    | motion _ hworking _ => cases hworking
    | processed _ hmotion _ => simp at hmotion
  | asleep => exact h
  | preProcess =>
    obtain ⟨hagent, hlast⟩ := h.turn.asleep_of_frame (.inl rfl)
    have hreading := h.reading_of_frame (.inl rfl)
    exact { h with
      turn := .motion hagent rfl hlast
      angles := fun _ => hreading
      sensors := by rintro ⟨⟩ }
  | processMotionFrame =>
    obtain ⟨hagent, hlast⟩ := h.turn.asleep_of_frame (.inr (.inl rfl))
    have hreading := h.reading_of_frame (.inr (.inl rfl))
    have hfresh : ¬ memory.frameId ≤ last := hlast ▸ Nat.not_succ_le_self _
    simp only [step, MotionLoop.step, MotionLoop.alreadyProcessedFrame, decide_eq_true_eq, hfresh]
    exact { h with
      turn := .motion hagent rfl hlast
      angles := fun _ => h.angles (.inl rfl)
      sensors := fun _ => hreading }
  | finishFrame =>
    obtain ⟨hagent, hlast⟩ := h.turn.asleep_of_frame (.inr (.inr rfl))
    have hframes : processed = (counted last).map fun k => ⟨k, k, k⟩ := h.frames
    have hangles : angles = memory.frameId := h.angles (.inr rfl)
    have hsensors : sensors = memory.frameId := h.sensors rfl
    have hnext : memory.frameId = last + 1 := hlast
    refine { h with
      turn := .processed hagent (.inl rfl) rfl
      angles := by simp [step, MotionLoop.step]
      sensors := by rintro ⟨⟩
      frames := ?_ }
    simp [step, MotionLoop.step, hframes, hangles, hsensors, hnext, counted]
  | postProcess =>
    refine { h with turn := ?_, angles := by simp [step, MotionLoop.step], sensors := by rintro ⟨⟩ }
    cases h.turn with
    | agent _ hquiet _ _ | announce _ hquiet _ _ => cases hquiet
    | motion _ hworking _ => cases hworking
    | processed hagent _ hlast => exact .processed hagent (.inr ⟨.inl rfl, rfl⟩) hlast
  | unlock =>
    refine { h with
      turn := ?_
      exclusive := by rintro ⟨⟩
      angles := by simp [step, MotionLoop.step]
      sensors := by rintro ⟨⟩ }
    cases h.turn with
    | agent _ hquiet _ _ | announce _ hquiet _ _ => cases hquiet
    | motion _ hworking _ => cases hworking
    | processed hagent hmotion hlast =>
      have hcommands := (hmotion.resolve_left (by rintro ⟨⟩)).2
      exact .processed hagent (.inr ⟨.inr rfl, hcommands⟩) hlast
  | notify =>
    cases h.turn with
    | agent _ hquiet _ _ | announce _ hquiet _ _ => cases hquiet
    | motion _ hworking _ => cases hworking
    | processed hagent hmotion hlast =>
      obtain ⟨loc, answers⟩ := agent
      obtain rfl : loc = .asleep := hagent
      have hcommands := (hmotion.resolve_left (by rintro ⟨⟩)).2
      exact { h with
        turn := .agent ⟨by rintro ⟨⟩, by rintro ⟨⟩, by rintro ⟨⟩⟩ rfl hlast hcommands
        exclusive := by rintro ⟨⟩
        res := ⟨by rintro ⟨⟩, by rintro ⟨⟩, by rintro ⟨⟩⟩
        angles := by simp [step, MotionLoop.step]
        sensors := by rintro ⟨⟩ }
  | publishData =>
    refine { h with
      turn := ?_
      exclusive := by rintro ⟨⟩
      angles := by simp [step, MotionLoop.step]
      sensors := by rintro ⟨⟩ }
    cases h.turn with
    | agent hagent _ hlast hcommands => exact .agent hagent rfl hlast hcommands
    | announce hagent _ _ hlast => exact .announce hagent rfl (fun _ => by rintro ⟨⟩) hlast
    | motion hagent _ hlast => exact .motion hagent rfl hlast
    | processed _ hmotion _ => simp at hmotion

/-- When it is the turn of the agent, no frame is under way. -/
lemma Turn.of_agent {s : SimSystem} (h : s.Turn)
    (hloc : s.agent.loc ≠ .notifyMotion ∧ s.agent.loc ≠ .timedWait ∧ s.agent.loc ≠ .asleep) :
    s.motion.loc.quiet = true ∧ s.memory.frameId = s.motion.lastFrameProcessed ∧
      s.memory.commands = s.motion.lastFrameProcessed := by
  cases h with
  | agent _ hquiet hlast hcommands => exact ⟨hquiet, hlast, hcommands⟩
  | announce hagent _ _ _ => exact (hagent.elim hloc.1 hloc.2.1).elim
  | motion hagent _ _ | processed hagent _ _ => exact (hloc.2.2 hagent).elim

/-- Motion is at no frame while it is quiet. -/
lemma not_frame_of_quiet {m : MotionLoop} (hquiet : m.loc.quiet = true) :
    ¬ (m.loc = .processMotionFrame ∨ m.loc = .finishFrame) := by
  rintro (hm | hm) <;> exact nomatch (congrArg MotionLoopAt.quiet hm).symm.trans hquiet

/-- A wake-up ends a sleep. -/
lemma wake_loc_ne (m : MotionLoop) : m.wake.loc ≠ .asleep := by
  unfold MotionLoop.wake
  split
  · exact nofun
  · assumption

/-- A step of the agent keeps the turns. -/
lemma InTurns.agent {s : SimSystem} (h : s.InTurns) : (s.step .agent).InTurns := by
  obtain ⟨memory, motion, ⟨loc, answers⟩⟩ := s
  cases loc with
  | receive =>
    obtain ⟨hquiet, hlast, hcommands⟩ := h.turn.of_agent ⟨nofun, nofun, nofun⟩
    exact { h with
      turn := .agent ⟨nofun, nofun, nofun⟩ hquiet hlast hcommands
      res := ⟨nofun, nofun, nofun⟩ }
  | parse =>
    obtain ⟨hquiet, hlast, hcommands⟩ := h.turn.of_agent ⟨nofun, nofun, nofun⟩
    exact { h with
      turn := .agent ⟨nofun, nofun, nofun⟩ hquiet hlast hcommands
      res := ⟨nofun, nofun, nofun⟩
      reading := rfl }
  | lock =>
    obtain ⟨hquiet, hlast, hcommands⟩ := h.turn.of_agent ⟨nofun, nofun, nofun⟩
    by_cases hfree : motion.inside = true
    · simpa [step, SimAgent.step, hfree] using h
    · simp only [step, SimAgent.step, hfree]
      exact { h with
        turn := .agent ⟨nofun, nofun, nofun⟩ hquiet hlast hcommands
        exclusive := fun hm => absurd hm hfree
        res := ⟨nofun, nofun, nofun⟩ }
  | increment res =>
    obtain rfl : res = true := by
      cases res with
      | true => rfl
      | false => exact absurd rfl h.res.1
    obtain ⟨hquiet, hlast, hcommands⟩ := h.turn.of_agent ⟨nofun, nofun, nofun⟩
    have hframe := not_frame_of_quiet hquiet
    obtain ⟨n, hanswers, hn⟩ := h.answers
    exact { h with
      turn := .announce (.inl rfl) hquiet nofun (congrArg (· + 1) hlast)
      res := ⟨nofun, nofun, nofun⟩
      reading := h.reading
      angles := fun hm => absurd hm hframe
      sensors := fun hm => absurd (.inr hm) hframe
      answers := ⟨n, hanswers, congrArg (· + 1) hn⟩ }
  | notifyMotion =>
    have hwoken := h.wake
    cases hwoken.turn with
    | agent hagent _ _ _ => exact absurd rfl hagent.1
    | announce _ hquiet _ hlast =>
      exact { hwoken with
        turn := .announce (.inr rfl) hquiet (fun _ => wake_loc_ne motion) hlast
        res := ⟨nofun, nofun, nofun⟩ }
    | motion hagent _ _ | processed hagent _ _ => exact nomatch hagent
  | timedWait =>
    cases h.turn with
    | agent hagent _ _ _ => exact absurd rfl hagent.2.1
    | announce _ hquiet hawake hlast =>
      have hworking : motion.loc.working = true := by
        have hout : motion.loc.inside = true → False := fun hm => nomatch h.exclusive hm
        have hawake' : motion.loc ≠ .asleep := hawake rfl
        revert hquiet hout hawake'
        cases motion.loc <;> simp [MotionLoopAt.quiet, MotionLoopAt.working, MotionLoopAt.inside]
      exact { h with
        turn := .motion rfl hworking hlast
        exclusive := fun _ => rfl
        res := ⟨nofun, nofun, nofun⟩ }
    | motion hagent _ _ | processed hagent _ _ => exact nomatch hagent
  | asleep => exact h
  | relock =>
    obtain ⟨hquiet, hlast, hcommands⟩ := h.turn.of_agent ⟨nofun, nofun, nofun⟩
    by_cases hfree : motion.inside = true
    · simpa [step, SimAgent.step, hfree] using h
    · simp only [step, SimAgent.step, hfree]
      exact { h with
        turn := .agent ⟨nofun, nofun, nofun⟩ hquiet hlast hcommands
        exclusive := fun hm => absurd hm hfree
        res := ⟨nofun, nofun, nofun⟩ }
  | composeAction res =>
    obtain rfl : res = true := by
      cases res with
      | true => rfl
      | false => exact absurd rfl h.res.2.1
    obtain ⟨hquiet, hlast, hcommands⟩ := h.turn.of_agent ⟨nofun, nofun, nofun⟩
    obtain ⟨n, hanswers, hn⟩ := h.answers
    have hframe : memory.frameId = n + 1 := hn
    have hanswer : memory.commands = n + 1 := hcommands.trans (hlast.symm.trans hn)
    have hold : answers = (counted n).map fun k => ⟨k, k⟩ := hanswers
    refine { h with
      turn := .agent ⟨nofun, nofun, nofun⟩ hquiet hlast hcommands
      res := ⟨nofun, nofun, nofun⟩
      answers := ⟨n + 1, ?_, hn⟩ }
    simp [step, SimAgent.step, hframe, hanswer, hold, counted]
  | unlock res =>
    obtain ⟨hquiet, hlast, hcommands⟩ := h.turn.of_agent ⟨nofun, nofun, nofun⟩
    exact { h with
      turn := .agent ⟨nofun, nofun, nofun⟩ hquiet hlast hcommands
      exclusive := fun _ => rfl
      res := ⟨nofun, nofun, nofun⟩ }
  | notify =>
    have hwoken := h.wake
    obtain ⟨hquiet, hlast, hcommands⟩ := hwoken.turn.of_agent ⟨nofun, nofun, nofun⟩
    exact { hwoken with
      turn := .agent ⟨nofun, nofun, nofun⟩ hquiet hlast hcommands
      res := ⟨nofun, nofun, nofun⟩ }

/-- Steps in time keep the turns. -/
lemma InTurns.step {s : SimSystem} (h : s.InTurns) {a : SimAct} (ha : InTime a s) :
    (s.step a).InTurns := by
  cases a with
  | motion => exact h.motion
  | motionWakes => exact h.wake
  | agent => exact h.agent
  | lockTimesOut => exact absurd rfl ha.1
  | waitEnds => exact absurd rfl ha.2

/-- It is the turn of the agent before the first message. -/
lemma inTurns_start : start.InTurns :=
  { turn := .agent ⟨nofun, nofun, nofun⟩ rfl rfl rfl
    exclusive := nofun
    res := ⟨nofun, nofun, nofun⟩
    reading := rfl
    angles := by simp [start, MotionLoop.start]
    sensors := nofun
    frames := rfl
    answers := ⟨0, rfl, rfl⟩ }

/-! ## What follows for the robot's behavior in the simulator -/

/-- While the agent writes or reads, motion is not at a frame. -/
lemma InTurns.quiet_of_busy {s : SimSystem} (h : s.InTurns) (hbusy : s.agent.loc.busy = true) :
    s.motion.loc.quiet = true := by
  refine (h.turn.of_agent ⟨?_, ?_, ?_⟩).1
  all_goals
    intro hloc
    simp [hloc, AgentAt.busy] at hbusy

/-- The two processes do not wait for each other. -/
lemma InTurns.not_both_asleep {s : SimSystem} (h : s.InTurns) (hagent : s.agent.loc = .asleep) :
    s.motion.loc ≠ .asleep := by
  intro hmotion
  cases h.turn with
  | agent hloc _ _ _ => exact hloc.2.2 hagent
  | announce hloc _ _ _ => simp [hagent] at hloc
  | motion _ hworking _ => exact nomatch (congrArg MotionLoopAt.working hmotion).symm.trans hworking
  | processed _ hloc _ => simp [hmotion] at hloc

/-- The frames are processed in order whether or not anything times out. -/
lemma ordered_step {s : SimSystem} (h : s.motion.Ordered s.memory) (a : SimAct) :
    (s.step a).motion.Ordered (s.step a).memory := by
  cases a with
  | motion => exact h.step _
  | motionWakes => exact h.wake
  | lockTimesOut | waitEnds => exact h
  | agent =>
    obtain ⟨memory, motion, ⟨loc, answers⟩⟩ := s
    cases loc with
    | increment res => exact h.announce
    | notifyMotion | notify => exact h.wake
    | parse => exact { h with }
    | receive | lock | timedWait | asleep | relock | composeAction res | unlock res => exact h

end SimSystem

end NaoSoccer
