import NaoSoccer.Foundation.LabelledRun
import Mathlib.Data.List.Induction
import Mathlib.Data.Rat.Defs
import Mathlib.Algebra.Order.Ring.Rat
import Mathlib.Tactic.NormNum

/-!
# Logging sessions of the vision process

The tool asks for a log with `LogBegin`, which gives a number of frames and an interval, and stops
it with `LogEnd`.  `VisionCore::enableLogging` opens the log unless one is open already,
`VisionCore::startDisableLogging` sets `disable_log_`, and the end of `processVisionFrame` writes
the frame if it is due and closes the log if `disable_log_` is set, be it by the tool or because the
last frame that was asked for has just been written.

A run is a list of requests and ends of frames in any order.  `SessionInvariant` is what holds of
the counter between the `LogBegin` that was accepted and the next one that is.
-/

namespace NaoSoccer

open LabelledRun

/-! ## The state and the requests -/

/-- What `VisionCore` uses of its `LogWriter`: whether the file is open, and `mdata_.frames`, the
number of frames written to it. -/
structure LogFile where
  isOpen : Bool
  frames : ℕ
  deriving DecidableEq, Repr

/-- `LogWriter::open` starts a new file, with the number of frames at zero. -/
def LogFile.open' (_ : LogFile) : LogFile := ⟨true, 0⟩

/-- `LogWriter::close` -/
def LogFile.close (log : LogFile) : LogFile := { log with isOpen := false }

/-- `LogWriter::writeMemory` -/
def LogFile.writeMemory (log : LogFile) : LogFile :=
  if log.isOpen then { log with frames := log.frames + 1 } else log

/-- The fields of `VisionCore` that belong to logging. -/
structure VisionLogging where
  /-- `frames_to_log_`, an unsigned integer of 32 bits. -/
  framesToLog : ℕ
  logInterval : ℚ
  logByFrame : Bool
  disableLog : Bool
  isLogging : Bool
  log : LogFile
  deriving DecidableEq, Repr

/-- `ToolPacket::hasRequiredObjects` and `ToolPacket::requiredObjects`. -/
structure LogSelections where
  hasRequiredObjects : Bool
  requiredObjects : List Bool
  deriving DecidableEq, Repr

/-- What `VisionCore::optionallyWriteLog` reads at the end of a frame. -/
structure FrameEnd where
  /-- `logtimer_.elapsed()` when the interval is tested. -/
  elapsed : ℚ
  /-- `logtimer_.elapsed()` when the head is found moving. -/
  elapsedMoving : ℚ
  reportedHeadMoving : Bool
  reportedHeadStopTime : ℚ
  secondsSinceStart : ℚ
  loggingSelections : Option LogSelections
  /-- The `seen` flags of the world objects. -/
  seen : List Bool
  deriving DecidableEq, Repr

/-- A request of the tool or the end of a frame. -/
inductive LoggingAct
  | logBegin (frames : ℤ) (interval : ℚ)
  | logEnd
  | frame (input : FrameEnd)
  deriving DecidableEq, Repr

/-- `HEAD_STOP_THRESHOLD` -/
def headStopThreshold : ℚ := 1 / 10

namespace FrameEnd

/-- The head has been still for long enough. -/
def headReady (f : FrameEnd) : Bool :=
  !f.reportedHeadMoving && f.secondsSinceStart - f.reportedHeadStopTime > headStopThreshold

/-- No required object is selected, or one that is has been seen. -/
def objectsAllow (f : FrameEnd) : Bool :=
  match f.loggingSelections with
  | none => true
  | some selections =>
    !selections.hasRequiredObjects ||
      (selections.requiredObjects.zip f.seen).any fun object => object.1 && object.2

/-- The three tests of `VisionCore::optionallyWriteLog` after `is_logging_`. -/
def due (f : FrameEnd) (logInterval : ℚ) : Bool :=
  !(logInterval > 1 / 100000 && f.elapsed < logInterval) &&
    !(logInterval > 1 / 100000 && !f.headReady && f.elapsedMoving - logInterval < 34 / 100) &&
    f.objectsAllow

end FrameEnd

namespace VisionLogging

/-- `VisionCore::enableLogging(frames, frequency)`, with the two functions it calls. -/
def enableLogging (frames : ℤ) (frequency : ℚ) (v : VisionLogging) : VisionLogging :=
  if v.isLogging then v
  else { v with
    logByFrame := 0 < frames
    framesToLog := (frames % 2 ^ 32).toNat
    logInterval := frequency
    isLogging := true
    log := v.log.open' }

/-- `VisionCore::startDisableLogging` -/
def startDisableLogging (v : VisionLogging) : VisionLogging :=
  if v.isLogging then { v with disableLog := true } else v

/-- `VisionCore::disableLogging` -/
def disableLogging (v : VisionLogging) : VisionLogging :=
  if !v.isLogging then v
  else { v with log := v.log.close, disableLog := false, isLogging := false, framesToLog := 0 }

/-- `VisionCore::optionallyWriteLog` writes the frame. -/
def Writes (f : FrameEnd) (v : VisionLogging) : Prop := v.isLogging ∧ f.due v.logInterval

instance (f : FrameEnd) (v : VisionLogging) : Decidable (v.Writes f) :=
  inferInstanceAs (Decidable (_ ∧ _))

/-- `VisionCore::optionallyWriteLog` -/
def optionallyWriteLog (f : FrameEnd) (v : VisionLogging) : VisionLogging :=
  if v.Writes f then
    let framesToLog :=
      if v.logByFrame then (v.framesToLog + (2 ^ 32 - 1)) % 2 ^ 32 else v.framesToLog
    { v with
      log := v.log.writeMemory
      framesToLog := framesToLog
      disableLog := if framesToLog = 0 && v.logByFrame then true else v.disableLog }
  else v

/-- The end of `VisionCore::processVisionFrame`. -/
def endFrame (f : FrameEnd) (v : VisionLogging) : VisionLogging :=
  let w := v.optionallyWriteLog f
  if w.isLogging && w.disableLog then disableLogging { w with disableLog := false } else w

/-- One request, or the end of a frame. -/
def step : LoggingAct → VisionLogging → VisionLogging
  | .logBegin frames interval, v => v.enableLogging frames interval
  | .logEnd, v => v.startDisableLogging
  | .frame f, v => v.endFrame f

/-- `VisionCore::VisionCore`.  The constructor leaves `log_interval_` and `log_by_frame_` as they
happen to be. -/
def construct (logInterval : ℚ) (logByFrame : Bool) : VisionLogging where
  framesToLog := 0
  logInterval := logInterval
  logByFrame := logByFrame
  disableLog := false
  isLogging := false
  log := ⟨false, 0⟩

/-! ## One step -/

/-- The flags agree: a stop is pending only while logging, and the log is open while logging. -/
structure FlagInvariant (v : VisionLogging) : Prop where
  logging_of_disable : v.disableLog = true → v.isLogging = true
  isOpen_eq : v.log.isOpen = v.isLogging

/-- Writing the frame does not open or close the log. -/
lemma isOpen_optionallyWriteLog (f : FrameEnd) (v : VisionLogging) :
    (v.optionallyWriteLog f).log.isOpen = v.log.isOpen := by
  rw [optionallyWriteLog]
  split
  · show v.log.writeMemory.isOpen = v.log.isOpen
    rw [LogFile.writeMemory]
    split <;> rfl
  · rfl

/-- Writing the frame does not begin or end a session. -/
lemma isLogging_optionallyWriteLog (f : FrameEnd) (v : VisionLogging) :
    (v.optionallyWriteLog f).isLogging = v.isLogging := by
  rw [optionallyWriteLog]
  split <;> rfl

/-- A frame that is written belongs to a session, so writing keeps the flags in agreement. -/
lemma FlagInvariant.optionallyWriteLog {v : VisionLogging} (h : v.FlagInvariant) (f : FrameEnd) :
    (v.optionallyWriteLog f).FlagInvariant where
  logging_of_disable := by
    rw [isLogging_optionallyWriteLog]
    intro hdisable
    rw [VisionLogging.optionallyWriteLog] at hdisable
    split at hdisable
    next hwrites => exact hwrites.1
    next => exact h.logging_of_disable hdisable
  isOpen_eq := by
    rw [isOpen_optionallyWriteLog, isLogging_optionallyWriteLog]
    exact h.isOpen_eq

/-- What the end of a frame does when the flags agree: it writes, and then closes the log if a stop
is pending. -/
lemma endFrame_eq (f : FrameEnd) {v : VisionLogging} (h : v.FlagInvariant) :
    v.endFrame f = if (v.optionallyWriteLog f).disableLog then
        { v.optionallyWriteLog f with
          log := (v.optionallyWriteLog f).log.close
          disableLog := false
          isLogging := false
          framesToLog := 0 }
      else v.optionallyWriteLog f := by
  rw [endFrame]
  by_cases hdisable : (v.optionallyWriteLog f).disableLog = true
  · have hlogging := (h.optionallyWriteLog f).logging_of_disable hdisable
    simp [hdisable, hlogging, disableLogging]
  · simp [hdisable]

/-- **The step lemma for the flags.** -/
lemma FlagInvariant.step {v : VisionLogging} (h : v.FlagInvariant) (a : LoggingAct) :
    (step a v).FlagInvariant := by
  cases a with
  | logBegin frames interval =>
    simp only [VisionLogging.step, enableLogging]
    split
    · exact h
    · exact ⟨fun _ => rfl, rfl⟩
  | logEnd =>
    simp only [VisionLogging.step, startDisableLogging]
    split
    next hlogging => exact ⟨fun _ => hlogging, h.isOpen_eq⟩
    next => exact h
  | frame f =>
    simp only [VisionLogging.step]
    rw [endFrame_eq f h]
    split
    · exact ⟨fun hdisable => absurd hdisable Bool.false_ne_true, rfl⟩
    · exact h.optionallyWriteLog f

/-- **The flags agree in every state that the core reaches.** -/
lemma flagInvariant_run (logInterval : ℚ) (logByFrame : Bool) (acts : List LoggingAct) :
    (run step (construct logInterval logByFrame) acts).FlagInvariant := by
  induction acts using List.reverseRecOn with
  | nil => exact ⟨fun hdisable => absurd hdisable Bool.false_ne_true, rfl⟩
  | append_singleton acts a ih =>
    rw [run_append]
    exact ih.step a

/-! ## A session with a number of frames -/

/-- The request is a `LogBegin` that begins a session. -/
def Begins (a : LoggingAct) (v : VisionLogging) : Prop :=
  match a with
  | .logBegin _ _ => v.isLogging = false
  | _ => False

/-- What holds from the beginning of a session of `n` frames until the next session begins: while
it is open the counter is what is left to write, and it is closed once all frames are written. -/
structure SessionInvariant (n : ℕ) (v : VisionLogging) : Prop where
  flags : v.FlagInvariant
  logByFrame : v.isLogging = true → v.logByFrame = true
  framesToLog : v.isLogging = true → v.framesToLog + v.log.frames = n
  framesToLog_pos : v.isLogging = true → 0 < v.framesToLog
  frames_le : v.log.frames ≤ n

variable {n : ℕ} {v : VisionLogging}

/-- The session that a `LogBegin` begins. -/
lemma sessionInvariant_enableLogging (hn : 0 < n) (hrange : n < 2 ^ 31) (interval : ℚ)
    (hlogging : v.isLogging = false) (h : v.FlagInvariant) :
    SessionInvariant n (v.enableLogging n interval) := by
  have hmod : ((n : ℤ) % 2 ^ 32).toNat = n := by omega
  have hflags := h.step (.logBegin n interval)
  simp only [VisionLogging.step, enableLogging, hlogging, hmod] at hflags ⊢
  exact ⟨hflags, fun _ => by simpa using hn, fun _ => rfl, fun _ => hn, Nat.zero_le n⟩

/-- The two ways in which the end of a frame goes on in a session: nothing is written, or a frame
is, and the stop is set with the last one. -/
lemma optionallyWriteLog_session (hrange : n < 2 ^ 31) (f : FrameEnd) (h : SessionInvariant n v) :
    (¬ v.Writes f ∧ v.optionallyWriteLog f = v) ∨
    (v.Writes f ∧ v.isLogging = true ∧
      v.optionallyWriteLog f = { v with
        log := ⟨true, v.log.frames + 1⟩
        framesToLog := v.framesToLog - 1
        disableLog := if v.framesToLog = 1 then true else v.disableLog }) := by
  by_cases hwrites : v.Writes f
  · right
    have hlogging : v.isLogging = true := hwrites.1
    have hleft := h.framesToLog hlogging
    have hpos := h.framesToLog_pos hlogging
    have hopen : v.log.isOpen = true := h.flags.isOpen_eq.trans hlogging
    have hsub : (v.framesToLog + (2 ^ 32 - 1)) % 2 ^ 32 = v.framesToLog - 1 := by omega
    have hone : v.framesToLog - 1 = 0 ↔ v.framesToLog = 1 := by omega
    refine ⟨hwrites, hlogging, ?_⟩
    rw [optionallyWriteLog, if_pos hwrites]
    simp only [h.logByFrame hlogging, if_true, hsub, LogFile.writeMemory, hopen, Bool.and_true,
      decide_eq_true_eq, hone]
  · exact Or.inl ⟨hwrites, if_neg hwrites⟩

/-- **The step lemma for a session**: until another session begins, its invariant holds. -/
lemma SessionInvariant.step (hrange : n < 2 ^ 31) (a : LoggingAct) (v : VisionLogging)
    (hbegins : ¬ Begins a v) (h : SessionInvariant n v) :
    SessionInvariant n (VisionLogging.step a v) := by
  cases a with
  | logBegin frames interval =>
    have hlogging : v.isLogging = true := Bool.not_eq_false _ ▸ hbegins
    simp only [VisionLogging.step, enableLogging, hlogging, if_true]
    exact h
  | logEnd =>
    have hflags := h.flags.step .logEnd
    simp only [VisionLogging.step, startDisableLogging] at hflags ⊢
    split at hflags
    · rw [if_pos ‹_›]
      exact ⟨hflags, h.logByFrame, h.framesToLog, h.framesToLog_pos, h.frames_le⟩
    · rw [if_neg ‹_›]
      exact h
  | frame f =>
    have hflags := h.flags.step (.frame f)
    simp only [VisionLogging.step] at hflags ⊢
    rw [endFrame_eq f h.flags] at hflags ⊢
    rcases optionallyWriteLog_session hrange f h with ⟨-, heq⟩ | ⟨-, hlogging, heq⟩
    · rw [heq] at hflags ⊢
      split at hflags
      · rw [if_pos ‹_›]
        exact ⟨hflags, nofun, nofun, nofun, h.frames_le⟩
      · rw [if_neg ‹_›]
        exact h
    · have hleft := h.framesToLog hlogging
      have hpos := h.framesToLog_pos hlogging
      by_cases hdisable : (v.optionallyWriteLog f).disableLog = true
      · rw [if_pos hdisable] at hflags ⊢
        rw [heq] at hflags ⊢
        refine ⟨hflags, nofun, nofun, nofun, ?_⟩
        show v.log.frames + 1 ≤ n
        omega
      · rw [if_neg hdisable] at hflags ⊢
        have hne : v.framesToLog ≠ 1 := fun hone => hdisable (by rw [heq]; simp only [hone, if_true])
        rw [heq] at hflags ⊢
        refine ⟨hflags, h.logByFrame, fun _ => ?_, fun _ => ?_, ?_⟩
        · show v.framesToLog - 1 + (v.log.frames + 1) = n
          omega
        · show 0 < v.framesToLog - 1
          omega
        · show v.log.frames + 1 ≤ n
          omega

/-- A session whose frames are all written is closed. -/
lemma SessionInvariant.closed (h : SessionInvariant n v) (hall : v.log.frames = n) :
    v.isLogging = false ∧ v.log.isOpen = false := by
  have hlogging : v.isLogging = false := by
    by_contra hlogging
    have hlogging : v.isLogging = true := Bool.not_eq_false _ ▸ hlogging
    have hleft := h.framesToLog hlogging
    have hpos := h.framesToLog_pos hlogging
    omega
  exact ⟨hlogging, h.flags.isOpen_eq.trans hlogging⟩

/-! ## A session that nothing disturbs -/

/-- The move is not a `LogEnd`, and at the end of a frame no required object is selected. -/
def Undisturbed : LoggingAct → Prop
  | .logBegin _ _ => True
  | .logEnd => False
  | .frame f => ∀ selections ∈ f.loggingSelections, selections.hasRequiredObjects = false

/-- The number of frames that end in a list of moves. -/
def frameCount : List LoggingAct → ℕ
  | [] => 0
  | .frame _ :: acts => frameCount acts + 1
  | _ :: acts => frameCount acts

/-- What holds in a session of `n` frames with interval zero that nothing has disturbed, `k` frames
after it began. -/
structure SteadySession (n k : ℕ) (v : VisionLogging) : Prop extends SessionInvariant n v where
  logInterval : v.isLogging = true → v.logInterval = 0
  disableLog : v.disableLog = false
  frames : v.log.frames = min k n
  isLogging : v.isLogging = true ↔ k < n

/-- With interval zero, and if no required object is selected, every frame is due. -/
lemma due_of_undisturbed {f : FrameEnd} (hf : Undisturbed (.frame f)) : f.due 0 = true := by
  have hallow : f.objectsAllow = true := by
    rw [FrameEnd.objectsAllow]
    cases hselections : f.loggingSelections with
    | none => rfl
    | some selections =>
      have hnone : selections.hasRequiredObjects = false := hf selections (by rw [hselections]; rfl)
      simp only [hnone, Bool.not_false, Bool.true_or]
  have hzero : decide ((0 : ℚ) > 1 / 100000) = false := by norm_num
  simp only [FrameEnd.due, hallow, hzero, Bool.false_and, Bool.not_false, Bool.and_true]

/-- A frame in a steady session is written while some are left, and the last one closes the log. -/
lemma SteadySession.step_frame {k : ℕ} (hrange : n < 2 ^ 31) {f : FrameEnd}
    (hf : Undisturbed (.frame f)) (h : SteadySession n k v) :
    SteadySession n (k + 1) (step (.frame f) v) := by
  have hsession : SessionInvariant n (step (.frame f) v) :=
    h.toSessionInvariant.step hrange (.frame f) v (fun hbegins => hbegins)
  simp only [step] at hsession ⊢
  rw [endFrame_eq f h.flags] at hsession ⊢
  rcases optionallyWriteLog_session hrange f h.toSessionInvariant with
    ⟨hwrites, heq⟩ | ⟨-, hlogging, heq⟩
  · -- nothing is written: the session is over
    have hlogging : v.isLogging = false := by
      by_contra hlogging
      have hlogging : v.isLogging = true := Bool.not_eq_false _ ▸ hlogging
      refine hwrites ⟨hlogging, ?_⟩
      rw [h.logInterval hlogging]
      exact due_of_undisturbed hf
    have hdone : ¬ k < n := fun hlt => Bool.false_ne_true (hlogging ▸ h.isLogging.mpr hlt)
    have hframes := h.frames
    have hkeep : ¬ (v.optionallyWriteLog f).disableLog = true := by
      rw [heq, h.disableLog]
      exact Bool.false_ne_true
    rw [if_neg hkeep, heq] at hsession ⊢
    refine ⟨hsession, h.logInterval, h.disableLog, by omega, ?_⟩
    rw [hlogging]
    exact ⟨nofun, fun hlt => absurd hlt (by omega)⟩
  · have hk : k < n := h.isLogging.mp hlogging
    have hframes := h.frames
    have hleft := h.framesToLog hlogging
    by_cases hdisable : (v.optionallyWriteLog f).disableLog = true
    · -- the last frame
      have hone : v.framesToLog = 1 := by
        by_contra hone
        rw [heq] at hdisable
        simp only [hone, if_false, h.disableLog] at hdisable
        exact Bool.false_ne_true hdisable
      rw [if_pos hdisable, heq] at hsession ⊢
      refine ⟨hsession, nofun, rfl, ?_, ⟨nofun, fun hlt => absurd hlt (by omega)⟩⟩
      show v.log.frames + 1 = min (k + 1) n
      omega
    · have hpos := h.framesToLog_pos hlogging
      have hne : v.framesToLog ≠ 1 := fun hone => hdisable (by rw [heq]; simp only [hone, if_true])
      rw [if_neg hdisable] at hsession ⊢
      rw [heq] at hsession hdisable ⊢
      refine ⟨hsession, h.logInterval, Bool.not_eq_true _ ▸ hdisable, ?_, ?_⟩
      · show v.log.frames + 1 = min (k + 1) n
        omega
      · exact ⟨fun _ => by omega, fun _ => hlogging⟩

/-- **The run lemma for a steady session**: after `k` more frames, `k` more are written, up to the
number that was asked for. -/
lemma SteadySession.run (hrange : n < 2 ^ 31) {k : ℕ} {v : VisionLogging} {mid : List LoggingAct}
    (hmid : Guarded step (fun a v => ¬ Begins a v) v mid) (hsteady : ∀ a ∈ mid, Undisturbed a)
    (h : SteadySession n k v) : SteadySession n (k + frameCount mid) (run step v mid) := by
  induction mid generalizing k v with
  | nil => exact h
  | cons a mid ih =>
    obtain ⟨hbegins, hmid⟩ := hmid
    have ha := hsteady a List.mem_cons_self
    have hrest : ∀ b ∈ mid, Undisturbed b := fun b hb => hsteady b (List.mem_cons_of_mem a hb)
    rw [run_cons]
    cases a with
    | logBegin frames interval =>
      have hlogging : v.isLogging = true := Bool.not_eq_false _ ▸ hbegins
      have hstep : step (.logBegin frames interval) v = v := by
        rw [step, enableLogging, if_pos hlogging]
      rw [hstep] at hmid ⊢
      exact ih hmid hrest h
    | logEnd => exact ha.elim
    | frame f =>
      have hcount : k + frameCount (.frame f :: mid) = k + 1 + frameCount mid := by
        simp only [frameCount]
        omega
      rw [hcount]
      exact ih hmid hrest (h.step_frame hrange ha)

/-- The session that a `LogBegin` with interval zero begins is steady. -/
lemma steadySession_enableLogging (hn : 0 < n) (hrange : n < 2 ^ 31)
    (hlogging : v.isLogging = false) (h : v.FlagInvariant) :
    SteadySession n 0 (v.enableLogging n 0) := by
  have hdisable : v.disableLog = false := by
    by_contra hdisable
    rw [h.logging_of_disable (Bool.not_eq_false _ ▸ hdisable)] at hlogging
    exact Bool.false_ne_true hlogging.symm
  refine ⟨sessionInvariant_enableLogging hn hrange 0 hlogging h, ?_, ?_, ?_, ?_⟩ <;>
    rw [enableLogging, if_neg (by rw [hlogging]; exact Bool.false_ne_true)]
  · exact fun _ => rfl
  · exact hdisable
  · exact (Nat.zero_min n).symm
  · exact ⟨fun _ => hn, fun _ => rfl⟩

/-! ## Where a session comes from -/

/-- A session is open only if a `LogBegin` began it, and since then it has been open all the
time. -/
lemma exists_begin_of_isLogging {v : VisionLogging} (hstart : v.isLogging = false)
    (acts : List LoggingAct) (hlogging : (run step v acts).isLogging = true) :
    ∃ pre frames interval mid, acts = pre ++ .logBegin frames interval :: mid ∧
      (run step v pre).isLogging = false ∧
      ∀ front, front <+: mid →
        (run step v (pre ++ .logBegin frames interval :: front)).isLogging = true := by
  induction acts using List.reverseRecOn with
  | nil =>
    rw [run_nil, hstart] at hlogging
    exact absurd hlogging Bool.false_ne_true
  | append_singleton acts a ih =>
    by_cases hbefore : (run step v acts).isLogging = true
    · obtain ⟨pre, frames, interval, mid, rfl, hpre, hmid⟩ := ih hbefore
      refine ⟨pre, frames, interval, mid ++ [a], by simp, hpre, fun front hfront => ?_⟩
      rcases List.prefix_concat_iff.mp hfront with rfl | hfront
      · simpa using hlogging
      · exact hmid front hfront
    · have hbefore : (run step v acts).isLogging = false := Bool.not_eq_true _ ▸ hbefore
      rw [run_append, run_cons, run_nil] at hlogging
      cases a with
      | logBegin frames interval =>
        refine ⟨acts, frames, interval, [], rfl, hbefore, fun front hfront => ?_⟩
        rw [List.prefix_nil.mp hfront, run_append, run_cons, run_nil]
        exact hlogging
      | logEnd =>
        rw [step, startDisableLogging, hbefore] at hlogging
        exact absurd (hbefore.symm.trans hlogging) Bool.false_ne_true
      | frame f =>
        have hwrites : ¬ (run step v acts).Writes f := fun hwrites =>
          Bool.false_ne_true (hbefore.symm.trans hwrites.1)
        rw [step, endFrame, optionallyWriteLog, if_neg hwrites] at hlogging
        simp only [hbefore, Bool.false_and] at hlogging
        exact absurd (hbefore.symm.trans hlogging) Bool.false_ne_true

/-! ## Every run -/

/-- The logging sessions are in order in every run from the state `v`. -/
structure SessionsInOrder (v : VisionLogging) : Prop where
  /-- A stop is pending only while a session is open. -/
  disable_logging : ∀ acts, (run step v acts).disableLog = true →
    (run step v acts).isLogging = true
  /-- A session of `n` frames writes no more, and the frame that writes the last one closes the
  log. -/
  frames_le : ∀ pre (n : ℕ) interval mid, 0 < n → n < 2 ^ 31 → (run step v pre).isLogging = false →
    Guarded step (fun a v => ¬ Begins a v)
      (run step v (pre ++ [.logBegin n interval])) mid →
    ((run step v (pre ++ .logBegin n interval :: mid)).log.frames ≤ n ∧
      ((run step v (pre ++ .logBegin n interval :: mid)).log.frames = n →
        (run step v (pre ++ .logBegin n interval :: mid)).isLogging = false ∧
          (run step v (pre ++ .logBegin n interval :: mid)).log.isOpen = false))
  /-- A session with interval zero that nothing disturbs writes every frame until it has all. -/
  frames_eq : ∀ pre (n : ℕ) mid, 0 < n → n < 2 ^ 31 → (run step v pre).isLogging = false →
    Guarded step (fun a v => ¬ Begins a v) (run step v (pre ++ [.logBegin n 0])) mid →
    (∀ a ∈ mid, Undisturbed a) →
    ((run step v (pre ++ .logBegin n 0 :: mid)).log.frames = min (frameCount mid) n ∧
      ((run step v (pre ++ .logBegin n 0 :: mid)).isLogging = true ↔ frameCount mid < n))
  /-- A frame is written to an open log, in a session that a `LogBegin` began and that has been open
  since. -/
  writes_session : ∀ acts f, (run step v acts).Writes f →
    (run step v acts).log.isOpen = true ∧
      ∃ pre frames interval mid, acts = pre ++ .logBegin frames interval :: mid ∧
        (run step v pre).isLogging = false ∧
        ∀ front, front <+: mid →
          (run step v (pre ++ .logBegin frames interval :: front)).isLogging = true

end VisionLogging

open VisionLogging in
/-- **Logging sessions are in order**, whatever the requests, the frames and their order. -/
theorem sessionsInOrder_construct (logInterval : ℚ) (logByFrame : Bool) :
    SessionsInOrder (construct logInterval logByFrame) where
  disable_logging acts := (flagInvariant_run logInterval logByFrame acts).logging_of_disable
  frames_le pre n interval mid hn hrange hclosed hmid := by
    have hbegin := sessionInvariant_enableLogging hn hrange interval hclosed
      (flagInvariant_run logInterval logByFrame pre)
    rw [run_append, run_cons, run_nil] at hmid
    have hend := run_invariant (SessionInvariant.step hrange) hbegin hmid
    rw [run_append, run_cons]
    exact ⟨hend.frames_le, hend.closed⟩
  frames_eq pre n mid hn hrange hclosed hmid hsteady := by
    have hbegin := steadySession_enableLogging hn hrange hclosed
      (flagInvariant_run logInterval logByFrame pre)
    rw [run_append, run_cons, run_nil] at hmid
    have hend := hbegin.run hrange hmid hsteady
    rw [Nat.zero_add] at hend
    rw [run_append, run_cons]
    exact ⟨hend.frames, hend.isLogging⟩
  writes_session acts f hwrites := by
    have hflags := flagInvariant_run logInterval logByFrame acts
    exact ⟨hflags.isOpen_eq.trans hwrites.1, exists_begin_of_isLogging rfl acts hwrites.1⟩

end NaoSoccer
