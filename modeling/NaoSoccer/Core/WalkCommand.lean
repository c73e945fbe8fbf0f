import NaoSoccer.Core.MotionVision

/-!
# Walk commands from vision to motion

Vision publishes a walk request by overwriting the shared one; motion takes the shared request
over in `receiveData`.  When motion publishes, it writes its own request back over the shared one,
keeps four of the shared fields and clears `new_command_`, since the command it has received is
done.

A command that vision publishes while motion is between `receiveData` and `publishData` is cleared
with it, before motion has seen it.  `walkCommand_delivered_iff` shows that these are exactly the
commands that are lost.
-/

namespace NaoSoccer

variable {R : Type} {P : Payloads} [AddCommGroup R]

/-- Motion has taken over a new command with the motion, speed, kick flag and target of `r`. -/
def WalkRequestBlock.CarriesCommand (q r : WalkRequestBlock R P) : Prop :=
  q.newCommand = true ∧ q.motion = r.motion ∧ q.speed = r.speed ∧
    q.performKick = r.performKick ∧ q.walkToTarget = r.walkToTarget ∧
    q.targetPoint = r.targetPoint

/-- The move is vision's `publishData`. -/
def Act.IsVisionPublish (a : Act R P) (s : System R P) : Prop :=
  match a with
  | .motion _ => False
  | .vision _ => s.visionAt = .publishData

/-- The move is motion's `receiveData`. -/
def Act.IsMotionReceive (a : Act R P) (s : System R P) : Prop :=
  match a with
  | .motion _ => s.motionAt = .receiveData
  | .vision _ => False

/-- The moves between a publication of vision and the next `receiveData` of motion: neither of
the two. -/
def BeforeReceive (a : Act R P) (s : System R P) : Prop :=
  ¬ a.IsVisionPublish s ∧ ¬ a.IsMotionReceive s

omit [AddCommGroup R] in
/-- Taking over a request changes no field but the control status. -/
lemma WalkRequestBlock.receive_carries {own sync r : WalkRequestBlock R P} :
    (own.receive sync).CarriesCommand r ↔ sync.CarriesCommand r := by
  unfold WalkRequestBlock.receive WalkRequestBlock.CarriesCommand
  split <;> rfl

omit [AddCommGroup R] in
/-- The shared request after vision has published carries vision's command. -/
lemma VisionCore.publishData_carries {v : VisionCore R P} (hv : v.isToolCore = false)
    (hnew : v.blocks.visionWalkRequest.newCommand = true) (sync : SyncBlocks R P) :
    (v.publishData sync).2.walkRequest.CarriesCommand v.blocks.visionWalkRequest := by
  simp [VisionCore.publishData, hv, WalkRequestBlock.CarriesCommand, hnew]

/-! ## A command published outside motion's cycle -/

/-- A published command waits in shared memory and motion's next section is `receiveData`. -/
def System.CommandPending (r : WalkRequestBlock R P) (s : System R P) : Prop :=
  s.motionAt = .receiveData ∧ s.sync.walkRequest.CarriesCommand r

/-- A waiting command keeps waiting: motion does not move, and only vision's publishing writes the
shared request. -/
lemma commandPending_step {r : WalkRequestBlock R P} (a : Act R P) (s : System R P)
    (hb : BeforeReceive a s) (h : s.CommandPending r) : (System.step a s).CommandPending r := by
  obtain ⟨hat, hcarry⟩ := h
  cases a with
  | motion process => exact absurd hat hb.2
  | vision behaviour =>
    cases hv : s.visionAt with
    | receiveData => simpa [System.CommandPending, System.step, System.visionStep, hv, hat]
    | behaviour => simpa [System.CommandPending, System.step, System.visionStep, hv, hat]
    | publishData => exact absurd hv hb.1

/-- Motion's `receiveData` takes over a waiting command. -/
lemma carriesCommand_of_pending {r : WalkRequestBlock R P} {s : System R P}
    (h : s.CommandPending r) (process : MotionBlocks R P → MotionBlocks R P) :
    (System.step (.motion process) s).motion.blocks.walkRequest.CarriesCommand r := by
  obtain ⟨hat, hcarry⟩ := h
  simpa [System.step, System.motionStep, hat, WalkRequestBlock.receive_carries] using hcarry

/-! ## A command published inside motion's cycle -/

/-- Motion is inside its cycle, or it has published and left no new command in shared memory. -/
def System.CommandDropped (s : System R P) : Prop :=
  s.motionAt ≠ .receiveData ∨ s.sync.walkRequest.newCommand = false

/-- Once motion publishes, the shared request has no new command until vision publishes again. -/
lemma commandDropped_step (a : Act R P) (s : System R P) (hb : BeforeReceive a s)
    (h : s.CommandDropped) : (System.step a s).CommandDropped := by
  unfold System.CommandDropped at h ⊢
  cases a with
  | motion process =>
    cases hm : s.motionAt with
    | receiveData => exact absurd hm hb.2
    | process => simp [System.step, System.motionStep, hm]
    | publishData => simp [System.step, System.motionStep, hm]
  | vision behaviour =>
    cases hv : s.visionAt with
    | receiveData => simpa [System.step, System.visionStep, hv] using h
    | behaviour => simpa [System.step, System.visionStep, hv] using h
    | publishData => exact absurd hv hb.1

/-- Motion's `receiveData` sees no new command when the published one has been dropped. -/
lemma not_carriesCommand_of_dropped {r : WalkRequestBlock R P} {s : System R P}
    (h : s.CommandDropped) (hat : s.motionAt = .receiveData)
    (process : MotionBlocks R P → MotionBlocks R P) :
    ¬ (System.step (.motion process) s).motion.blocks.walkRequest.CarriesCommand r := by
  have hnew : s.sync.walkRequest.newCommand = false := h.resolve_left (not_not.mpr hat)
  simp only [System.step, System.motionStep, hat, MotionCore.receiveData_walkRequest,
    WalkRequestBlock.receive_carries]
  exact fun hcarry => by simp [hcarry.1] at hnew

/-! ## Delivery -/

/-- The move is vision's `publishData` and publishes a request with `new_command_` set. -/
structure Act.PublishesCommand (a : Act R P) (s : System R P) : Prop where
  publish : a.IsVisionPublish s
  robot : s.vision.isToolCore = false
  newCommand : s.vision.blocks.visionWalkRequest.newCommand = true

/-- **A published walk command reaches motion exactly if it is published outside motion's cycle.**
Let vision publish a request with `new_command_` set at any point of any interleaving, and let
motion's next `receiveData` come before vision's next `publishData`.  Motion then sees the new
command with the motion, speed, kick flag and target of the published request if and only if
motion was not between its `receiveData` and its `publishData` when vision published. -/
theorem walkCommand_delivered_iff (s : System R P) (before between : List (Act R P))
    (behaviour : VisionBlocks R P → VisionBlocks R P)
    (process : MotionBlocks R P → MotionBlocks R P)
    (hpublish : (Act.vision behaviour).PublishesCommand (s.run before))
    (hbetween : LabelledRun.Guarded System.step BeforeReceive
      (s.run (before ++ [.vision behaviour])) between)
    (hreceive : (Act.motion process).IsMotionReceive
      (s.run (before ++ [.vision behaviour] ++ between))) :
    WalkRequestBlock.CarriesCommand
        (s.run (before ++ [.vision behaviour] ++ between ++
          [.motion process])).motion.blocks.walkRequest
        (s.run before).vision.blocks.visionWalkRequest ↔
      (s.run before).motionAt = .receiveData := by
  obtain ⟨hat, htool, hnew⟩ := hpublish
  have hat : (s.run before).visionAt = .publishData := hat
  simp only [System.run, LabelledRun.run_append, LabelledRun.run_cons, LabelledRun.run_nil]
    at hbetween hreceive hat htool hnew ⊢
  set t := LabelledRun.run System.step s before
  constructor
  · intro hcarry
    by_contra hm
    have hdropped : (System.step (.vision behaviour) t).CommandDropped :=
      Or.inl (by simpa [System.step, System.visionStep, hat] using hm)
    exact not_carriesCommand_of_dropped
      (LabelledRun.run_invariant commandDropped_step hdropped hbetween) hreceive process hcarry
  · intro hm
    have hpending : (System.step (.vision behaviour) t).CommandPending
        t.vision.blocks.visionWalkRequest := by
      refine ⟨by simpa [System.step, System.visionStep, hat] using hm, ?_⟩
      simpa [System.step, System.visionStep, hat] using
        VisionCore.publishData_carries htool hnew t.sync
    exact carriesCommand_of_pending
      (LabelledRun.run_invariant commandPending_step hpending hbetween) process

/-- A behaviour that requests a walk, as `WalkRequestBlock::set` does. -/
def requestWalk (b : VisionBlocks ℤ Payloads.unit) : VisionBlocks ℤ Payloads.unit :=
  { b with visionWalkRequest := { b.visionWalkRequest with
      newCommand := true, motion := .walk, speed := ⟨0, 1, 0⟩ } }

/-- A walk command published before motion starts its cycle is delivered. -/
theorem walkCommand_delivered_requestWalk :
    let s : System ℤ Payloads.unit := System.create .coreRobot
    let before : List (Act ℤ Payloads.unit) := [.vision id, .vision requestWalk]
    WalkRequestBlock.CarriesCommand
      (s.run (before ++ [.vision id] ++ [] ++ [.motion id])).motion.blocks.walkRequest
      (s.run before).vision.blocks.visionWalkRequest :=
  (walkCommand_delivered_iff (System.create .coreRobot) [.vision id, .vision requestWalk] [] id id
    ⟨rfl, rfl, rfl⟩ trivial rfl).2 rfl

/-- Vision publishes a walk command after motion has received; motion's next publication clears
it, and motion's next `receiveData` sees no new command. -/
theorem walkCommand_cleared :
    let s : System ℤ Payloads.unit := System.create .coreRobot
    let before : List (Act ℤ Payloads.unit) := [.motion id, .vision id, .vision requestWalk]
    let between : List (Act ℤ Payloads.unit) := [.motion id, .motion id]
    (Act.vision id).PublishesCommand (s.run before) ∧
      LabelledRun.Guarded System.step BeforeReceive (s.run (before ++ [.vision id])) between ∧
      (Act.motion id).IsMotionReceive (s.run (before ++ [.vision id] ++ between)) ∧
      ¬ WalkRequestBlock.CarriesCommand
        (s.run (before ++ [.vision id] ++ between ++ [.motion id])).motion.blocks.walkRequest
        (s.run before).vision.blocks.visionWalkRequest := by
  refine ⟨⟨rfl, rfl, rfl⟩, ?_, rfl, fun h => absurd h.1 (by decide)⟩
  exact ⟨⟨id, nofun⟩, ⟨id, nofun⟩, trivial⟩

end NaoSoccer
