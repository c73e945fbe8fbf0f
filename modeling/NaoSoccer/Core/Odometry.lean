import NaoSoccer.Core.MotionVision
import Mathlib.Tactic.Abel

/-!
# Odometry from motion to vision

Motion adds to the displacement it finds in shared memory and writes the sum back; vision adds the
displacement it finds to its own count and resets it.  `System.OdometryAccounted` is the balance:
what vision has received and what is on its way is what motion has produced.

Motion reads in one locked section and writes back in another.  When vision takes a nonzero
displacement in between, motion writes the same displacement back and vision receives it twice.
`OdometryUntouched` excludes just these moves: `odometryAccounted_of_guarded` shows that a run
without them is balanced throughout, `not_odometryAccounted_of_taken` that one such move
unbalances the state after motion's next publication.
-/

namespace NaoSoccer

variable {R : Type} {P : Payloads} [AddCommGroup R]

/-- The displacement on its way to vision: in shared memory while motion is outside its cycle, in
motion's own block while motion has taken it over. -/
def System.displacementInTransit (s : System R P) : Pose2D R :=
  if s.motionAt = .receiveData then s.sync.odometry.displacement
  else s.motion.blocks.odometry.displacement

/-- What vision has received and what is on its way is what motion has produced. -/
def System.OdometryAccounted (s : System R P) : Prop :=
  s.vision.cum + s.displacementInTransit = s.produced

/-- The two processes have just been created: both are at the start of their loops and no
displacement has been produced or received (`OdometryBlock::OdometryBlock`). -/
structure System.OdometryStart (s : System R P) : Prop where
  motionAt : s.motionAt = .receiveData
  displacement : s.sync.odometry.displacement = 0
  cum : s.vision.cum = 0
  produced : s.produced = 0

/-- The move takes no displacement that motion is about to write back: if vision receives odometry
between motion's `receiveData` and motion's `publishData`, there is none to take. -/
def OdometryUntouched (a : Act R P) (s : System R P) : Prop :=
  match a with
  | .motion _ => True
  | .vision _ => s.visionAt = .receiveData → s.vision.takesOdometry = true →
      s.motionAt ≠ .receiveData → s.sync.odometry.displacement = 0

/-- A system that has just been created is balanced. -/
lemma System.OdometryStart.accounted {s : System R P} (h : s.OdometryStart) :
    s.OdometryAccounted := by
  simp [System.OdometryAccounted, System.displacementInTransit, h.motionAt, h.displacement, h.cum,
    h.produced]

/-! ## One step -/

/-- Every move of motion keeps the balance. -/
lemma odometryAccounted_motionStep (process : MotionBlocks R P → MotionBlocks R P)
    {s : System R P} (h : s.OdometryAccounted) : (s.motionStep process).OdometryAccounted := by
  unfold System.OdometryAccounted System.displacementInTransit at h ⊢
  cases hm : s.motionAt with
  | receiveData => simpa [System.motionStep, hm] using h
  | process =>
    simp only [hm, reduceCtorEq, if_false] at h
    simp only [System.motionStep, hm, reduceCtorEq, if_false, ← h]
    abel
  | publishData => simpa [System.motionStep, hm] using h

/-- A move of vision that takes no displacement motion is about to write back keeps the
balance. -/
lemma odometryAccounted_visionStep (behaviour : VisionBlocks R P → VisionBlocks R P)
    {s : System R P} (hg : OdometryUntouched (.vision behaviour) s) (h : s.OdometryAccounted) :
    (s.visionStep behaviour).OdometryAccounted := by
  unfold System.OdometryAccounted System.displacementInTransit at h ⊢
  cases hv : s.visionAt with
  | receiveData =>
    simp only [System.visionStep, hv, VisionCore.receiveData_cum,
      VisionCore.receiveData_sync_displacement]
    by_cases ht : s.vision.takesOdometry
    · by_cases hm : s.motionAt = .receiveData
      · simpa [ht, hm] using h
      · have hzero : s.sync.odometry.displacement = 0 := hg hv ht hm
        simpa [ht, hm, hzero] using h
    · simpa [ht] using h
  | behaviour => simpa [System.visionStep, hv] using h
  | publishData => simpa [System.visionStep, hv] using h

/-- One step keeps the balance unless it takes a displacement motion is about to write back. -/
lemma odometryAccounted_step (a : Act R P) (s : System R P) (hg : OdometryUntouched a s)
    (h : s.OdometryAccounted) : (System.step a s).OdometryAccounted := by
  cases a with
  | motion process => exact odometryAccounted_motionStep process h
  | vision behaviour => exact odometryAccounted_visionStep behaviour hg h

/-- A run without such moves is balanced in the state it reaches. -/
lemma odometryAccounted_of_guarded {s : System R P} {acts : List (Act R P)}
    (hs : s.OdometryAccounted) (hg : LabelledRun.Guarded System.step OdometryUntouched s acts) :
    (s.run acts).OdometryAccounted :=
  LabelledRun.run_invariant odometryAccounted_step hs hg

/-! ## A displacement received twice -/

/-- The state after vision has taken the displacement `d` that motion still holds: `d` has been
counted once too often, and nothing is left in shared memory. -/
structure System.ReceivedTwice (d : Pose2D R) (s : System R P) : Prop where
  motionAt : s.motionAt ≠ .receiveData
  displacement : s.sync.odometry.displacement = 0
  surplus : s.vision.cum + s.motion.blocks.odometry.displacement = s.produced + d

/-- Taking a displacement that motion still holds counts it once too often. -/
lemma receivedTwice_of_taken {a : Act R P} {s : System R P} (h : s.OdometryAccounted)
    (ha : ¬ OdometryUntouched a s) :
    (System.step a s).ReceivedTwice s.sync.odometry.displacement ∧
      s.sync.odometry.displacement ≠ 0 := by
  cases a with
  | motion process => exact absurd trivial ha
  | vision behaviour =>
    simp only [OdometryUntouched, Classical.not_imp] at ha
    obtain ⟨hv, ht, hm, hne⟩ := ha
    refine ⟨⟨?_, ?_, ?_⟩, hne⟩
    · simpa [System.step, System.visionStep, hv] using hm
    · simp [System.step, System.visionStep, hv, VisionCore.receiveData_sync_displacement, ht]
    · simp only [System.OdometryAccounted, System.displacementInTransit, hm, if_false] at h
      simp only [System.step, System.visionStep, hv, VisionCore.receiveData_cum, ht, if_true, ← h]
      abel

/-- As long as motion does not publish, a displacement counted twice stays so. -/
lemma receivedTwice_step {d : Pose2D R} {a : Act R P} {s : System R P} (h : s.ReceivedTwice d)
    (hm : (System.step a s).motionAt ≠ .receiveData) : (System.step a s).ReceivedTwice d := by
  obtain ⟨hat, hzero, hsum⟩ := h
  cases a with
  | motion process =>
    cases hp : s.motionAt with
    | receiveData => exact absurd hp hat
    | process =>
      refine ⟨hm, ?_, ?_⟩ <;> simp only [System.step, System.motionStep, hp]
      · exact hzero
      · rw [add_right_comm, ← hsum]
        abel
    | publishData => simp [System.step, System.motionStep, hp] at hm
  | vision behaviour =>
    cases hv : s.visionAt with
    | receiveData =>
      refine ⟨hm, ?_, ?_⟩
      · simp [System.step, System.visionStep, hv, VisionCore.receiveData_sync_displacement, hzero]
      · simpa [System.step, System.visionStep, hv, VisionCore.receiveData_cum, hzero] using hsum
    | behaviour =>
      exact ⟨hm, by simpa [System.step, System.visionStep, hv] using hzero,
        by simpa [System.step, System.visionStep, hv] using hsum⟩
    | publishData =>
      exact ⟨hm, by simpa [System.step, System.visionStep, hv] using hzero,
        by simpa [System.step, System.visionStep, hv] using hsum⟩

/-- The move that ends motion's cycle turns a displacement counted twice into a broken balance. -/
lemma not_odometryAccounted_of_publish {d : Pose2D R} (hd : d ≠ 0) {a : Act R P}
    {s : System R P} (h : s.ReceivedTwice d)
    (hm : (System.step a s).motionAt = .receiveData) :
    ¬ (System.step a s).OdometryAccounted := by
  obtain ⟨hat, -, hsum⟩ := h
  cases a with
  | motion process =>
    cases hp : s.motionAt with
    | receiveData => exact absurd hp hat
    | process => simp [System.step, System.motionStep, hp] at hm
    | publishData =>
      simp only [System.OdometryAccounted, System.displacementInTransit, System.step,
        System.motionStep, hp, if_true, MotionCore.publishData_odometry]
      rw [hsum]
      exact fun hacc => hd (by simpa using hacc)
  | vision behaviour =>
    refine absurd ?_ hat
    cases hv : s.visionAt <;> simpa [System.step, System.visionStep, hv] using hm

/-- After a displacement has been counted twice, the next state in which motion is outside its
cycle is unbalanced. -/
lemma exists_not_odometryAccounted {d : Pose2D R} (hd : d ≠ 0) {s : System R P}
    (h : s.ReceivedTwice d) {acts : List (Act R P)} (hend : (s.run acts).motionAt = .receiveData) :
    ∃ pre, pre <+: acts ∧ (s.run pre).motionAt = .receiveData ∧
      ¬ (s.run pre).OdometryAccounted := by
  induction acts generalizing s with
  | nil => exact absurd hend h.motionAt
  | cons a acts ih =>
    by_cases hm : (System.step a s).motionAt = .receiveData
    · exact ⟨[a], by simp, hm, not_odometryAccounted_of_publish hd h hm⟩
    · obtain ⟨pre, hpre, hat, hne⟩ := ih (receivedTwice_step h hm) hend
      exact ⟨a :: pre, List.cons_prefix_cons.mpr ⟨rfl, hpre⟩, hat, hne⟩

/-! ## Whole runs -/

/-- **Odometry is counted exactly once as long as vision does not take it while motion holds it.**
For every interleaving of the two loops from the start: if no move of vision takes a nonzero
displacement between motion's `receiveData` and `publishData`, then in every state in which motion
is between `publishData` and `receiveData` the displacements vision has received and the one
pending in shared memory add up to what motion has produced.  For runs that end in such a state
the condition is also necessary. -/
theorem odometry_accounted_iff {s : System R P} (hs : s.OdometryStart) (acts : List (Act R P)) :
    (LabelledRun.Guarded System.step OdometryUntouched s acts →
      ∀ pre, pre <+: acts → (s.run pre).motionAt = .receiveData →
        (s.run pre).vision.cum + (s.run pre).sync.odometry.displacement = (s.run pre).produced) ∧
    ((s.run acts).motionAt = .receiveData →
      (∀ pre, pre <+: acts → (s.run pre).motionAt = .receiveData →
        (s.run pre).vision.cum + (s.run pre).sync.odometry.displacement = (s.run pre).produced) →
      LabelledRun.Guarded System.step OdometryUntouched s acts) := by
  have hbalance : ∀ pre, (s.run pre).motionAt = .receiveData →
      ((s.run pre).OdometryAccounted ↔
        (s.run pre).vision.cum + (s.run pre).sync.odometry.displacement =
          (s.run pre).produced) := by
    intro pre hat
    simp only [System.OdometryAccounted, System.displacementInTransit, hat, if_true]
  constructor
  · intro hg pre hpre hat
    exact (hbalance pre hat).mp
      (odometryAccounted_of_guarded hs.accounted (hg.of_prefix hpre))
  · intro hend hall
    by_contra hg
    obtain ⟨pre, a, post, rfl, hpre, ha⟩ := LabelledRun.exists_first_unguarded hg
    obtain ⟨htwice, hd⟩ :=
      receivedTwice_of_taken (odometryAccounted_of_guarded hs.accounted hpre) ha
    have hend' : ((System.step a (s.run pre)).run post).motionAt = .receiveData := by
      simpa [System.run] using hend
    obtain ⟨mid, ⟨rest, rfl⟩, hat, hne⟩ := exists_not_odometryAccounted hd htwice hend'
    have hrun : s.run (pre ++ a :: mid) = (System.step a (s.run pre)).run mid := by
      simp [System.run]
    refine hne ?_
    rw [← hrun] at hat ⊢
    exact (hbalance _ hat).mpr (hall _ ⟨rest, by simp⟩ hat)

/-- The processes as they are created start balanced. -/
lemma odometryStart_create (type : CoreType) :
    (System.create type : System R Payloads.unit).OdometryStart :=
  ⟨rfl, rfl, rfl, rfl⟩

/-- Processing that walks `d` along `x`. -/
def walkForward (d : ℤ) (m : MotionBlocks ℤ Payloads.unit) : MotionBlocks ℤ Payloads.unit :=
  { m with odometry := { m.odometry with
      displacement := { m.odometry.displacement with x := m.odometry.displacement.x + d } } }

/-- One cycle of motion that walks one unit, which vision receives after the cycle. -/
def receivedOnce : List (Act ℤ Payloads.unit) :=
  List.replicate 3 (.motion (walkForward 1)) ++ [.vision id]

/-- Two cycles of motion; vision receives the displacement of the first one after motion has taken
it over for the second. -/
def receivedInBetween : List (Act ℤ Payloads.unit) :=
  List.replicate 4 (.motion (walkForward 1)) ++ .vision id :: List.replicate 2 (.motion id)

/-- On the run `receivedOnce` the condition of `odometry_accounted_iff` holds, and so does the
balance. -/
theorem odometry_accounted_receivedOnce :
    let s : System ℤ Payloads.unit := (System.create .coreRobot).run receivedOnce
    s.motionAt = .receiveData ∧ s.vision.cum + s.sync.odometry.displacement = s.produced :=
  ⟨rfl, (odometry_accounted_iff (odometryStart_create .coreRobot) receivedOnce).1
    (by simp [receivedOnce, List.replicate, OdometryUntouched, System.step, System.motionStep,
      System.create]) receivedOnce List.prefix_rfl rfl⟩

/-- On the run `receivedInBetween` motion has produced one unit, one is pending and vision has
received one. -/
theorem odometry_received_twice :
    let s : System ℤ Payloads.unit := (System.create .coreRobot).run receivedInBetween
    s.motionAt = .receiveData ∧ s.vision.cum + s.sync.odometry.displacement ≠ s.produced := by
  decide

end NaoSoccer
