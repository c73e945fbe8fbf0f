import NaoSoccer.Core.MotionVision

/-!
# The handshake for walk and kick parameters

Behaviours change the parameters of the walk and of the kicks by setting `send_params_` in one of
three blocks of vision.  Vision's `publishData` then overwrites the shared block, flag included;
motion's `receiveData` takes the shared block over if its flag is set, and clears the flag.  Vision
clears its own flag in `receiveData`.

The three blocks go the same way, so `ParamKind` selects one of them and everything is stated once
for a kind.  The modules of the motion process only read the parameters; `Act.keepParams` is
processing that leaves them alone.
-/

namespace NaoSoccer

open LabelledRun

variable {R : Type} {P : Payloads}

/-! ## The three blocks -/

/-- The blocks with a `send_params_` flag. -/
inductive ParamKind
  | kickParams | walkParam | alWalkParam
  deriving DecidableEq, Repr

namespace ParamKind

/-- The parameters in a block of the kind. -/
def Params (P : Payloads) : ParamKind → Type
  | kickParams => P.KickParams
  | walkParam => P.WalkParams
  | alWalkParam => P.ALWalkParams

/-- `kick_params_`, `walk_param_`, `al_walk_param_` of `MotionCore`. -/
def motion (m : MotionBlocks R P) : (k : ParamKind) → ParamBlock (k.Params P)
  | kickParams => m.kickParams
  | walkParam => m.walkParam
  | alWalkParam => m.alWalkParam

/-- `sync_kick_params_`, `sync_walk_param_`, `sync_al_walk_param_`. -/
def shared (sync : SyncBlocks R P) : (k : ParamKind) → ParamBlock (k.Params P)
  | kickParams => sync.kickParams
  | walkParam => sync.walkParam
  | alWalkParam => sync.alWalkParam

/-- `vision_kick_params_`, `vision_walk_param_`, `vision_al_walk_param_`. -/
def vision (b : VisionBlocks R P) : (k : ParamKind) → ParamBlock (k.Params P)
  | kickParams => b.visionKickParams
  | walkParam => b.visionWalkParam
  | alWalkParam => b.visionAlWalkParam

variable (k : ParamKind)

/-- Motion's `receiveData` takes the shared block over if its flag is set. -/
lemma motion_receiveData (c : MotionCore R P) (sync : SyncBlocks R P) :
    k.motion (c.receiveData sync).1.blocks =
      ((k.motion c.blocks).receive (k.shared sync)).1 := by
  cases k <;> simp only [MotionCore.receiveData] <;> split <;>
    simp only [MotionCore.initWalkEngine_blocks] <;> rfl

/-- Motion's `receiveData` clears the flag in shared memory. -/
lemma shared_receiveData (c : MotionCore R P) (sync : SyncBlocks R P) :
    k.shared (c.receiveData sync).2 = ((k.motion c.blocks).receive (k.shared sync)).2 := by
  cases k <;> rfl

/-- Motion's `publishData` leaves the parameters alone. -/
lemma shared_motion_publishData (c : MotionCore R P) (sync : SyncBlocks R P) :
    k.shared (c.publishData sync) = k.shared sync := by
  cases k <;> rfl

/-- Vision's `publishData` overwrites the shared block if vision's flag is set. -/
lemma shared_vision_publishData {v : VisionCore R P} (hv : v.isToolCore = false)
    (sync : SyncBlocks R P) :
    k.shared (v.publishData sync).2 = (k.vision v.blocks).publish (k.shared sync) := by
  cases k <;> simp only [VisionCore.publishData, hv] <;> rfl

/-- A vision process inside the tool publishes nothing. -/
lemma shared_vision_publishData_of_tool {v : VisionCore R P} (hv : v.isToolCore = true)
    (sync : SyncBlocks R P) : k.shared (v.publishData sync).2 = k.shared sync := by
  rw [VisionCore.publishData, if_pos hv]

/-- Vision's `receiveData` leaves the shared parameters alone. -/
lemma shared_vision_receiveData [AddCommGroup R] (v : VisionCore R P) (sync : SyncBlocks R P) :
    k.shared (v.receiveData sync).2 = k.shared sync := by
  rw [VisionCore.receiveData]
  split
  · rfl
  · rw [VisionCore.receiveOdometry]
    split
    · rfl
    · cases k <;> rfl

end ParamKind

/-- Processing that only reads the parameters. -/
def MotionBlocks.keepParams (process : MotionBlocks R P → MotionBlocks R P)
    (m : MotionBlocks R P) : MotionBlocks R P :=
  { process m with
    kickParams := m.kickParams, walkParam := m.walkParam, alWalkParam := m.alWalkParam }

/-- A move in which motion's modules only read the parameters. -/
def Act.keepParams : Act R P → Act R P
  | .motion process => .motion (MotionBlocks.keepParams process)
  | .vision behaviour => .vision behaviour

/-! ## The events of the handshake -/

/-- The move is a `publishData` of vision with `send_params_` set. -/
def ParamKind.Sends (k : ParamKind) (a : Act R P) (s : System R P) : Prop :=
  match a with
  | .motion _ => False
  | .vision _ => s.visionAt = .publishData ∧ s.vision.isToolCore = false ∧
      (k.vision s.vision.blocks).sendParams = true

/-- The move is a `receiveData` of motion. -/
def MotionReceives (a : Act R P) (s : System R P) : Prop :=
  match a with
  | .motion _ => s.motionAt = .receiveData
  | .vision _ => False

/-- The move is a `receiveData` of motion that copies the shared parameters. -/
def ParamKind.Copies (k : ParamKind) (a : Act R P) (s : System R P) : Prop :=
  MotionReceives a s ∧ (k.shared s.sync).sendParams = true

/-- The parameters are among motion's own, or they wait in shared memory with the flag set. -/
def System.HasParams (k : ParamKind) (params : k.Params P) (s : System R P) : Prop :=
  (k.shared s.sync).sendParams = true ∧ (k.shared s.sync).params = params ∨
    (k.shared s.sync).sendParams = false ∧ (k.motion s.motion.blocks).params = params

variable [AddCommGroup R]

/-- One atomic step of the two processes, in which motion's modules only read the parameters. -/
def System.keepStep (a : Act R P) (s : System R P) : System R P := System.step a.keepParams s

variable (k : ParamKind)

/-! ## One step -/

/-- What motion's processing and publishing and vision's receiving and behaving do to the
parameters, in shared memory and in motion: nothing. -/
lemma ParamKind.step_eq_of_not {a : Act R P} {s : System R P} (hsend : ¬ k.Sends a s)
    (hreceive : ¬ MotionReceives a s) :
    k.shared (System.keepStep a s).sync = k.shared s.sync ∧
      k.motion (System.keepStep a s).motion.blocks = k.motion s.motion.blocks := by
  cases a with
  | motion process =>
    cases hm : s.motionAt with
    | receiveData => exact absurd hm hreceive
    | process =>
      simp only [System.keepStep, Act.keepParams, System.step, System.motionStep, hm, true_and]
      cases k <;> rfl
    | publishData =>
      simp only [System.keepStep, Act.keepParams, System.step, System.motionStep, hm, and_true]
      exact k.shared_motion_publishData _ _
  | vision behaviour =>
    cases hv : s.visionAt with
    | receiveData =>
      simp only [System.keepStep, Act.keepParams, System.step, System.visionStep, hv, and_true]
      exact k.shared_vision_receiveData _ _
    | behaviour =>
      simp only [System.keepStep, Act.keepParams, System.step, System.visionStep, hv, and_true]
    | publishData =>
      simp only [System.keepStep, Act.keepParams, System.step, System.visionStep, hv, and_true]
      cases ht : s.vision.isToolCore with
      | true => exact k.shared_vision_publishData_of_tool ht _
      | false =>
        have hflag : (k.vision s.vision.blocks).sendParams ≠ true :=
          fun hflag => hsend ⟨hv, ht, hflag⟩
        rw [k.shared_vision_publishData ht, ParamBlock.publish, if_neg hflag]

/-- A `publishData` with the flag set leaves vision's block in shared memory. -/
lemma ParamKind.shared_of_sends {a : Act R P} {s : System R P} (h : k.Sends a s) :
    k.shared (System.keepStep a s).sync = k.vision s.vision.blocks := by
  cases a with
  | motion process => exact absurd h id
  | vision behaviour =>
    obtain ⟨hv, ht, hflag⟩ := h
    simp only [System.keepStep, Act.keepParams, System.step, System.visionStep, hv]
    rw [k.shared_vision_publishData ht, ParamBlock.publish, if_pos hflag]

/-- A `receiveData` of motion. -/
lemma ParamKind.step_of_receives {a : Act R P} {s : System R P}
    (h : MotionReceives a s) :
    (k.motion (System.keepStep a s).motion.blocks,
      k.shared (System.keepStep a s).sync) =
        (k.motion s.motion.blocks).receive (k.shared s.sync) := by
  cases a with
  | vision behaviour => exact absurd h id
  | motion process =>
    have hm : s.motionAt = .receiveData := h
    simp only [System.keepStep, Act.keepParams, System.step, System.motionStep, hm]
    rw [k.motion_receiveData, k.shared_receiveData]

/-- Motion's `receiveData` leaves no flag set. -/
lemma ParamKind.flag_of_receives {a : Act R P} {s : System R P} (h : MotionReceives a s) :
    (k.shared (System.keepStep a s).sync).sendParams = false := by
  have hstep := congrArg Prod.snd (k.step_of_receives h)
  rw [ParamBlock.receive] at hstep
  split at hstep
  · exact congrArg ParamBlock.sendParams hstep
  next hno =>
    rw [congrArg ParamBlock.sendParams hstep]
    exact Bool.eq_false_iff.mpr hno

/-- Only vision's sending sets the flag. -/
lemma ParamKind.flag_step (a : Act R P) (s : System R P) (hsend : ¬ k.Sends a s)
    (h : (k.shared s.sync).sendParams = false) :
    (k.shared (System.keepStep a s).sync).sendParams = false := by
  by_cases hreceive : MotionReceives a s
  · exact k.flag_of_receives hreceive
  · rw [(k.step_eq_of_not hsend hreceive).1]
    exact h

omit [AddCommGroup R] in
/-- Vision sends a block with the flag set. -/
lemma ParamKind.flag_of_sends {a : Act R P} {s : System R P} (h : k.Sends a s) :
    (k.vision s.vision.blocks).sendParams = true := by
  cases a with
  | motion process => exact absurd h id
  | vision behaviour => exact h.2.2

/-- After a `publishData` with the flag set its parameters wait in shared memory. -/
lemma ParamKind.hasParams_of_sends {a : Act R P} {s : System R P} (h : k.Sends a s) :
    (System.keepStep a s).HasParams k (k.vision s.vision.blocks).params := by
  refine Or.inl ?_
  rw [k.shared_of_sends h]
  exact ⟨k.flag_of_sends h, rfl⟩

/-- Until vision sends again, the parameters wait in shared memory or are motion's. -/
lemma ParamKind.hasParams_step (params : k.Params P) (a : Act R P) (s : System R P)
    (hsend : ¬ k.Sends a s) (h : s.HasParams k params) :
    (System.keepStep a s).HasParams k params := by
  by_cases hreceive : MotionReceives a s
  · have hstep := k.step_of_receives hreceive
    rw [ParamBlock.receive] at hstep
    rcases h with ⟨hflag, hparams⟩ | ⟨hflag, hparams⟩
    · rw [if_pos hflag] at hstep
      obtain ⟨hmotion, hshared⟩ := Prod.mk.inj hstep
      refine Or.inr ⟨?_, ?_⟩
      · rw [hshared]
      · rw [hmotion]
        exact hparams
    · rw [if_neg (by rw [hflag]; exact Bool.false_ne_true)] at hstep
      obtain ⟨hmotion, hshared⟩ := Prod.mk.inj hstep
      refine Or.inr ⟨?_, ?_⟩
      · rw [hshared]
        exact hflag
      · rw [hmotion]
        exact hparams
  · obtain ⟨hshared, hmotion⟩ := k.step_eq_of_not hsend hreceive
    rw [System.HasParams, hshared, hmotion]
    exact h

/-- After motion's `receiveData` the parameters are motion's. -/
lemma ParamKind.params_of_receives {params : k.Params P} {a : Act R P} {s : System R P}
    (hreceive : MotionReceives a s) (h : s.HasParams k params) :
    (k.motion (System.keepStep a s).motion.blocks).params = params := by
  have hsend : ¬ k.Sends a s := by
    cases a with
    | motion process => exact id
    | vision behaviour => exact absurd hreceive id
  have hflag := k.flag_of_receives hreceive
  rcases k.hasParams_step params a s hsend h with ⟨hset, -⟩ | ⟨-, hparams⟩
  · rw [hflag] at hset
    exact absurd hset Bool.false_ne_true
  · exact hparams

/-! ## Whole runs -/

/-- The `publishData` of vision at place `i` reaches motion at place `j`: motion copies the shared
parameters there, and no other `publishData` has sent in between. -/
def ParamKind.Delivers (s : System R P) (acts : List (Act R P)) (i j : ℕ) : Prop :=
  i < j ∧ Happens System.keepStep k.Sends s acts i ∧ Happens System.keepStep k.Copies s acts j ∧
    ∀ m, i < m → m < j → ¬ Happens System.keepStep k.Sends s acts m

/-- The handshake is exact on a run. -/
structure ParamKind.HandshakeExact (s : System R P) (acts : List (Act R P)) : Prop where
  /-- After a `receiveData`, motion has the parameters of the last `publishData` that sent. -/
  latest : ∀ i j, i < j → Happens System.keepStep k.Sends s acts i →
    Happens System.keepStep MotionReceives s acts j →
    (∀ m, i < m → m < j → ¬ Happens System.keepStep k.Sends s acts m) →
    (k.motion (stateAt System.keepStep s acts (j + 1)).motion.blocks).params =
      (k.vision (stateAt System.keepStep s acts i).vision.blocks).params
  /-- Without such a `publishData` it has the parameters it began with. -/
  initial : ∀ j, Happens System.keepStep MotionReceives s acts j →
    (∀ m, m < j → ¬ Happens System.keepStep k.Sends s acts m) →
    (k.motion (stateAt System.keepStep s acts (j + 1)).motion.blocks).params =
      (k.motion s.motion.blocks).params
  /-- No `publishData` is copied twice. -/
  once : ∀ i j j', k.Delivers s acts i j → k.Delivers s acts i j' → j = j'
  /-- A `publishData` is copied by the next `receiveData` unless a later one replaces it. -/
  skipped : ∀ i j, i < j → Happens System.keepStep k.Sends s acts i →
    Happens System.keepStep MotionReceives s acts j →
    (∀ m, i < m → m < j → ¬ Happens System.keepStep MotionReceives s acts m) →
    k.Delivers s acts i j ∨ ∃ m, i < m ∧ m < j ∧ Happens System.keepStep k.Sends s acts m

section Run

variable {s : System R P} {acts : List (Act R P)} {k : ParamKind}

/-- After a `publishData` that sends, and until the next one, its parameters wait in shared memory
or are motion's. -/
lemma ParamKind.hasParams_between {i j : ℕ} (hij : i < j)
    (hsend : Happens System.keepStep k.Sends s acts i)
    (hno : ∀ m, i < m → m < j → ¬ Happens System.keepStep k.Sends s acts m) :
    (stateAt System.keepStep s acts j).HasParams k
      (k.vision (stateAt System.keepStep s acts i).vision.blocks).params := by
  obtain ⟨a, ha, hsends⟩ := hsend
  refine invariant_between (fun a s => k.hasParams_step _ a s) hij ?_ fun m hm => hno m hm
  rw [stateAt_succ ha]
  exact k.hasParams_of_sends hsends

/-- Once motion has received, there is nothing to copy until vision sends again. -/
lemma ParamKind.not_copies_between {j j' : ℕ} (hj : j < j')
    (hreceive : Happens System.keepStep MotionReceives s acts j)
    (hno : ∀ m, j < m → m < j' → ¬ Happens System.keepStep k.Sends s acts m) :
    ¬ Happens System.keepStep k.Copies s acts j' := by
  obtain ⟨a, ha, hreceives⟩ := hreceive
  have hflag : (k.shared (stateAt System.keepStep s acts j').sync).sendParams = false := by
    refine invariant_between (E := k.Sends)
      (I := fun t => (k.shared t.sync).sendParams = false) ?_ hj ?_ fun m hm => hno m hm
    · intro b t hsend hflag
      exact k.flag_step b t hsend hflag
    · rw [stateAt_succ ha]
      exact k.flag_of_receives hreceives
  rintro ⟨b, -, -, hset⟩
  rw [hflag] at hset
  exact Bool.false_ne_true hset

end Run

/-- **The handshake is exact**, for each of the three blocks, in every interleaving of the two
loops and for every choice of cycles in which vision sends: motion has the parameters of the last
`publishData` that sent after each of its `receiveData`s, copies none twice, and skips one only if
a later one has replaced it. -/
theorem sendParams_handshake (k : ParamKind) {s : System R P}
    (hstart : (k.shared s.sync).sendParams = false) (acts : List (Act R P)) :
    k.HandshakeExact s acts where
  latest := by
    intro i j hij hsend hreceive hno
    obtain ⟨b, hb, hreceives⟩ := hreceive
    rw [stateAt_succ hb]
    exact k.params_of_receives hreceives (k.hasParams_between hij hsend hno)
  initial := by
    intro j hreceive hno
    obtain ⟨b, hb, hreceives⟩ := hreceive
    rw [stateAt_succ hb]
    refine k.params_of_receives hreceives ?_
    refine invariant_between (fun a s => k.hasParams_step _ a s) (Nat.zero_le j) ?_
      fun m _ hm => hno m hm
    exact Or.inr ⟨hstart, rfl⟩
  once := by
    intro i j j' hj hj'
    obtain ⟨hij, -, hcopies, hno⟩ := hj
    obtain ⟨hij', -, hcopies', hno'⟩ := hj'
    have hreceive : Happens System.keepStep MotionReceives s acts j :=
      hcopies.imp fun _ h => ⟨h.1, h.2.1⟩
    have hreceive' : Happens System.keepStep MotionReceives s acts j' :=
      hcopies'.imp fun _ h => ⟨h.1, h.2.1⟩
    rcases Nat.lt_trichotomy j j' with hlt | heq | hgt
    · refine absurd hcopies' (k.not_copies_between hlt hreceive fun m hm => ?_)
      exact hno' m (hij.trans hm)
    · exact heq
    · refine absurd hcopies (k.not_copies_between hgt hreceive' fun m hm => ?_)
      exact hno m (hij'.trans hm)
  skipped := by
    intro i j hij hsend hreceive hnot
    by_cases hno : ∃ m, i < m ∧ m < j ∧ Happens System.keepStep k.Sends s acts m
    · exact Or.inr hno
    · left
      have hno : ∀ m, i < m → m < j → ¬ Happens System.keepStep k.Sends s acts m :=
        fun m him hmj hm => hno ⟨m, him, hmj, hm⟩
      refine ⟨hij, hsend, ?_, hno⟩
      obtain ⟨b, hb, hreceives⟩ := hreceive
      refine ⟨b, hb, hreceives, ?_⟩
      obtain ⟨a, ha, hsends⟩ := hsend
      refine invariant_between (E := fun a s => k.Sends a s ∨ MotionReceives a s)
        (I := fun t => (k.shared t.sync).sendParams = true) ?_ hij ?_ ?_
      · intro c t hc hflag
        obtain ⟨hsend, hreceive⟩ := not_or.mp hc
        rw [(k.step_eq_of_not hsend hreceive).1]
        exact hflag
      · rw [stateAt_succ ha, k.shared_of_sends hsends]
        exact k.flag_of_sends hsends
      · rintro m him hmj ⟨c, hc, hsend | hreceive⟩
        · exact hno m him hmj ⟨c, hc, hsend⟩
        · exact hnot m him hmj ⟨c, hc, hreceive⟩

/-- A behaviour that sends new parameters for kicks. -/
def sendKickParams (b : VisionBlocks ℤ Payloads.unit) : VisionBlocks ℤ Payloads.unit :=
  { b with visionKickParams := { b.visionKickParams with sendParams := true } }

/-- The handshake on a run in which vision sends twice before motion receives. -/
theorem sendParams_handshake_twice :
    ParamKind.kickParams.HandshakeExact (System.create .coreRobot)
      (.motion id :: (List.replicate 6 (.vision sendKickParams) ++
        List.replicate 4 (.motion id))) :=
  sendParams_handshake .kickParams rfl _

end NaoSoccer
