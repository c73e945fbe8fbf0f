import NaoSoccer.Memory.StreamBuffer
import Std.Data.TreeMap.Lemmas
import Mathlib.Data.List.Perm.Subperm

/-!
# Memory frames

A `MemoryFrame` is a map from names to memory blocks.  Which class the block of a name has is fixed
by a table, from which the build generates the code that adds a block by its name and the code that
calls a method of a block by its name.  A class takes part in logging if its header says
`SCHEMA_METHODS`; for a class with `NO_SCHEMA`, `is_serializable` is false.

What a block holds is a parameter `Content` of the model.  Private and shared memory keep their
blocks in the same kind of map, so the frame does not say which of the two it is in.
-/

namespace NaoSoccer

/-! ## The table of blocks -/

/-- The characters of a `std::string`. -/
abbrev BlockName := List UInt8

/-- A name as the source spells it. -/
def blockName (s : String) : BlockName := s.toList.map fun c => UInt8.ofNat c.toNat

/-- The classes of memory blocks. -/
inductive BlockClass
  | alWalkParam | audioProcessing | behavior | behaviorParam | bodyModel | calibration | camera
  | delayedLocalization | frameInfo | gameState | graphable | image | joint | jointCommand
  | kickEngine | kickModule | kickParam | kickRequest | led | localization | odometry | opponent
  | processedSonar | robotInfo | robotState | robotVision | sensor | sensorCalibration
  | simEffector | simImage | simTruthData | speech | teamPackets | walkEngine | walkInfo
  | walkParam | walkRequest | walkResponse | worldObject
  deriving DecidableEq, Repr

/-- `is_serializable`: the class has `SCHEMA_METHODS`, not `NO_SCHEMA`. -/
def BlockClass.isSerializable : BlockClass → Bool
  | .alWalkParam | .behavior | .behaviorParam | .delayedLocalization | .graphable | .kickEngine
  | .kickModule | .kickParam | .kickRequest | .opponent | .simEffector | .simImage
  | .simTruthData | .speech | .walkEngine | .walkInfo | .walkParam | .walkResponse => false
  | .audioProcessing | .bodyModel | .calibration | .camera | .frameInfo | .gameState | .image
  | .joint | .jointCommand | .led | .localization | .odometry | .processedSonar | .robotInfo
  | .robotState | .robotVision | .sensor | .sensorCalibration | .teamPackets | .walkRequest
  | .worldObject => true

/-- The table that the block operations are generated from. -/
def blocks : List (BlockName × BlockClass) :=
  [("frame_info", .frameInfo), ("vision_frame_info", .frameInfo),
    ("raw_vision_frame_info", .frameInfo), ("body_model", .bodyModel),
    ("graphable", .graphable), ("raw_joint_angles", .joint),
    ("processed_joint_angles", .joint), ("raw_joint_commands", .jointCommand),
    ("processed_joint_commands", .jointCommand), ("led_commands", .led),
    ("raw_sensors", .sensor), ("processed_sensors", .sensor),
    ("sensor_calibration", .sensorCalibration), ("sim_effectors", .simEffector),
    ("sim_image", .simImage), ("sim_world_objects", .worldObject),
    ("sim_truth_data", .simTruthData), ("walk_engine", .walkEngine),
    ("kick_params", .kickParam), ("walk_param", .walkParam), ("al_walk_param", .alWalkParam),
    ("walk_request", .walkRequest), ("walk_response", .walkResponse),
    ("kick_request", .kickRequest), ("kick_engine", .kickEngine),
    ("kick_module", .kickModule), ("odometry", .odometry),
    ("processed_sonar", .processedSonar), ("walk_info", .walkInfo),
    ("vision_odometry", .odometry), ("raw_camera_info", .camera), ("camera_info", .camera),
    ("vision_body_model", .bodyModel), ("vision_sensors", .sensor),
    ("vision_joint_angles", .joint), ("vision_kick_request", .kickRequest),
    ("vision_walk_request", .walkRequest), ("vision_walk_response", .walkResponse),
    ("vision_joint_commands", .jointCommand), ("world_objects", .worldObject),
    ("robot_vision", .robotVision), ("raw_image", .image),
    ("vision_processed_sonar", .processedSonar), ("vision_kick_params", .kickParam),
    ("vision_walk_param", .walkParam), ("vision_al_walk_param", .alWalkParam),
    ("vision_walk_info", .walkInfo), ("behavior", .behavior),
    ("behavior_params", .behaviorParam), ("localization", .localization),
    ("delayed_localization", .delayedLocalization), ("opponents", .opponent),
    ("team_packets", .teamPackets), ("robot_state", .robotState), ("game_state", .gameState),
    ("robot_info", .robotInfo), ("speech", .speech), ("sync_body_model", .bodyModel),
    ("sync_joint_angles", .joint), ("sync_kick_request", .kickRequest),
    ("sync_odometry", .odometry), ("sync_sensors", .sensor),
    ("sync_walk_request", .walkRequest), ("sync_walk_response", .walkResponse),
    ("sync_joint_commands", .jointCommand), ("sync_processed_sonar", .processedSonar),
    ("sync_kick_params", .kickParam), ("sync_walk_param", .walkParam),
    ("sync_al_walk_param", .alWalkParam), ("sync_walk_info", .walkInfo),
    ("audio_processing", .audioProcessing), ("calibration", .calibration)].map
    fun entry : String × BlockClass => (blockName entry.1, entry.2)

/-- The class that the generated code takes the block of a name to be. -/
def blockClass (name : BlockName) : Option BlockClass := blocks.lookup name

/-- Names with a class are in the table. -/
lemma mem_blocks_of_blockClass {name : BlockName} {cls : BlockClass}
    (h : blockClass name = some cls) : (name, cls) ∈ blocks := by
  obtain ⟨front, back, hsplit, -⟩ := List.lookup_eq_some_iff.mp h
  rw [hsplit]
  simp

/-- No name of the table has a zero byte, and none is long. -/
lemma blocks_names : ∀ entry ∈ blocks, 0 ∉ entry.1 ∧ entry.1.length ≤ 30 := by
  decide +kernel

/-- There are forty-two names of serializable blocks and thirty others. -/
lemma length_filter_blocks :
    (blocks.filter fun entry => entry.2.isSerializable).length = 42 ∧
      (blocks.filter fun entry => !entry.2.isSerializable).length = 30 := by
  decide +kernel

/-! ## Blocks and their owners -/

/-- Who a block, or a frame, belongs to. -/
inductive MemoryOwner
  | unknown | motion | vision | interface | imageCapture | sync | toolMem | shared
  deriving DecidableEq, Repr

/-- A block: its class, what `MemoryBlock` says about it, and what it holds. -/
structure MemoryBlock (Content : BlockClass → Type) where
  cls : BlockClass
  logBlock : Bool
  owner : MemoryOwner
  content : Content cls

namespace MemoryBlock

variable {Content : BlockClass → Type}

/-- `checkOwner`, with the answer where it does not exit. -/
def checkOwner (block : MemoryBlock Content) (expectOwner : MemoryOwner) : Bool :=
  block.owner = expectOwner ∨ expectOwner = .toolMem ∨
    (block.owner = .interface ∧ expectOwner = .motion) ∨
    (block.owner = .imageCapture ∧ expectOwner = .vision) ∨ block.owner = .shared

/-- `static_cast` of a block to its class; a cast to any other class is not defined. -/
def staticCast (block : MemoryBlock Content) (cls : BlockClass) : Except Fault (Content cls) :=
  if h : block.cls = cls then .ok (h ▸ block.content) else .error .wrongClass

/-- A cast to the class of the block gives what the block holds. -/
@[simp] lemma staticCast_self (block : MemoryBlock Content) :
    block.staticCast block.cls = .ok block.content := by
  simp [staticCast]

end MemoryBlock

/-! ## Frames -/

/-- A map from names to blocks.  Blocks are only added by their names, so every block has the class
that the table gives its name. -/
structure MemoryFrame (Content : BlockClass → Type) where
  owner : MemoryOwner
  blocks : Std.TreeMap BlockName (MemoryBlock Content)
  /-- Every block has the class of its name. -/
  blockClass_eq : ∀ name block, blocks[name]? = some block → blockClass name = some block.cls

namespace MemoryFrame

variable {Content : BlockClass → Type}

/-- A frame without blocks. -/
def empty (owner : MemoryOwner) : MemoryFrame Content := ⟨owner, ∅, by simp⟩

/-- There is no block in a new frame. -/
@[simp] lemma blocks_empty (owner : MemoryOwner) (name : BlockName) :
    (empty owner : MemoryFrame Content).blocks[name]? = none := by
  simp [empty]

/-- `getBlockNames`: the names, in the order of the map, of the blocks that the owner of the frame
may see and, if asked for, that are to be logged. -/
def getBlockNames (memory : MemoryFrame Content) (onlyLog : Bool) : List BlockName :=
  (memory.blocks.toList.filter fun entry =>
    (!onlyLog || entry.2.logBlock) && entry.2.checkOwner memory.owner).map Prod.fst

/-- `getBlockPtrByName`: the block of a name; the program exits if it belongs to somebody else. -/
def getBlockPtrByName (memory : MemoryFrame Content) (name : BlockName) :
    Except Fault (Option (MemoryBlock Content)) :=
  match memory.blocks[name]? with
  | none => .ok none
  | some block => if block.checkOwner memory.owner then .ok (some block) else .error .exit

/-- The block of a name is replaced by a block of the right class. -/
def setBlock (memory : MemoryFrame Content) (name : BlockName) (block : MemoryBlock Content)
    (h : blockClass name = some block.cls) : MemoryFrame Content where
  owner := memory.owner
  blocks := memory.blocks.insert name block
  blockClass_eq := by
    intro name' block' hblock'
    rw [Std.TreeMap.getElem?_insert] at hblock'
    split at hblock'
    · rename_i hname
      obtain rfl := Std.LawfulEqCmp.eq_of_compare hname
      obtain rfl := Option.some.inj hblock'
      exact h
    · exact memory.blockClass_eq name' block' hblock'

/-- The block that was set is there. -/
@[simp] lemma setBlock_self (memory : MemoryFrame Content) {name : BlockName}
    {block : MemoryBlock Content} (h : blockClass name = some block.cls) :
    (memory.setBlock name block h).blocks[name]? = some block :=
  Std.TreeMap.getElem?_insert_self

/-- All other blocks stay. -/
lemma setBlock_of_ne (memory : MemoryFrame Content) {name name' : BlockName}
    {block : MemoryBlock Content} (h : blockClass name = some block.cls) (hne : name' ≠ name) :
    (memory.setBlock name block h).blocks[name']? = memory.blocks[name']? := by
  have hcompare : ¬ compare name name' = .eq :=
    fun heq => hne (Std.LawfulEqCmp.eq_of_compare heq).symm
  simp only [setBlock, Std.TreeMap.getElem?_insert, if_neg hcompare]

/-- Setting a block does not change the owner of the frame. -/
@[simp] lemma owner_setBlock (memory : MemoryFrame Content) {name : BlockName}
    {block : MemoryBlock Content} (h : blockClass name = some block.cls) :
    (memory.setBlock name block h).owner = memory.owner := rfl

/-- `addBlockByName`: a new block of the class of the name, owned by the owner of the frame.
Nothing is added, and the answer is false, if the name is not in the table or has a block. -/
def addBlockByName (new : (cls : BlockClass) → Content cls) (memory : MemoryFrame Content)
    (name : BlockName) : MemoryFrame Content × Bool :=
  match h : blockClass name with
  | none => (memory, false)
  | some cls =>
    if name ∈ memory.blocks then (memory, false)
    else (memory.setBlock name ⟨cls, false, memory.owner, new cls⟩ h, true)

/-- `setBlockLogging`: the block of a name is marked as one to log, or not to log. -/
def setBlockLogging (memory : MemoryFrame Content) (name : BlockName) (logBlock : Bool) :
    Except Fault (MemoryFrame Content) :=
  match h : memory.blocks[name]? with
  | none => .ok memory
  | some block =>
    if block.checkOwner memory.owner then
      .ok (memory.setBlock name { block with logBlock := logBlock }
        (memory.blockClass_eq name block h))
    else .error .exit

/-- A name of the table that has no block yet gets one. -/
lemma addBlockByName_eq (new : (cls : BlockClass) → Content cls) (memory : MemoryFrame Content)
    {name : BlockName} {cls : BlockClass} (hcls : blockClass name = some cls)
    (hnone : memory.blocks[name]? = none) :
    memory.addBlockByName new name =
      (memory.setBlock name ⟨cls, false, memory.owner, new cls⟩ hcls, true) := by
  have hmem : name ∉ memory.blocks := by
    rw [← Std.TreeMap.isSome_getElem?_iff_mem, hnone]
    exact Bool.false_ne_true
  unfold addBlockByName
  split
  · rename_i hnone'
    rw [hcls] at hnone'
    exact nomatch hnone'
  · rename_i cls' hcls'
    obtain rfl := Option.some.inj (hcls.symm.trans hcls')
    rw [if_neg hmem]

/-- The names that `getBlockNames` lists. -/
lemma mem_getBlockNames {memory : MemoryFrame Content} {onlyLog : Bool} {name : BlockName} :
    name ∈ memory.getBlockNames onlyLog ↔ ∃ block, memory.blocks[name]? = some block ∧
      (onlyLog = true → block.logBlock = true) ∧ block.checkOwner memory.owner = true := by
  simp only [getBlockNames, List.mem_map, List.mem_filter, Prod.exists, exists_and_right,
    exists_eq_right, Std.TreeMap.mem_toList_iff_getElem?_eq_some, Bool.and_eq_true,
    Bool.or_eq_true, Bool.not_eq_true']
  refine exists_congr fun block => and_congr_right fun _ => and_congr_left fun _ => ?_
  cases onlyLog <;> simp

/-- No name is listed twice. -/
lemma nodup_getBlockNames (memory : MemoryFrame Content) (onlyLog : Bool) :
    (memory.getBlockNames onlyLog).Nodup := by
  have hkeys : (memory.blocks.toList.map Prod.fst).Nodup := by
    rw [Std.TreeMap.map_fst_toList_eq_keys]
    exact Std.TreeMap.nodup_keys
  exact hkeys.sublist (List.filter_sublist.map _)

/-- The owner of the frame reaches every block that is listed. -/
lemma getBlockPtrByName_of_mem {memory : MemoryFrame Content} {onlyLog : Bool}
    {name : BlockName} (h : name ∈ memory.getBlockNames onlyLog) :
    ∃ block, memory.blocks[name]? = some block ∧
      memory.getBlockPtrByName name = .ok (some block) := by
  obtain ⟨block, hblock, -, howner⟩ := mem_getBlockNames.mp h
  exact ⟨block, hblock, by simp [getBlockPtrByName, hblock, howner]⟩

/-- **More than thirty names include one of a serializable block.** -/
theorem exists_serializable_of_length {memory : MemoryFrame Content} {names : List BlockName}
    (hnodup : names.Nodup) (hmem : ∀ name ∈ names, ∃ block, memory.blocks[name]? = some block)
    (hlen : 30 < names.length) :
    ∃ name ∈ names, ∃ block, memory.blocks[name]? = some block ∧
      block.cls.isSerializable = true := by
  by_contra hnone
  have hsub : names ⊆ (NaoSoccer.blocks.filter fun entry =>
      !entry.2.isSerializable).map Prod.fst := by
    intro name hname
    obtain ⟨block, hblock⟩ := hmem name hname
    have hplain : block.cls.isSerializable = false := by
      by_contra hserial
      exact hnone ⟨name, hname, block, hblock, by simpa using hserial⟩
    have htable := mem_blocks_of_blockClass (memory.blockClass_eq name block hblock)
    exact List.mem_map.mpr ⟨_, List.mem_filter.mpr ⟨htable, by simp [hplain]⟩, rfl⟩
  have hle := (hnodup.subperm hsub).length_le
  rw [List.length_map, length_filter_blocks.2] at hle
  omega

/-- A frame lists no more names than the table has. -/
lemma length_names_le {memory : MemoryFrame Content} {names : List BlockName}
    (hnodup : names.Nodup) (hmem : ∀ name ∈ names, ∃ block, memory.blocks[name]? = some block) :
    names.length ≤ 72 := by
  have hsub : names ⊆ NaoSoccer.blocks.map Prod.fst := by
    intro name hname
    obtain ⟨block, hblock⟩ := hmem name hname
    have htable := mem_blocks_of_blockClass (memory.blockClass_eq name block hblock)
    exact List.mem_map.mpr ⟨_, htable, rfl⟩
  have hle := (hnodup.subperm hsub).length_le
  simpa [NaoSoccer.blocks] using hle

end MemoryFrame

end NaoSoccer
