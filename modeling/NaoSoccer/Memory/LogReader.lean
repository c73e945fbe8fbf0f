import NaoSoccer.Memory.LogWriter

/-!
# Reading logs

A `LogReader` finds the record of a frame by its offset, takes it apart and fills a new memory frame
with the blocks whose names the record's header lists.  The stream and the main buffer are
`mutable`: every read leaves them changed for the next one.
-/

namespace NaoSoccer

/-- `MAX_EXPECTED_MODULES_PER_MEMORY` -/
def maxExpectedModulesPerMemory : ℕ := 40

/-- A reader of a log file. -/
structure LogReader where
  directory : List UInt8
  mdata : LogMetadata
  logFile : InputStream
  mainBuffer : StreamBuffer
  enabledBlocks : List BlockName

namespace LogReader

variable {Content : BlockClass → Type} (codec : BlockCodec Content) (fresh : ℕ → UInt8)

/-- The constructor; it throws if there is no metadata to load. -/
def openLog (directory : LogDirectory) : Option LogReader := do
  let saved ← directory.metadata
  let mdata ← saved.load
  some ⟨directory.path, mdata, .ofBytes directory.framesLog, .empty, []⟩

/-- What the reader tells a block of a frame. -/
def context (lr : LogReader) (frame : ℤ) : LogContext := ⟨false, frame, lr.directory⟩

/-- The name in a buffer, as a C string. -/
def headerName (buffer : StreamBuffer) : Except Fault BlockName :=
  inBounds (ByteMemory.cString buffer.buffer)

/-- Buffers with a zero byte hold the names up to it. -/
lemma mapM_headerName {buffers : List StreamBuffer} (h : ∀ sb ∈ buffers, 0 ∈ sb.buffer) :
    buffers.mapM headerName = .ok (buffers.map fun sb => sb.buffer.takeWhile (· ≠ 0)) := by
  induction buffers with
  | nil => rfl
  | cons sb buffers ih =>
    have hname : headerName sb = .ok (sb.buffer.takeWhile (· ≠ 0)) := by
      rw [headerName, ByteMemory.cString, if_pos (h sb (by simp)), inBounds]
    rw [List.mapM_cons, hname, Outcome.ok_bind, ih fun other hother => h other (by simp [hother])]
    rfl

/-- `readMemoryHeader`: the names of the blocks, or nothing if there are too many. -/
def readMemoryHeader (buffer : StreamBuffer) : Except Fault (Option (List BlockName)) := do
  let blockNames ← StreamBuffer.separate fresh buffer []
  if blockNames.length > maxExpectedModulesPerMemory then .ok none
  else do
    let names ← blockNames.mapM headerName
    .ok (some names)

/-- The block of a name, after it has been added if there was none. -/
def blockToRead (memory : MemoryFrame Content) (name : BlockName)
    (block : Option (MemoryBlock Content)) :
    Except Fault (MemoryFrame Content × Option (MemoryBlock Content)) :=
  match block with
  | some block => .ok (memory, some block)
  | none =>
    match memory.addBlockByName codec.new name with
    | (memory, false) => .ok (memory, none)
    | (memory, true) => do
      let block ← memory.getBlockPtrByName name
      match block with
      | none => .error .assertion
      | some block => .ok (memory, some block)

/-- One turn of the loop of `readMemory`: the block of the name is filled from its buffer. -/
def readBlock (lr : LogReader) (frame : ℤ) (memory : MemoryFrame Content) (name : BlockName)
    (buffer : StreamBuffer) : Except Fault (MemoryFrame Content) :=
  if validBlock lr.enabledBlocks name then do
    let found ← memory.getBlockPtrByName name
    match h : blockClass name with
    | none => .ok memory
    | some cls =>
      if cls.isSerializable then do
        let (memory, block) ← blockToRead codec memory name found
        match block with
        | none => .ok memory
        | some block => do
          let content ← block.staticCast cls
          .ok (memory.setBlock name ⟨cls, true, block.owner,
            codec.deserialize cls (lr.context frame) buffer.buffer content⟩ h)
      else .ok memory
  else .ok memory

/-- The loop of `readMemory`: names and buffers go together. -/
def readBlocks (lr : LogReader) (frame : ℤ) (memory : MemoryFrame Content) :
    List BlockName → List StreamBuffer → Except Fault (MemoryFrame Content)
  | _, [] => .ok memory
  | [], _ :: _ => .error .outOfBounds
  | name :: names, buffer :: buffers => do
    let memory ← lr.readBlock codec frame memory name buffer
    lr.readBlocks frame memory names buffers

/-- `readMemory`, with the answer whether the frame could be read. -/
def readMemory (lr : LogReader) (memory : MemoryFrame Content) (frame : ℤ) :
    Except Fault (MemoryFrame Content × Bool) := do
  let buffers ← StreamBuffer.separate fresh lr.mainBuffer []
  match buffers with
  | [] => .error .outOfBounds
  | hbuffer :: buffers => do
    let header ← readMemoryHeader fresh hbuffer
    match header with
    | none => .ok (memory, false)
    | some [] => .ok (memory, false)
    | some (name :: names) => do
      let memory ← lr.readBlocks codec frame memory (name :: names) buffers
      .ok (memory, true)

/-- `readFrame`: the frame is an `int`, which is turned into a `size_t` to find the offset. -/
def readFrame (lr : LogReader) (frame : ℤ) : Except Fault (MemoryFrame Content × LogReader) := do
  let position ← inBounds lr.mdata.offsets[(frame % 2 ^ 64).toNat]?
  let logFile := lr.logFile.seekg position
  let (mainBuffer, logFile) := lr.mainBuffer.readStream fresh logFile
  let lr := { lr with mainBuffer := mainBuffer, logFile := logFile }
  let (memory, _) ← lr.readMemory codec fresh (.empty .toolMem) frame
  .ok (memory, lr)

/-- Frames are read one after the other, by their indices as `int`s. -/
def readFrames (lr : LogReader) : List ℕ → Except Fault LogReader
  | [] => .ok lr
  | frame :: frames => do
    let (_, lr) ← lr.readFrame codec fresh ((frame : ℤ).bmod (2 ^ 32))
    lr.readFrames frames

end LogReader

end NaoSoccer
