import NaoSoccer.Memory.MemoryFrame

/-!
# Writing logs

A `LogWriter` appends one record to the log file for every memory frame it is given: a stream buffer
in which the names of the logged blocks and their flatbuffers are packed, with its size in front.
Where each record starts is kept in the metadata, which `close` saves next to the log.

A disk that never fills up and a stream that never fails to write are taken for granted; positions
in a file are not bounded.  How the classes serialize themselves is a parameter.
-/

namespace NaoSoccer

/-! ## What a log consists of -/

/-- `LogMetadata`; `frames` is an `unsigned int`, the offsets are `uint64_t`. -/
structure LogMetadata where
  frames : ℕ
  offsets : List ℕ
  deriving DecidableEq, Repr

/-- What `loadFromFile` makes of saved metadata: it reads every offset into an `int64_t` and fails
if one is too large. -/
def LogMetadata.load (saved : LogMetadata) : Option LogMetadata :=
  if ∀ offset ∈ saved.offsets, offset < 2 ^ 63 then some saved else none

/-- The directory of a log, with the contents of `frames.log` and `metadata.yaml`. -/
structure LogDirectory where
  path : List UInt8
  framesLog : List UInt8
  metadata : Option LogMetadata

/-- What a block is told about its surroundings while it is serialized: `buffer_logging_`,
`frame_id_` and `directory_`. -/
structure LogContext where
  bufferLogging : Bool
  frameId : ℤ
  directory : List UInt8

/-- The constructors of the block classes and their flatbuffer methods.  Files that a block keeps
next to the log, as `ImageBlock` does, are a matter between its two methods. -/
structure BlockCodec (Content : BlockClass → Type) where
  new : (cls : BlockClass) → Content cls
  serialize : (cls : BlockClass) → LogContext → Content cls → List UInt8
  deserialize : (cls : BlockClass) → LogContext → List UInt8 → Content cls → Content cls

/-- What the log code relies on. -/
structure BlockCodec.Lawful {Content : BlockClass → Type} (codec : BlockCodec Content) : Prop where
  /-- A new block that reads what a block has written holds the same. -/
  deserialize_serialize : ∀ cls context content, cls.isSerializable = true →
    codec.deserialize cls context (codec.serialize cls context content) (codec.new cls) = content
  /-- A flatbuffer takes less than `2 ^ 31` bytes. -/
  length_serialize : ∀ cls context content, cls.isSerializable = true →
    (codec.serialize cls context content).length < 2 ^ 31

/-- `LogAccessor::valid`: all blocks are enabled unless some are named. -/
def validBlock (enabledBlocks : List BlockName) (name : BlockName) : Bool :=
  enabledBlocks.isEmpty || enabledBlocks.contains name

/-! ## The writer -/

/-- A log writer with the directory it writes to. -/
structure LogWriter where
  directory : LogDirectory
  /-- Whether `log_file_` is open. -/
  isOpen : Bool
  frameId : ℤ
  usingBuffers : Bool
  useAllBlocks : Bool
  mainBuffer : StreamBuffer
  mdata : LogMetadata
  enabledBlocks : List BlockName

namespace LogWriter

variable {Content : BlockClass → Type} (codec : BlockCodec Content) (fresh : ℕ → UInt8)

/-- `close`: the metadata is saved. -/
def close (lw : LogWriter) : LogWriter :=
  if lw.isOpen then
    { lw with
      isOpen := false
      directory := { lw.directory with metadata := some lw.mdata }
      frameId := 0 }
  else { lw with frameId := 0 }

/-- `open`: the log file of the directory is emptied and opened. -/
def openLog (lw : LogWriter) (directory : LogDirectory) : LogWriter :=
  { lw.close with
    mdata := ⟨0, []⟩
    directory := { directory with framesLog := [] }
    isOpen := true }

/-- `tellp`: the end of the log file, or `-1` as a `uint64_t`. -/
def tellp (lw : LogWriter) : ℕ :=
  if lw.isOpen then lw.directory.framesLog.length else 2 ^ 64 - 1

/-- What the writer tells a block that it serializes. -/
def context (lw : LogWriter) : LogContext := ⟨lw.usingBuffers, lw.frameId, lw.directory.path⟩

/-- The loop of `writeMemoryHeader`: one buffer for every enabled name, with a final zero. -/
def nameBuffers (lw : LogWriter) : List BlockName → Except Fault (List StreamBuffer)
  | [] => .ok []
  | name :: names =>
    if validBlock lw.enabledBlocks name then do
      let bbuffer ← StreamBuffer.empty.read fresh (name ++ [0]) (name.length + 1)
      let buffers ← lw.nameBuffers names
      .ok (bbuffer :: buffers)
    else lw.nameBuffers names

/-- `writeMemoryHeader`. -/
def writeMemoryHeader (lw : LogWriter) (names : List BlockName) (buffer : StreamBuffer) :
    Except Fault StreamBuffer := do
  let buffers ← lw.nameBuffers fresh names
  StreamBuffer.combineVector fresh buffers buffer

/-- The buffer for the block of a name: its flatbuffer, or nothing if its class has none. -/
def blockBuffer (lw : LogWriter) (name : BlockName) (block : Option (MemoryBlock Content)) :
    Except Fault StreamBuffer :=
  match blockClass name with
  | none => .ok .empty
  | some cls =>
    if cls.isSerializable then
      match block with
      | none => .error .outOfBounds
      | some block => do
        let content ← block.staticCast cls
        .ok (.ofBytes (codec.serialize cls lw.context content))
    else .ok .empty

/-- The loop of `writeMemory` over the blocks. -/
def blockBuffers (lw : LogWriter) (memory : MemoryFrame Content) :
    List BlockName → Except Fault (List StreamBuffer)
  | [] => .ok []
  | name :: names =>
    if validBlock lw.enabledBlocks name then do
      let block ← memory.getBlockPtrByName name
      let buffer ← lw.blockBuffer codec name block
      let buffers ← lw.blockBuffers memory names
      .ok (buffer :: buffers)
    else lw.blockBuffers memory names

/-- `write`, and the metadata every hundred frames. -/
def write (lw : LogWriter) : LogWriter :=
  { lw with
    directory :=
      { lw.directory with
        framesLog := lw.directory.framesLog ++ lw.mainBuffer.write
        metadata :=
          if lw.mdata.frames % 100 = 0 then some lw.mdata else lw.directory.metadata } }

/-- `writeMemory`. -/
def writeMemory (lw : LogWriter) (memory : MemoryFrame Content) : Except Fault LogWriter :=
  if lw.usingBuffers || lw.isOpen then do
    let mdata := ⟨(lw.mdata.frames + 1) % 2 ^ 32, lw.mdata.offsets ++ [lw.tellp]⟩
    let names := memory.getBlockNames (!lw.useAllBlocks)
    let hbuffer ← lw.writeMemoryHeader fresh names .empty
    let buffers ← lw.blockBuffers codec memory names
    let mainBuffer ← StreamBuffer.combineVector fresh (hbuffer :: buffers) lw.mainBuffer
    let lw := { lw with mdata := mdata, mainBuffer := mainBuffer }
    let lw := if lw.usingBuffers then lw else lw.write
    .ok { lw with frameId := (lw.frameId + 1).bmod (2 ^ 32) }
  else .ok lw

/-- Frames are written one after the other. -/
def writeFrames (lw : LogWriter) : List (MemoryFrame Content) → Except Fault LogWriter
  | [] => .ok lw
  | memory :: frames => do
    let lw ← lw.writeMemory codec fresh memory
    lw.writeFrames frames

end LogWriter

end NaoSoccer
