import NaoSoccer.Memory.BufferSeparation
import NaoSoccer.Memory.LogReader
import NaoSoccer.Memory.LogRecords

/-!
# A log read back is the log that was written

Reading the record of a frame restores the logged blocks of the frame, as long as there are no more
of them than the reader expects; a record with more names is given up, and the frame that is
returned is empty.
-/

namespace NaoSoccer

open StreamBuffer LogWriter

variable {Content : BlockClass → Type} {codec : BlockCodec Content} (fresh : ℕ → UInt8)

namespace LogReader

/-! ## Reading one block -/

/-- A reader without enabled blocks reads all blocks. -/
lemma validBlock_nil (name : BlockName) : validBlock [] name = true := rfl

/-- A block that is not there yet is added. -/
lemma blockToRead_eq (codec : BlockCodec Content) {memory : MemoryFrame Content}
    (howner : memory.owner = .toolMem) {name : BlockName} {cls : BlockClass}
    (hcls : blockClass name = some cls) (hnone : memory.blocks[name]? = none) :
    blockToRead codec memory name none =
      .ok (memory.setBlock name ⟨cls, false, .toolMem, codec.new cls⟩ hcls,
        some ⟨cls, false, .toolMem, codec.new cls⟩) := by
  have hadd := memory.addBlockByName_eq codec.new hcls hnone
  rw [howner] at hadd
  have hptr : (memory.setBlock name ⟨cls, false, .toolMem, codec.new cls⟩ hcls).getBlockPtrByName
      name = .ok (some ⟨cls, false, .toolMem, codec.new cls⟩) := by
    simp only [MemoryFrame.getBlockPtrByName, MemoryFrame.setBlock_self,
      MemoryFrame.owner_setBlock, howner, MemoryBlock.checkOwner, true_or, decide_true, if_true]
  simp only [blockToRead, hadd, hptr, Outcome.ok_bind]

/-- A block that is not there yet is filled from its buffer if its class is serializable; all other
blocks stay. -/
lemma readBlock_eq (codec : BlockCodec Content) {lr : LogReader}
    (henabled : lr.enabledBlocks = []) (frame : ℤ)
    {memory : MemoryFrame Content} (howner : memory.owner = .toolMem) {name : BlockName}
    (hnone : memory.blocks[name]? = none) {cls : BlockClass} (hcls : blockClass name = some cls)
    (buffer : StreamBuffer) :
    ∃ memory', lr.readBlock codec frame memory name buffer = .ok memory' ∧
      memory'.owner = .toolMem ∧
      (∀ other, other ≠ name → memory'.blocks[other]? = memory.blocks[other]?) ∧
      (cls.isSerializable = true → memory'.blocks[name]? = some ⟨cls, true, .toolMem,
        codec.deserialize cls (lr.context frame) buffer.buffer (codec.new cls)⟩) := by
  have hfound : memory.getBlockPtrByName name = .ok none := by
    rw [MemoryFrame.getBlockPtrByName, hnone]
  have hread := blockToRead_eq codec howner hcls hnone
  unfold readBlock
  rw [henabled, if_pos (validBlock_nil name), hfound, Outcome.ok_bind]
  split
  · rename_i hnone'
    rw [hcls] at hnone'
    exact absurd hnone' (Option.some_ne_none _)
  · rename_i cls' hcls'
    obtain rfl := Option.some.inj (hcls.symm.trans hcls')
    by_cases hserial : cls.isSerializable = true
    · have hcast : MemoryBlock.staticCast ⟨cls, false, .toolMem, codec.new cls⟩ cls =
          .ok (codec.new cls) := MemoryBlock.staticCast_self _
      refine ⟨(memory.setBlock name ⟨cls, false, .toolMem, codec.new cls⟩ hcls).setBlock name
        ⟨cls, true, .toolMem,
          codec.deserialize cls (lr.context frame) buffer.buffer (codec.new cls)⟩ hcls,
        ?_, howner, fun other hne => ?_, fun _ => ?_⟩
      · simp only [hserial, if_true, hread, Outcome.ok_bind, hcast]
      · rw [MemoryFrame.setBlock_of_ne _ _ hne, MemoryFrame.setBlock_of_ne _ _ hne]
      · exact MemoryFrame.setBlock_self _ _
    · exact ⟨memory, by rw [if_neg hserial], howner, fun _ _ => rfl, fun h => absurd h hserial⟩

/-! ## Reading one record -/

/-- Blocks that are not there yet are filled from their buffers, each under its own name. -/
lemma readBlocks_eq (codec : BlockCodec Content) {lr : LogReader}
    (henabled : lr.enabledBlocks = []) (frame : ℤ)
    {memory : MemoryFrame Content} (howner : memory.owner = .toolMem)
    (data : BlockName → List UInt8) {names : List BlockName} (hnodup : names.Nodup)
    (hcls : ∀ name ∈ names, ∃ cls, blockClass name = some cls)
    (hnone : ∀ name ∈ names, memory.blocks[name]? = none) :
    ∃ memory', lr.readBlocks codec frame memory names (names.map fun name => ofBytes (data name)) =
        .ok memory' ∧
      (∀ other, other ∉ names → memory'.blocks[other]? = memory.blocks[other]?) ∧
      ∀ name ∈ names, ∀ cls, blockClass name = some cls → cls.isSerializable = true →
        memory'.blocks[name]? = some ⟨cls, true, .toolMem,
          codec.deserialize cls (lr.context frame) (data name) (codec.new cls)⟩ := by
  induction names generalizing memory with
  | nil => exact ⟨memory, rfl, fun _ _ => rfl, fun _ hname => absurd hname (by simp)⟩
  | cons name names ih =>
    obtain ⟨hnotMem, hnodup⟩ := List.nodup_cons.mp hnodup
    obtain ⟨cls, hclsName⟩ := hcls name (by simp)
    obtain ⟨next, hnext, hownerNext, hothers, hfilled⟩ :=
      readBlock_eq codec henabled frame howner (hnone name (by simp)) hclsName
        (ofBytes (data name))
    have hnoneNext : ∀ other ∈ names, next.blocks[other]? = none := by
      intro other hother
      have hne : other ≠ name := fun heq => hnotMem (heq ▸ hother)
      rw [hothers other hne]
      exact hnone other (List.mem_cons_of_mem _ hother)
    obtain ⟨memory', hrest, hkept, hread⟩ := ih hownerNext hnodup
      (fun other hother => hcls other (List.mem_cons_of_mem _ hother)) hnoneNext
    refine ⟨memory', ?_, fun other hother => ?_, fun other hother cls' hcls' hserial => ?_⟩
    · rw [List.map_cons, readBlocks, hnext, Outcome.ok_bind, hrest]
    · obtain ⟨hne, hother⟩ := not_or.mp (List.mem_cons.not.mp hother)
      rw [hkept other hother, hothers other hne]
    · rcases List.mem_cons.mp hother with rfl | hother
      · obtain rfl := Option.some.inj (hclsName.symm.trans hcls')
        rw [hkept other hnotMem, hfilled hserial]
        rfl
      · exact hread other hother cls' hcls' hserial

/-- The names of a header are read back, unless there are too many. -/
lemma readMemoryHeader_eq (lw : LogWriter) (memory : MemoryFrame Content) :
    readMemoryHeader fresh (ofBytes (packed (headerBuffers (lw.loggedNames memory)))) =
      .ok (if (lw.loggedNames memory).length > maxExpectedModulesPerMemory then none
        else some (lw.loggedNames memory)) := by
  have hlen := lw.length_packed_headerBuffers memory
  have hbytes : (ofBytes (packed (headerBuffers (lw.loggedNames memory)))).bytes =
      packed (headerBuffers (lw.loggedNames memory)) := bytes_ofBytes _
  have hsep := separate_packed fresh hbytes
    (fun b hb => (lw.size_headerBuffers memory b hb).trans (by omega)) (by omega)
  have hsame : (headerBuffers (lw.loggedNames memory)).map (fun b => ofBytes b.bytes) =
      headerBuffers (lw.loggedNames memory) := by
    simp [headerBuffers, Function.comp_def]
  have hnames : ((headerBuffers (lw.loggedNames memory)).map fun sb =>
      sb.buffer.takeWhile (· ≠ 0)) = lw.loggedNames memory := by
    rw [headerBuffers, List.map_map]
    refine (List.map_congr_left fun name hname => ?_).trans (List.map_id _)
    have hzero := ByteMemory.cString_eq (name_of_logged hname).1
    rw [ByteMemory.cString, if_pos (by simp)] at hzero
    exact Option.some.inj hzero
  have hlength : (headerBuffers (lw.loggedNames memory)).length =
      (lw.loggedNames memory).length := List.length_map _
  rw [readMemoryHeader, hsep, hsame, Outcome.ok_bind, hlength]
  split
  · rfl
  · rw [mapM_headerName (by simp [headerBuffers, ofBytes]), hnames]
    rfl

/-- A record is taken apart into its buffers. -/
lemma separate_record (hcodec : codec.Lawful) (context : LogContext) (lw : LogWriter)
    (memory : MemoryFrame Content) {sb : StreamBuffer}
    (hbytes : sb.bytes = packed (recordBuffers codec context memory (lw.loggedNames memory))) :
    separate fresh sb [] = .ok (recordBuffers codec context memory (lw.loggedNames memory)) := by
  have hlen := length_packed_recordBuffers hcodec context lw memory
  have hsep := separate_packed fresh hbytes
    (fun b hb => (size_recordBuffers hcodec context lw memory b hb).trans (by omega)) (by omega)
  rw [hsep]
  simp [recordBuffers, Function.comp_def]

/-- Every logged block whose class has flatbuffers is there under its name, with what it held. -/
def Restores (lw : LogWriter) (memory read : MemoryFrame Content) : Prop :=
  ∀ name ∈ lw.loggedNames memory, ∀ block, memory.blocks[name]? = some block →
    block.cls.isSerializable = true →
      ∃ block', read.blocks[name]? = some block' ∧ block'.staticCast block.cls = .ok block.content

/-- **A record with at most forty names restores its frame.** -/
theorem readMemory_restores (hcodec : codec.Lawful) {lr : LogReader}
    (henabled : lr.enabledBlocks = []) (frame : ℤ) (lw : LogWriter)
    (memory : MemoryFrame Content) (hbytes : lr.mainBuffer.bytes =
      packed (recordBuffers codec (lr.context frame) memory (lw.loggedNames memory)))
    (hle : (lw.loggedNames memory).length ≤ maxExpectedModulesPerMemory) :
    ∃ read answer, lr.readMemory codec fresh (.empty .toolMem) frame = .ok (read, answer) ∧
      Restores lw memory read := by
  have hheader := readMemoryHeader_eq fresh lw memory
  rw [if_neg (Nat.not_lt.mpr hle)] at hheader
  rw [readMemory, separate_record fresh hcodec _ lw memory hbytes, Outcome.ok_bind]
  simp only [recordBuffers, hheader, Outcome.ok_bind]
  have howner : (MemoryFrame.empty .toolMem : MemoryFrame Content).owner = .toolMem := rfl
  obtain ⟨read, hread, -, hfilled⟩ := readBlocks_eq codec henabled frame howner
    (payload codec (lr.context frame) memory)
    (lw.nodup_loggedNames memory)
    (fun name hname => by
      obtain ⟨block, hblock, -⟩ := getBlockPtrByName_of_logged hname
      exact ⟨_, memory.blockClass_eq name block hblock⟩)
    (fun name _ => MemoryFrame.blocks_empty _ name)
  cases hnames : lw.loggedNames memory with
  | nil =>
    refine ⟨_, _, rfl, fun name hname => ?_⟩
    rw [hnames] at hname
    exact absurd hname (by simp)
  | cons first rest =>
    rw [hnames] at hread
    refine ⟨read, true, ?_, fun name hname block hblock hserial => ?_⟩
    · simp only [hread, Outcome.ok_bind]
    · have hcls := memory.blockClass_eq name block hblock
      refine ⟨_, hfilled name hname block.cls hcls hserial, ?_⟩
      have hpayload : payload codec (lr.context frame) memory name =
          codec.serialize block.cls (lr.context frame) block.content := by
        simp only [payload, hblock, hserial, if_true]
      rw [hpayload, hcodec.deserialize_serialize _ _ _ hserial]
      exact MemoryBlock.staticCast_self _

/-- **A record with more than forty names is given up**: the frame stays empty. -/
theorem readMemory_gives_up (hcodec : codec.Lawful) {lr : LogReader} (frame : ℤ) (lw : LogWriter)
    (memory : MemoryFrame Content) (hbytes : lr.mainBuffer.bytes =
      packed (recordBuffers codec (lr.context frame) memory (lw.loggedNames memory)))
    (hgt : maxExpectedModulesPerMemory < (lw.loggedNames memory).length)
    (read : MemoryFrame Content) :
    lr.readMemory codec fresh read frame = .ok (read, false) := by
  have hheader := readMemoryHeader_eq fresh lw memory
  rw [if_pos hgt] at hheader
  rw [readMemory, separate_record fresh hcodec _ lw memory hbytes, Outcome.ok_bind]
  simp only [recordBuffers, hheader, Outcome.ok_bind]

/-! ## Reading frames of a log -/

/-- A reader of the log of some frames, with a stream that has not failed. -/
structure Reads (codec : BlockCodec Content) (lw : LogWriter)
    (frames : List (MemoryFrame Content)) (lr : LogReader) : Prop where
  directory_eq : lr.directory = lw.directory.path
  offsets_eq : lr.mdata.offsets = (List.range frames.length).map (lw.recordStart codec frames)
  bytes_eq : lr.logFile.bytes = lw.records codec frames
  failed_eq : lr.logFile.failed = false
  enabledBlocks_eq : lr.enabledBlocks = []

/-- An index that fits an `int` comes through both of its conversions. -/
lemma index_eq {i : ℕ} (h : i < 2 ^ 31) : ((i : ℤ).bmod (2 ^ 32) % 2 ^ 64).toNat = i := by
  rw [Int.bmod_eq_of_le (by omega) (by omega)]
  omega

/-- Reading a frame brings its record into the main buffer; the reader can go on. -/
lemma readFrame_eq (hcodec : codec.Lawful) {lw : LogWriter} (hbuffers : lw.usingBuffers = false)
    {frames : List (MemoryFrame Content)} {lr : LogReader} (h : Reads codec lw frames lr)
    {i : ℕ} {memory : MemoryFrame Content} (hi : frames[i]? = some memory) (hlt : i < 2 ^ 31) :
    ∃ lr', Reads codec lw frames lr' ∧
      lr'.mainBuffer.bytes = packed (recordBuffers codec
        (lr'.context ((i : ℤ).bmod (2 ^ 32))) memory (lw.loggedNames memory)) ∧
      lr.readFrame codec fresh ((i : ℤ).bmod (2 ^ 32)) = (do
        let (memory, _) ← lr'.readMemory codec fresh (.empty .toolMem) ((i : ℤ).bmod (2 ^ 32))
        .ok (memory, lr')) := by
  obtain ⟨hlen, -⟩ := List.getElem?_eq_some_iff.mp hi
  obtain ⟨rest, hrecords⟩ := lw.records_eq_of_getElem? codec hi
  have hoffset : lr.mdata.offsets[((i : ℤ).bmod (2 ^ 32) % 2 ^ 64).toNat]? =
      some (lw.recordStart codec frames i) := by
    rw [index_eq hlt, h.offsets_eq, List.getElem?_map, List.getElem?_range hlen]
    rfl
  set is : InputStream := ⟨lr.logFile.bytes, lw.recordStart codec frames i, false⟩ with his
  have hseek : lr.logFile.seekg (lw.recordStart codec frames i) = is := by
    simp only [InputStream.seekg, h.failed_eq, Bool.false_eq_true, if_false, his]
  have hremaining : is.remaining = lw.record codec i memory ++ rest := by
    rw [InputStream.remaining, his, h.bytes_eq, hrecords, recordStart, List.drop_left]
  have hpacked := length_packed_recordBuffers hcodec (lw.contextAt i) lw memory
  have hvalid : ValidRequest (ofBytes (packed
      (recordBuffers codec (lw.contextAt i) memory (lw.loggedNames memory)))).size := by
    rw [size_ofBytes]
    have hpos : 8 ≤ (packed
        (recordBuffers codec (lw.contextAt i) memory (lw.loggedNames memory))).length := by
      rw [length_packed]
      omega
    unfold ValidRequest
    omega
  have hok : is.failed = false := rfl
  obtain ⟨hbytes, -, hstream⟩ := readStream_write fresh lr.mainBuffer hok hremaining hvalid
  refine ⟨{ lr with
    mainBuffer := (lr.mainBuffer.readStream fresh is).1
    logFile := (lr.mainBuffer.readStream fresh is).2 }, ?_, ?_, ?_⟩
  · constructor
    · exact h.directory_eq
    · exact h.offsets_eq
    · rw [hstream]
      exact h.bytes_eq
    · rw [hstream]
    · exact h.enabledBlocks_eq
  · have hcontext : lw.contextAt i =
        ⟨false, (i : ℤ).bmod (2 ^ 32), lr.directory⟩ := by
      rw [contextAt, hbuffers, h.directory_eq]
    rw [hbytes, bytes_ofBytes, hcontext]
    rfl
  · simp only [readFrame, hoffset, inBounds, Outcome.ok_bind, hseek]

/-- **Every frame of a log can be read**; its blocks are restored if there are at most forty of
them, and otherwise the frame is empty. -/
theorem readFrame_record (hcodec : codec.Lawful) {lw : LogWriter}
    (hbuffers : lw.usingBuffers = false) {frames : List (MemoryFrame Content)} {lr : LogReader}
    (h : Reads codec lw frames lr) {i : ℕ} {memory : MemoryFrame Content}
    (hi : frames[i]? = some memory) (hlt : i < 2 ^ 31) :
    ∃ read lr', lr.readFrame codec fresh ((i : ℤ).bmod (2 ^ 32)) = .ok (read, lr') ∧
      Reads codec lw frames lr' ∧
      ((lw.loggedNames memory).length ≤ maxExpectedModulesPerMemory → Restores lw memory read) ∧
      (maxExpectedModulesPerMemory < (lw.loggedNames memory).length → read = .empty .toolMem) := by
  obtain ⟨lr', hreads, hbytes, hread⟩ := readFrame_eq fresh hcodec hbuffers h hi hlt
  rcases Nat.lt_or_ge maxExpectedModulesPerMemory (lw.loggedNames memory).length with hgt | hle
  · have hempty := readMemory_gives_up fresh hcodec _ lw memory hbytes hgt (.empty .toolMem)
    refine ⟨.empty .toolMem, lr', ?_, hreads, fun hle => absurd hle (Nat.not_le.mpr hgt),
      fun _ => rfl⟩
    rw [hread, hempty, Outcome.ok_bind]
  · obtain ⟨read, answer, hrestored, hrestores⟩ :=
      readMemory_restores fresh hcodec hreads.enabledBlocks_eq _ lw memory hbytes hle
    refine ⟨read, lr', ?_, hreads, fun _ => hrestores, fun hgt => absurd hle (Nat.not_le.mpr hgt)⟩
    rw [hread, hrestored, Outcome.ok_bind]

/-- Frames of a log can be read in any order and any number of times. -/
lemma readFrames_reads (hcodec : codec.Lawful) {lw : LogWriter}
    (hbuffers : lw.usingBuffers = false) {frames : List (MemoryFrame Content)}
    (hlen : frames.length ≤ 2 ^ 31) {lr : LogReader} (h : Reads codec lw frames lr)
    {indices : List ℕ} (hindices : ∀ i ∈ indices, i < frames.length) :
    ∃ lr', lr.readFrames codec fresh indices = .ok lr' ∧ Reads codec lw frames lr' := by
  induction indices generalizing lr with
  | nil => exact ⟨lr, rfl, h⟩
  | cons i indices ih =>
    have hi : i < frames.length := hindices i (by simp)
    obtain ⟨read, next, hread, hreads, -⟩ := readFrame_record fresh hcodec hbuffers h
      (List.getElem?_eq_getElem hi) (by omega)
    obtain ⟨lr', hrest, hreads'⟩ := ih hreads fun j hj => hindices j (List.mem_cons_of_mem _ hj)
    exact ⟨lr', by rw [readFrames, hread]; exact hrest, hreads'⟩

/-- The log of a writer that is closed can be opened if its offsets can be loaded, and only then. -/
lemma openLog_eq {lw written : LogWriter} {frames : List (MemoryFrame Content)}
    (h : Written codec lw frames written) :
    openLog written.close.directory =
      if ∀ i < frames.length, lw.recordStart codec frames i < 2 ^ 63 then
        some ⟨written.directory.path, written.mdata, .ofBytes written.directory.framesLog,
          .empty, []⟩
      else none := by
  have hoffsets : (∀ offset ∈ written.mdata.offsets, offset < 2 ^ 63) ↔
      ∀ i < frames.length, lw.recordStart codec frames i < 2 ^ 63 := by
    simp [h.offsets_eq]
  simp only [openLog, close, h.isOpen_eq, if_true, Option.bind_eq_bind, Option.bind_some,
    LogMetadata.load, hoffsets]
  split <;> rfl

/-- A reader that was just opened reads the log. -/
lemma reads_openLog {lw written : LogWriter} {frames : List (MemoryFrame Content)}
    (h : Written codec lw frames written) :
    Reads codec lw frames
      ⟨written.directory.path, written.mdata, .ofBytes written.directory.framesLog, .empty, []⟩ where
  directory_eq := h.path_eq
  offsets_eq := h.offsets_eq
  bytes_eq := h.framesLog_eq
  failed_eq := rfl
  enabledBlocks_eq := rfl

end LogReader

/-! ## The log as a whole -/

/-- The frames can be written to a newly opened log.  After closing, the metadata counts the frames
and has the offset of every record; and a reader of the log restores every frame, whatever frames it
has read before. -/
def LogReadBack (codec : BlockCodec Content) (lw : LogWriter) (directory : LogDirectory)
    (frames : List (MemoryFrame Content)) : Prop :=
  ∃ written, (lw.openLog directory).writeFrames codec fresh frames = .ok written ∧
    (∃ mdata, written.close.directory.metadata = some mdata ∧
      mdata.frames = frames.length ∧ mdata.offsets.length = frames.length ∧
      ∀ i < frames.length, ∃ before,
        (lw.openLog directory).writeFrames codec fresh (frames.take i) = .ok before ∧
          mdata.offsets[i]? = some before.directory.framesLog.length) ∧
    ∃ lr, LogReader.openLog written.close.directory = some lr ∧
      ∀ earlier : List ℕ, (∀ j ∈ earlier, j < frames.length) →
        ∀ (i : ℕ) (memory : MemoryFrame Content), frames[i]? = some memory → ∃ lr' read lr'',
          lr.readFrames codec fresh earlier = .ok lr' ∧
          lr'.readFrame codec fresh ((i : ℤ).bmod (2 ^ 32)) = .ok (read, lr'') ∧
          LogReader.Restores lw memory read

/-- Opening a writer does not change what it logs. -/
@[simp] lemma loggedNames_openLog (lw : LogWriter) (directory : LogDirectory)
    (memory : MemoryFrame Content) :
    (lw.openLog directory).loggedNames memory = lw.loggedNames memory := by
  have hclose : lw.close.useAllBlocks = lw.useAllBlocks ∧
      lw.close.enabledBlocks = lw.enabledBlocks := by
    unfold LogWriter.close
    split <;> exact ⟨rfl, rfl⟩
  simp only [loggedNames, LogWriter.openLog, hclose]

/-- Opening a writer does not change whether it writes to a file. -/
@[simp] lemma usingBuffers_openLog (lw : LogWriter) (directory : LogDirectory) :
    (lw.openLog directory).usingBuffers = lw.usingBuffers := by
  unfold LogWriter.openLog LogWriter.close
  split <;> rfl

/-- Within the limits a log is read back. -/
lemma logReadBack_of_limits (hcodec : codec.Lawful) {lw : LogWriter}
    (hbuffers : lw.usingBuffers = false) (directory : LogDirectory)
    {frames : List (MemoryFrame Content)}
    (hnames : ∀ memory ∈ frames, (lw.loggedNames memory).length ≤ 40)
    (hlen : frames.length ≤ 2 ^ 31)
    (hstart : ∀ i < frames.length,
      (lw.openLog directory).recordStart codec frames i < 2 ^ 63) :
    LogReadBack fresh codec lw directory frames := by
  have hfile : (lw.openLog directory).usingBuffers = false := by simpa using hbuffers
  obtain ⟨written, hwrite, hwritten⟩ :=
    (written_openLog lw directory).writeFrames fresh hcodec hfile frames
  rw [List.nil_append] at hwritten
  have hopen := LogReader.openLog_eq hwritten
  rw [if_pos hstart] at hopen
  refine ⟨written, hwrite, ⟨written.mdata, ?_, ?_, ?_, fun i hi => ?_⟩, _, hopen,
    fun earlier hearlier i memory hi => ?_⟩
  · rw [LogWriter.close, if_pos hwritten.isOpen_eq]
  · rw [hwritten.frames_eq, Nat.mod_eq_of_lt (by omega)]
  · simp [hwritten.offsets_eq]
  · obtain ⟨before, hbefore, hbeforeWritten⟩ :=
      (written_openLog lw directory).writeFrames fresh hcodec hfile (frames.take i)
    rw [List.nil_append] at hbeforeWritten
    refine ⟨before, hbefore, ?_⟩
    rw [hwritten.offsets_eq, List.getElem?_map, List.getElem?_range hi,
      hbeforeWritten.framesLog_eq]
    rfl
  · obtain ⟨hlt, hmemory⟩ := List.getElem?_eq_some_iff.mp hi
    obtain ⟨lr', hreadFrames, hreads⟩ := LogReader.readFrames_reads fresh hcodec hfile hlen
      (LogReader.reads_openLog hwritten) hearlier
    obtain ⟨read, lr'', hread, -, hrestores, -⟩ :=
      LogReader.readFrame_record fresh hcodec hfile hreads hi (by omega)
    have hle : (lw.loggedNames memory).length ≤ maxExpectedModulesPerMemory :=
      hnames memory (hmemory ▸ List.getElem_mem hlt)
    refine ⟨lr', read, lr'', hreadFrames, hread, ?_⟩
    simpa [LogReader.Restores] using hrestores (by simpa using hle)

/-- A frame with more than forty logged blocks is not restored by an empty frame. -/
lemma not_restores_empty {lw : LogWriter} {memory : MemoryFrame Content}
    (hgt : maxExpectedModulesPerMemory < (lw.loggedNames memory).length) :
    ¬ LogReader.Restores lw memory (.empty .toolMem) := by
  intro hrestores
  obtain ⟨name, hname, block, hblock, hserial⟩ :=
    MemoryFrame.exists_serializable_of_length (lw.nodup_loggedNames memory)
      (fun name hname => (getBlockPtrByName_of_logged hname).imp fun _ h => h.1)
      (show 30 < (lw.loggedNames memory).length by
        unfold maxExpectedModulesPerMemory at hgt
        omega)
  obtain ⟨block', hblock', -⟩ := hrestores name hname block hblock hserial
  rw [MemoryFrame.blocks_empty] at hblock'
  exact nomatch hblock'

/-- Reading frame `2 ^ 31` looks for an offset far behind the end. -/
lemma readFrame_of_large {lr : LogReader} (hlen : lr.mdata.offsets.length < 2 ^ 32) :
    lr.readFrame codec fresh (((2 ^ 31 : ℕ) : ℤ).bmod (2 ^ 32)) = .error .outOfBounds := by
  have hindex : ((((2 ^ 31 : ℕ) : ℤ).bmod (2 ^ 32)) % 2 ^ 64).toNat = 2 ^ 64 - 2 ^ 31 := by
    decide
  rw [LogReader.readFrame, hindex, List.getElem?_eq_none (by omega)]
  rfl

/-- A log that is read back is within the limits. -/
lemma limits_of_logReadBack (hcodec : codec.Lawful) {lw : LogWriter}
    (hbuffers : lw.usingBuffers = false) {directory : LogDirectory}
    {frames : List (MemoryFrame Content)} (h : LogReadBack fresh codec lw directory frames) :
    (∀ memory ∈ frames, (lw.loggedNames memory).length ≤ 40) ∧ frames.length ≤ 2 ^ 31 ∧
      ∀ i < frames.length, (lw.openLog directory).recordStart codec frames i < 2 ^ 63 := by
  have hfile : (lw.openLog directory).usingBuffers = false := by simpa using hbuffers
  obtain ⟨written, hwrite, ⟨mdata, hmdata, hframes, hoffsets, -⟩, lr, hopen, hreads⟩ := h
  have hwritten : Written codec (lw.openLog directory) frames written := by
    obtain ⟨written', hwrite', hwritten'⟩ :=
      (written_openLog lw directory).writeFrames fresh hcodec hfile frames
    obtain rfl := Except.ok.inj (hwrite.symm.trans hwrite')
    exact hwritten'
  have hopenEq := LogReader.openLog_eq hwritten
  rw [hopen] at hopenEq
  have hstart : ∀ i < frames.length,
      (lw.openLog directory).recordStart codec frames i < 2 ^ 63 := by
    by_contra hlarge
    rw [if_neg hlarge] at hopenEq
    exact nomatch hopenEq
  rw [if_pos hstart] at hopenEq
  obtain rfl := Option.some.inj hopenEq
  have hcount : frames.length < 2 ^ 32 := by
    rw [LogWriter.close, if_pos hwritten.isOpen_eq] at hmdata
    obtain rfl := Option.some.inj hmdata
    rw [← hframes, hwritten.frames_eq]
    exact Nat.mod_lt _ (by norm_num)
  have hlen : frames.length ≤ 2 ^ 31 := by
    by_contra hmany
    have hi : 2 ^ 31 < frames.length := by omega
    obtain ⟨lr', read, lr'', hnone, hread, -⟩ :=
      hreads [] (by simp) (2 ^ 31) _ (List.getElem?_eq_getElem hi)
    obtain rfl := Except.ok.inj hnone
    rw [readFrame_of_large fresh (by simpa [hwritten.offsets_eq] using hcount)] at hread
    exact nomatch hread
  refine ⟨fun memory hmemory => ?_, hlen, hstart⟩
  by_contra hmany
  obtain ⟨i, hlt, rfl⟩ := List.mem_iff_getElem.mp hmemory
  obtain ⟨lr', read, lr'', hnone, hread, hrestores⟩ :=
    hreads [] (by simp) i _ (List.getElem?_eq_getElem hlt)
  obtain rfl := Except.ok.inj hnone
  obtain ⟨read', lr₁, hread', -, -, hempty⟩ := LogReader.readFrame_record fresh hcodec hfile
    (LogReader.reads_openLog hwritten) (List.getElem?_eq_getElem hlt) (by omega)
  obtain ⟨rfl, -⟩ := Prod.mk.inj (Except.ok.inj (hread.symm.trans hread'))
  have hgt : maxExpectedModulesPerMemory < (lw.loggedNames frames[i]).length :=
    Nat.not_le.mp hmany
  rw [hempty (by simpa using hgt)] at hrestores
  exact not_restores_empty hgt hrestores

/-- **A log is read back exactly within the limits of the reader**: no frame has more than forty
logged blocks, there are at most `2 ^ 31` frames, and every record starts below byte `2 ^ 63`. -/
theorem log_readBack_iff (hcodec : codec.Lawful) (lw : LogWriter)
    (hbuffers : lw.usingBuffers = false) (directory : LogDirectory)
    (frames : List (MemoryFrame Content)) :
    LogReadBack fresh codec lw directory frames ↔
      (∀ memory ∈ frames, (lw.loggedNames memory).length ≤ 40) ∧ frames.length ≤ 2 ^ 31 ∧
        ∀ i < frames.length, (lw.openLog directory).recordStart codec frames i < 2 ^ 63 := by
  constructor
  · exact limits_of_logReadBack fresh hcodec hbuffers
  · rintro ⟨hnames, hlen, hstart⟩
    exact logReadBack_of_limits fresh hcodec hbuffers directory hnames hlen hstart

/-! ## A log that is read back, and one that is not -/

/-- Blocks that hold their flatbuffers. -/
def flatCodec : BlockCodec fun _ => { bytes : List UInt8 // bytes.length < 2 ^ 31 } where
  new _ := ⟨[], by norm_num⟩
  serialize _ _ content := content.1
  deserialize _ _ bytes old := if h : bytes.length < 2 ^ 31 then ⟨bytes, h⟩ else old

/-- Such blocks read what they write. -/
lemma flatCodec_lawful : flatCodec.Lawful where
  deserialize_serialize _ _ content _ := dif_pos content.2
  length_serialize _ _ content _ := content.2

/-- A `FileLogWriter`. -/
def fileLogWriter : LogWriter where
  directory := ⟨[], [], none⟩
  isOpen := false
  frameId := 0
  usingBuffers := false
  useAllBlocks := false
  mainBuffer := .empty
  mdata := ⟨0, []⟩
  enabledBlocks := []

/-- A frame of vision in which the blocks of the given names are to be logged. -/
def loggedFrame (new : (cls : BlockClass) → Content cls) (names : List BlockName) :
    MemoryFrame Content :=
  names.foldl (fun memory name =>
    match h : blockClass name with
    | none => memory
    | some cls => memory.setBlock name ⟨cls, true, .vision, new cls⟩ h) (.empty .vision)

/-- A log of one frame with two blocks is read back. -/
theorem log_readBack_two : LogReadBack (fun _ => 0xAA) flatCodec fileLogWriter ⟨[], [], none⟩
    [loggedFrame (fun _ => ⟨[1, 2, 3], by decide⟩)
      [blockName "odometry", blockName "behavior"]] := by
  refine (log_readBack_iff _ flatCodec_lawful fileLogWriter rfl _ _).mpr ⟨?_, ?_, ?_⟩
  · decide +kernel
  · simp
  · intro i hi
    obtain rfl : i = 0 := by simpa using hi
    simp [recordStart, records]

/-- A frame in which forty-one serializable blocks are to be logged. -/
def fullFrame : MemoryFrame fun _ => { bytes : List UInt8 // bytes.length < 2 ^ 31 } :=
  loggedFrame (fun _ => ⟨[1, 2, 3], by decide⟩)
    (((blocks.filter fun entry => entry.2.isSerializable).take 41).map Prod.fst)

/-- **A log of a frame with forty-one blocks is written but not read back.** -/
theorem log_not_readBack : flatCodec.Lawful ∧ (fileLogWriter.loggedNames fullFrame).length = 41 ∧
    ¬ LogReadBack (fun _ => 0xAA) flatCodec fileLogWriter ⟨[], [], none⟩ [fullFrame] := by
  have hcount : (fileLogWriter.loggedNames fullFrame).length = 41 := by decide +kernel
  refine ⟨flatCodec_lawful, hcount, fun h => ?_⟩
  have hle := (limits_of_logReadBack _ flatCodec_lawful rfl h).1 fullFrame (by simp)
  omega

end NaoSoccer
