import NaoSoccer.Memory.LogWriter

/-!
# The records of a log

What a record consists of is stated once, as `record`, and its size is bounded.  Writing a list of
frames appends their records and notes where each of them starts.
-/

namespace NaoSoccer

open StreamBuffer

variable {Content : BlockClass → Type} (codec : BlockCodec Content) (fresh : ℕ → UInt8)

namespace LogWriter

/-! ## What a record consists of -/

/-- The names of the blocks that the writer logs of a frame. -/
def loggedNames (lw : LogWriter) (memory : MemoryFrame Content) : List BlockName :=
  (memory.getBlockNames (!lw.useAllBlocks)).filter (validBlock lw.enabledBlocks)

/-- The flatbuffer of the block of a name, or nothing if its class has none. -/
def payload (context : LogContext) (memory : MemoryFrame Content) (name : BlockName) :
    List UInt8 :=
  match memory.blocks[name]? with
  | none => []
  | some block =>
    if block.cls.isSerializable then codec.serialize block.cls context block.content else []

/-- The names of a record, each as a C string in a buffer of its own. -/
def headerBuffers (names : List BlockName) : List StreamBuffer :=
  names.map fun name => ofBytes (name ++ [0])

/-- The buffers of a record: the header and one buffer for each name. -/
def recordBuffers (context : LogContext) (memory : MemoryFrame Content) (names : List BlockName) :
    List StreamBuffer :=
  ofBytes (packed (headerBuffers names)) ::
    names.map fun name => ofBytes (payload codec context memory name)

/-- The context of the frame with index `i` in a log that starts with the writer. -/
def contextAt (lw : LogWriter) (i : ℕ) : LogContext :=
  ⟨lw.usingBuffers, (i : ℤ).bmod (2 ^ 32), lw.directory.path⟩

/-- What is written of the frame with index `i`. -/
def record (lw : LogWriter) (i : ℕ) (memory : MemoryFrame Content) : List UInt8 :=
  (ofBytes (packed (recordBuffers codec (lw.contextAt i) memory (lw.loggedNames memory)))).write

/-- What is written of a list of frames. -/
def records (lw : LogWriter) (frames : List (MemoryFrame Content)) : List UInt8 :=
  (frames.mapIdx (lw.record codec)).flatten

/-- Where the record of the frame with index `i` starts. -/
def recordStart (lw : LogWriter) (frames : List (MemoryFrame Content)) (i : ℕ) : ℕ :=
  (lw.records codec (frames.take i)).length

/-- What is written of one more frame. -/
lemma records_concat (lw : LogWriter) (frames : List (MemoryFrame Content))
    (memory : MemoryFrame Content) :
    lw.records codec (frames ++ [memory]) =
      lw.records codec frames ++ lw.record codec frames.length memory := by
  simp [records, List.mapIdx_append]

/-- The record of a frame stands behind the records of the frames before it. -/
lemma records_eq_of_getElem? (lw : LogWriter) {frames : List (MemoryFrame Content)} {i : ℕ}
    {memory : MemoryFrame Content} (h : frames[i]? = some memory) :
    ∃ rest, lw.records codec frames =
      lw.records codec (frames.take i) ++ (lw.record codec i memory ++ rest) := by
  obtain ⟨hi, hmemory⟩ := List.getElem?_eq_some_iff.mp h
  have hsplit : frames = frames.take i ++ memory :: frames.drop (i + 1) := by
    rw [← hmemory, List.cons_getElem_drop_succ, List.take_append_drop]
  have hlen : (frames.take i).length = i := List.length_take_of_le hi.le
  refine ⟨((frames.drop (i + 1)).mapIdx fun j => lw.record codec (j + 1 + i)).flatten, ?_⟩
  conv_lhs => rw [hsplit]
  simp only [records, List.mapIdx_append, List.mapIdx_cons, List.flatten_append,
    List.flatten_cons, hlen, Nat.zero_add]

/-- The logged names are all different. -/
lemma nodup_loggedNames (lw : LogWriter) (memory : MemoryFrame Content) :
    (lw.loggedNames memory).Nodup :=
  (memory.nodup_getBlockNames _).filter _

/-- The owner of the frame reaches every logged block. -/
lemma getBlockPtrByName_of_logged {lw : LogWriter} {memory : MemoryFrame Content}
    {name : BlockName} (h : name ∈ lw.loggedNames memory) :
    ∃ block, memory.blocks[name]? = some block ∧
      memory.getBlockPtrByName name = .ok (some block) :=
  MemoryFrame.getBlockPtrByName_of_mem (List.mem_of_mem_filter h)

/-- There are no more logged names than the table has. -/
lemma length_loggedNames_le (lw : LogWriter) (memory : MemoryFrame Content) :
    (lw.loggedNames memory).length ≤ 72 :=
  MemoryFrame.length_names_le (lw.nodup_loggedNames memory) fun _ hname =>
    (getBlockPtrByName_of_logged hname).imp fun _ h => h.1

/-- A logged name is in the table, so it is short and has no zero byte. -/
lemma name_of_logged {lw : LogWriter} {memory : MemoryFrame Content} {name : BlockName}
    (h : name ∈ lw.loggedNames memory) : 0 ∉ name ∧ name.length ≤ 30 := by
  obtain ⟨block, hblock, -⟩ := getBlockPtrByName_of_logged h
  exact blocks_names _ (mem_blocks_of_blockClass (memory.blockClass_eq name block hblock))

/-! ## The sizes in a record -/

/-- The names of a header take at most 31 bytes each. -/
lemma size_headerBuffers (lw : LogWriter) (memory : MemoryFrame Content) :
    ∀ b ∈ headerBuffers (lw.loggedNames memory), b.size ≤ 31 := by
  intro b hb
  obtain ⟨name, hname, rfl⟩ := List.mem_map.mp hb
  have hlen := (name_of_logged hname).2
  simp only [size_ofBytes, List.length_append, List.length_singleton]
  omega

/-- A packed header is small. -/
lemma length_packed_headerBuffers (lw : LogWriter) (memory : MemoryFrame Content) :
    (packed (headerBuffers (lw.loggedNames memory))).length ≤ 3000 := by
  have hle := length_packed_le (lw.size_headerBuffers memory)
  have hcount := lw.length_loggedNames_le memory
  rw [headerBuffers, List.length_map] at hle
  unfold headerBuffers
  omega

variable {codec}

/-- A block is written in less than `2 ^ 31` bytes. -/
lemma length_payload (hcodec : codec.Lawful) (context : LogContext)
    (memory : MemoryFrame Content) (name : BlockName) :
    (payload codec context memory name).length ≤ 2147483647 := by
  unfold payload
  split
  · simp
  · rename_i block _
    split
    · rename_i hserial
      have hlt := hcodec.length_serialize block.cls context block.content hserial
      omega
    · simp

/-- All buffers of a record are below the limit of the buffers of flatbuffers. -/
lemma size_recordBuffers (hcodec : codec.Lawful) (context : LogContext) (lw : LogWriter)
    (memory : MemoryFrame Content) :
    ∀ b ∈ recordBuffers codec context memory (lw.loggedNames memory), b.size ≤ 2147483647 := by
  intro b hb
  rcases List.mem_cons.mp hb with rfl | hb
  · have hheader := lw.length_packed_headerBuffers memory
    rw [size_ofBytes]
    omega
  · obtain ⟨name, -, rfl⟩ := List.mem_map.mp hb
    exact length_payload hcodec context memory name

/-- A record passes `VERIFY_RESIZE`. -/
lemma length_packed_recordBuffers (hcodec : codec.Lawful) (context : LogContext) (lw : LogWriter)
    (memory : MemoryFrame Content) :
    (packed (recordBuffers codec context memory (lw.loggedNames memory))).length ≤
      1000000000000 := by
  have hle := length_packed_le (size_recordBuffers hcodec context lw memory)
  have hcount := lw.length_loggedNames_le memory
  rw [recordBuffers, List.length_cons, List.length_map] at hle
  unfold recordBuffers
  omega

/-! ## Writing appends records -/

/-- What is written of a buffer depends on its contents only. -/
lemma write_eq_of_bytes {sb : StreamBuffer} {bs : List UInt8} (h : sb.bytes = bs) :
    sb.write = (ofBytes bs).write := by
  subst h
  simp [StreamBuffer.write]

/-- The loop of `writeMemoryHeader` makes the header's buffers of the enabled names. -/
lemma nameBuffers_eq (lw : LogWriter) {names : List BlockName}
    (hlen : ∀ name ∈ names.filter (validBlock lw.enabledBlocks), name.length ≤ 30) :
    lw.nameBuffers fresh names =
      .ok (headerBuffers (names.filter (validBlock lw.enabledBlocks))) := by
  induction names with
  | nil => rfl
  | cons name names ih =>
    rw [nameBuffers]
    by_cases hvalid : validBlock lw.enabledBlocks name = true
    · rw [List.filter_cons_of_pos hvalid] at hlen ⊢
      have hname : name.length ≤ 30 := hlen name (by simp)
      have hrequest : ValidRequest (name ++ [0]).length := by
        simp only [ValidRequest, List.length_append, List.length_singleton]
        omega
      have hread := read_empty fresh [] hrequest
      rw [List.append_nil, List.length_append, List.length_singleton] at hread
      have hrest := ih fun other hother => hlen other (List.mem_cons_of_mem _ hother)
      rw [if_pos hvalid, hread, Outcome.ok_bind, hrest]
      rfl
    · rw [List.filter_cons_of_neg hvalid] at hlen ⊢
      rw [if_neg hvalid, ih hlen]

/-- The buffer for a block of the frame is its payload. -/
lemma blockBuffer_eq (lw : LogWriter) {memory : MemoryFrame Content} {name : BlockName}
    {block : MemoryBlock Content} (h : memory.blocks[name]? = some block) :
    lw.blockBuffer codec name (some block) =
      .ok (ofBytes (payload codec lw.context memory name)) := by
  unfold blockBuffer payload
  simp only [memory.blockClass_eq name block h, h, MemoryBlock.staticCast_self]
  split <;> rfl

/-- The loop of `writeMemory` makes the payloads of the enabled names. -/
lemma blockBuffers_eq (lw : LogWriter) (memory : MemoryFrame Content) {names : List BlockName}
    (hmem : ∀ name ∈ names.filter (validBlock lw.enabledBlocks), ∃ block,
      memory.blocks[name]? = some block ∧ memory.getBlockPtrByName name = .ok (some block)) :
    lw.blockBuffers codec memory names =
      .ok ((names.filter (validBlock lw.enabledBlocks)).map fun name =>
        ofBytes (payload codec lw.context memory name)) := by
  induction names with
  | nil => rfl
  | cons name names ih =>
    rw [blockBuffers]
    by_cases hvalid : validBlock lw.enabledBlocks name = true
    · rw [List.filter_cons_of_pos hvalid] at hmem ⊢
      obtain ⟨block, hblock, hptr⟩ := hmem name (by simp)
      have hrest := ih fun other hother => hmem other (List.mem_cons_of_mem _ hother)
      rw [if_pos hvalid, hptr, Outcome.ok_bind, lw.blockBuffer_eq hblock, Outcome.ok_bind, hrest]
      rfl
    · rw [List.filter_cons_of_neg hvalid] at hmem ⊢
      rw [if_neg hvalid, ih hmem]

/-- The header that is written holds the packed names. -/
lemma writeMemoryHeader_eq (lw : LogWriter) (memory : MemoryFrame Content) :
    ∃ hbuffer, lw.writeMemoryHeader fresh (memory.getBlockNames (!lw.useAllBlocks)) .empty =
      .ok hbuffer ∧ hbuffer.bytes = packed (headerBuffers (lw.loggedNames memory)) := by
  have hcount := lw.length_loggedNames_le memory
  have hlen := lw.length_packed_headerBuffers memory
  have hnames : lw.nameBuffers fresh (memory.getBlockNames (!lw.useAllBlocks)) =
      .ok (headerBuffers (lw.loggedNames memory)) :=
    lw.nameBuffers_eq fresh fun name (hname : name ∈ lw.loggedNames memory) =>
      (name_of_logged hname).2
  obtain ⟨hbuffer, hheader, hbytes, -⟩ := @combineBelow_eq fresh 0xFFFFFF
    (headerBuffers (lw.loggedNames memory)) .empty
    (by rw [headerBuffers, List.length_map]; omega) (by omega)
  refine ⟨hbuffer, ?_, hbytes⟩
  rw [writeMemoryHeader, hnames, Outcome.ok_bind, combineVector, hheader]

/-- **Writing a frame appends its record** and notes where the record starts. -/
theorem writeMemory_eq (hcodec : codec.Lawful) {lw : LogWriter} (hbuffers : lw.usingBuffers = false)
    (hopen : lw.isOpen = true) (memory : MemoryFrame Content) :
    ∃ mainBuffer metadata, lw.writeMemory codec fresh memory = .ok
      { lw with
        directory :=
          { lw.directory with
            framesLog := lw.directory.framesLog ++ (ofBytes (packed
              (recordBuffers codec lw.context memory (lw.loggedNames memory)))).write
            metadata := metadata }
        frameId := (lw.frameId + 1).bmod (2 ^ 32)
        mainBuffer := mainBuffer
        mdata := ⟨(lw.mdata.frames + 1) % 2 ^ 32,
          lw.mdata.offsets ++ [lw.directory.framesLog.length]⟩ } := by
  have hcount := lw.length_loggedNames_le memory
  have hlen := length_packed_recordBuffers hcodec lw.context lw memory
  obtain ⟨hbuffer, hheader, hheaderBytes⟩ := lw.writeMemoryHeader_eq fresh memory
  have hblocks : lw.blockBuffers codec memory (memory.getBlockNames (!lw.useAllBlocks)) =
      .ok ((lw.loggedNames memory).map fun name =>
        ofBytes (payload codec lw.context memory name)) :=
    lw.blockBuffers_eq memory fun name (hname : name ∈ lw.loggedNames memory) =>
      getBlockPtrByName_of_logged hname
  have hpacked : packed (hbuffer :: (lw.loggedNames memory).map fun name =>
      ofBytes (payload codec lw.context memory name)) =
        packed (recordBuffers codec lw.context memory (lw.loggedNames memory)) := by
    simp only [recordBuffers, packed, frames_cons, List.length_cons,
      write_eq_of_bytes hheaderBytes]
  obtain ⟨mainBuffer, hmain, hbytes, -⟩ := @combineBelow_eq fresh 0xFFFFFF
    (hbuffer :: (lw.loggedNames memory).map fun name =>
      ofBytes (payload codec lw.context memory name)) lw.mainBuffer
    (by rw [List.length_cons, List.length_map]; omega) (by rw [hpacked]; omega)
  rw [hpacked] at hbytes
  rw [← write_eq_of_bytes hbytes]
  refine ⟨mainBuffer, if (lw.mdata.frames + 1) % 2 ^ 32 % 100 = 0 then
    some ⟨(lw.mdata.frames + 1) % 2 ^ 32, lw.mdata.offsets ++ [lw.directory.framesLog.length]⟩
    else lw.directory.metadata, ?_⟩
  simp only [writeMemory, hbuffers, hopen, Bool.or_true, if_true, hheader, Outcome.ok_bind,
    hblocks, combineVector, hmain, tellp, Bool.false_eq_true, if_false, write]

/-! ## Writing a list of frames -/

/-- The state of a writer that was opened, as `lw`, and then given the frames. -/
structure Written (codec : BlockCodec Content) (lw : LogWriter)
    (frames : List (MemoryFrame Content)) (written : LogWriter) : Prop where
  path_eq : written.directory.path = lw.directory.path
  isOpen_eq : written.isOpen = true
  usingBuffers_eq : written.usingBuffers = lw.usingBuffers
  useAllBlocks_eq : written.useAllBlocks = lw.useAllBlocks
  enabledBlocks_eq : written.enabledBlocks = lw.enabledBlocks
  frameId_eq : written.frameId = (frames.length : ℤ).bmod (2 ^ 32)
  framesLog_eq : written.directory.framesLog = lw.records codec frames
  frames_eq : written.mdata.frames = frames.length % 2 ^ 32
  offsets_eq : written.mdata.offsets = (List.range frames.length).map (lw.recordStart codec frames)

/-- A writer that was just opened has written nothing. -/
lemma written_openLog (lw : LogWriter) (directory : LogDirectory) :
    Written codec (lw.openLog directory) [] (lw.openLog directory) where
  path_eq := rfl
  isOpen_eq := rfl
  usingBuffers_eq := rfl
  useAllBlocks_eq := rfl
  enabledBlocks_eq := rfl
  frameId_eq := by
    have hclose : lw.close.frameId = 0 := by
      unfold close
      split <;> rfl
    simpa [openLog] using hclose
  framesLog_eq := rfl
  frames_eq := (Nat.zero_mod _).symm
  offsets_eq := rfl

/-- Where the records of the earlier frames start does not depend on the later ones. -/
lemma recordStart_append (lw : LogWriter) (frames later : List (MemoryFrame Content)) {i : ℕ}
    (hi : i ≤ frames.length) :
    lw.recordStart codec (frames ++ later) i = lw.recordStart codec frames i := by
  rw [recordStart, recordStart, List.take_append_of_le_length hi]

/-- The next frame can be written. -/
lemma Written.writeMemory (hcodec : codec.Lawful) {lw written : LogWriter}
    {frames : List (MemoryFrame Content)} (hbuffers : lw.usingBuffers = false)
    (h : Written codec lw frames written) (memory : MemoryFrame Content) :
    ∃ written', written.writeMemory codec fresh memory = .ok written' ∧
      Written codec lw (frames ++ [memory]) written' := by
  obtain ⟨mainBuffer, metadata, hwrite⟩ := writeMemory_eq fresh hcodec
    (h.usingBuffers_eq.trans hbuffers) h.isOpen_eq memory
  refine ⟨_, hwrite, ?_⟩
  have hcontext : written.context = lw.contextAt frames.length := by
    simp only [context, contextAt, h.usingBuffers_eq, h.frameId_eq, h.path_eq]
  have hnames : written.loggedNames memory = lw.loggedNames memory := by
    simp only [loggedNames, h.useAllBlocks_eq, h.enabledBlocks_eq]
  constructor
  · exact h.path_eq
  · exact h.isOpen_eq
  · exact h.usingBuffers_eq
  · exact h.useAllBlocks_eq
  · exact h.enabledBlocks_eq
  · simp [h.frameId_eq]
  · simp only [h.framesLog_eq, hcontext, hnames, records_concat, record]
  · simp [h.frames_eq]
  · have hstart : ∀ i ∈ List.range frames.length, lw.recordStart codec (frames ++ [memory]) i =
        lw.recordStart codec frames i := fun i hi =>
      lw.recordStart_append frames [memory] (List.mem_range.mp hi).le
    have hlast : lw.recordStart codec (frames ++ [memory]) frames.length =
        written.directory.framesLog.length := by
      rw [recordStart, List.take_left, h.framesLog_eq]
    simp only [List.length_append, List.length_singleton, List.range_succ, List.map_append,
      List.map_congr_left hstart, List.map_singleton, hlast, h.offsets_eq]

/-- All frames can be written. -/
theorem Written.writeFrames (hcodec : codec.Lawful) {lw written : LogWriter}
    {before : List (MemoryFrame Content)} (hbuffers : lw.usingBuffers = false)
    (h : Written codec lw before written) (frames : List (MemoryFrame Content)) :
    ∃ written', written.writeFrames codec fresh frames = .ok written' ∧
      Written codec lw (before ++ frames) written' := by
  induction frames generalizing before written with
  | nil => exact ⟨written, rfl, by simpa using h⟩
  | cons memory frames ih =>
    obtain ⟨next, hnext, hwritten⟩ := h.writeMemory fresh hcodec hbuffers memory
    obtain ⟨written', hrest, hall⟩ := ih hwritten
    refine ⟨written', ?_, by simpa using hall⟩
    rw [LogWriter.writeFrames, hnext, Outcome.ok_bind, hrest]

end LogWriter

end NaoSoccer
