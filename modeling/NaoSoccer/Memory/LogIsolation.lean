import NaoSoccer.Memory.BufferSeparation
import NaoSoccer.Memory.LogRoundTrip

/-!
# What a frame is decoded from

A `LogReader` has one main buffer for all its calls.  A length that `VERIFY_RESIZE` rejects leaves
the buffer as it was after the call before, a file that ends early fills only its front, and
`separate` reads on wherever the numbers in the buffer lead.

`IntactRecord` is the shape that `readMemory` takes a record to have.  The frame of such a record is
decoded from the bytes that its own call reads from the file, whatever calls were made before.
-/

namespace NaoSoccer

open StreamBuffer

/-! ## Records -/

/-- A record that can be taken apart: a header and blocks, and the names in the header. -/
structure IntactRecord where
  header : Frame
  blocks : List Frame
  names : List Frame
  /-- What stands behind the names in the header. -/
  behindNames : List UInt8
  /-- What stands behind the blocks. -/
  behindBlocks : List UInt8
  header_contents : header.contents =
    ByteMemory.encode 8 names.length ++ names.flatMap Frame.write ++ behindNames
  /-- All names are C strings, unless they are too many to be looked at. -/
  zero_mem : names.length ≤ maxExpectedModulesPerMemory → ∀ name ∈ names, 0 ∈ name.contents
  /-- Every block has a name, unless the blocks are not looked at. -/
  blocks_le : names.length ≤ maxExpectedModulesPerMemory → names ≠ [] →
    blocks.length ≤ names.length
  /-- The record is not too long for `VERIFY_RESIZE`. -/
  length_le : (ByteMemory.encode 8 (blocks.length + 1) ++ (header :: blocks).flatMap Frame.write ++
    behindBlocks).length ≤ 1000000000000

namespace IntactRecord

/-- The bytes of a record, without the length in front. -/
def bytes (r : IntactRecord) : List UInt8 :=
  ByteMemory.encode 8 (r.blocks.length + 1) ++ (r.header :: r.blocks).flatMap Frame.write ++
    r.behindBlocks

/-- The names as C strings. -/
def blockNames (r : IntactRecord) : List BlockName :=
  r.names.map fun name => name.contents.takeWhile (· ≠ 0)

/-- The buffers of the blocks. -/
def buffers (r : IntactRecord) : List StreamBuffer := r.blocks.map fun f => ofBytes f.contents

/-- The length of a record is one that `VERIFY_RESIZE` lets through. -/
lemma validRequest (r : IntactRecord) : ValidRequest r.bytes.length := by
  have hle : r.bytes.length ≤ 1000000000000 := r.length_le
  have hpos : 0 < r.bytes.length := by simp [bytes]
  unfold ValidRequest
  omega

variable (fresh : ℕ → UInt8)

/-- A buffer that holds a record is taken apart into the header and the blocks. -/
lemma separate_eq (r : IntactRecord) {sb : StreamBuffer} (h : sb.bytes = r.bytes) :
    separate fresh sb [] = .ok (ofBytes r.header.contents :: r.buffers) := by
  have hlength := r.length_le
  have hframes := Frame.le_length_flatMap_write (r.header :: r.blocks)
  simp only [List.length_append, ByteMemory.length_encode, List.length_cons] at hlength hframes
  have hbuffer : sb.buffer = ByteMemory.encode 8 (r.blocks.length + 1) ++
      (r.header :: r.blocks).flatMap Frame.write ++ (r.behindBlocks ++ sb.buffer.drop sb.size) := by
    rw [← List.append_assoc]
    exact (List.take_append_drop sb.size sb.buffer).symm.trans (congrArg (· ++ _) h)
  have hcount : r.blocks.length + 1 < 2 ^ 64 := by omega
  exact separate_frames fresh [] hcount rfl hbuffer
    (by rw [List.length_append, ByteMemory.length_encode]; omega)

/-- The names of the header are read, unless there are too many. -/
lemma readMemoryHeader_eq (r : IntactRecord) :
    LogReader.readMemoryHeader fresh (ofBytes r.header.contents) =
      .ok (if r.names.length > maxExpectedModulesPerMemory then none else some r.blockNames) := by
  have hheader : r.header.contents.length ≤ 1000000000000 := by
    rw [r.header.length_contents]
    split
    · rename_i hvalid
      unfold ValidRequest at hvalid
      omega
    · omega
  have hlength := congrArg List.length r.header_contents
  have hframes := Frame.le_length_flatMap_write r.names
  simp only [List.length_append, ByteMemory.length_encode] at hlength
  have hseparate : separate fresh (ofBytes r.header.contents) [] = _ :=
    separate_frames fresh [] (by omega) rfl r.header_contents (by rw [List.length_append, ByteMemory.length_encode]; omega)
  rw [LogReader.readMemoryHeader, hseparate, Outcome.ok_bind, List.nil_append, List.length_map]
  split
  · rfl
  · rename_i hle
    rw [LogReader.mapM_headerName (by simpa [ofBytes] using r.zero_mem (Nat.not_lt.mp hle)),
      List.map_map]
    rfl

end IntactRecord

namespace LogReader

variable {Content : BlockClass → Type} (codec : BlockCodec Content) (fresh : ℕ → UInt8)

/-! ## Filling a frame -/

/-- Filling a block from its buffer never leaves the memory. -/
lemma readBlock_ne_outOfBounds (lr : LogReader) (frame : ℤ) (memory : MemoryFrame Content)
    (name : BlockName) (buffer : StreamBuffer) :
    lr.readBlock codec frame memory name buffer ≠ .error .outOfBounds := by
  have hptr : ∀ memory : MemoryFrame Content,
      memory.getBlockPtrByName name ≠ .error .outOfBounds := by
    intro memory
    unfold MemoryFrame.getBlockPtrByName
    split
    · simp
    · split <;> simp
  have hcast : ∀ (block : MemoryBlock Content) cls,
      block.staticCast cls ≠ .error .outOfBounds := by
    intro block cls
    unfold MemoryBlock.staticCast
    split <;> simp
  have hread : ∀ found, blockToRead codec memory name found ≠ .error .outOfBounds := by
    intro found
    cases found with
    | some block => simp [blockToRead]
    | none =>
      simp only [blockToRead]
      split
      · simp
      · refine Outcome.bind_ne_error (hptr _) fun block _ => ?_
        cases block <;> simp
  unfold readBlock
  split
  · refine Outcome.bind_ne_error (hptr memory) fun found _ => ?_
    split
    · simp
    · split
      · refine Outcome.bind_ne_error (hread found) fun result _ => ?_
        obtain ⟨next, block⟩ := result
        cases block with
        | none => simp
        | some block => exact Outcome.bind_ne_error (hcast block _) fun _ _ => by simp
      · simp
  · simp

/-- Filling blocks from their buffers does not leave the memory if there are enough names. -/
lemma readBlocks_ne_outOfBounds (lr : LogReader) (frame : ℤ) (memory : MemoryFrame Content)
    {names : List BlockName} {buffers : List StreamBuffer} (h : buffers.length ≤ names.length) :
    lr.readBlocks codec frame memory names buffers ≠ .error .outOfBounds := by
  induction buffers generalizing memory names with
  | nil => cases names <;> exact nofun
  | cons buffer buffers ih =>
    cases names with
    | nil => simp at h
    | cons name names =>
      exact Outcome.bind_ne_error (readBlock_ne_outOfBounds codec lr frame memory name buffer)
        fun next _ => ih next (by simpa using h)

/-- What is read into blocks depends on the directory and the enabled blocks of the reader. -/
lemma readBlocks_congr {lr lr' : LogReader} (hdirectory : lr'.directory = lr.directory)
    (henabled : lr'.enabledBlocks = lr.enabledBlocks) (frame : ℤ) (memory : MemoryFrame Content)
    (names : List BlockName) (buffers : List StreamBuffer) :
    lr'.readBlocks codec frame memory names buffers =
      lr.readBlocks codec frame memory names buffers := by
  have hblock : ∀ (memory : MemoryFrame Content) name buffer,
      lr'.readBlock codec frame memory name buffer =
        lr.readBlock codec frame memory name buffer := by
    intro memory name buffer
    simp only [readBlock, context, hdirectory, henabled]
  induction buffers generalizing memory names with
  | nil => cases names <;> rfl
  | cons buffer buffers ih =>
    cases names with
    | nil => rfl
    | cons name names => simp only [readBlocks, hblock, ih]

end LogReader

/-- The frame of a record, as the reader of a directory decodes it. -/
def IntactRecord.frame {Content : BlockClass → Type} (codec : BlockCodec Content)
    (r : IntactRecord) (lr : LogReader) (frame : ℤ) : Except Fault (MemoryFrame Content) :=
  if r.names.length > maxExpectedModulesPerMemory ∨ r.names = [] then .ok (.empty .toolMem)
  else lr.readBlocks codec frame (.empty .toolMem) r.blockNames r.buffers

namespace LogReader

variable {Content : BlockClass → Type} (codec : BlockCodec Content) (fresh : ℕ → UInt8)

/-- The frame of a record is decoded without leaving the memory. -/
lemma frame_ne_outOfBounds (r : IntactRecord) (lr : LogReader) (frame : ℤ) :
    r.frame codec lr frame ≠ .error .outOfBounds := by
  unfold IntactRecord.frame
  split
  · exact nofun
  · rename_i hread
    obtain ⟨hle, hne⟩ := not_or.mp hread
    refine readBlocks_ne_outOfBounds codec lr frame _ ?_
    simpa [IntactRecord.buffers, IntactRecord.blockNames] using
      r.blocks_le (Nat.not_lt.mp hle) hne

/-- A main buffer that holds a record is read as the frame of this record. -/
lemma readMemory_record (r : IntactRecord) (lr lr' : LogReader)
    (hdirectory : lr'.directory = lr.directory) (henabled : lr'.enabledBlocks = lr.enabledBlocks)
    (hbytes : lr'.mainBuffer.bytes = r.bytes) (frame : ℤ) :
    ∃ answer, lr'.readMemory codec fresh (.empty .toolMem) frame =
      (do let memory ← r.frame codec lr frame; .ok (memory, answer)) := by
  have hcongr := readBlocks_congr codec hdirectory henabled frame
  rw [readMemory, r.separate_eq fresh hbytes, Outcome.ok_bind]
  simp only [r.readMemoryHeader_eq fresh, Outcome.ok_bind]
  by_cases hmany : r.names.length > maxExpectedModulesPerMemory
  · exact ⟨false, by rw [if_pos hmany, IntactRecord.frame, if_pos (Or.inl hmany)]; rfl⟩
  · rw [if_neg hmany]
    cases hnames : r.names with
    | nil =>
      have hblockNames : r.blockNames = [] := by rw [IntactRecord.blockNames, hnames]; rfl
      refine ⟨false, ?_⟩
      rw [IntactRecord.frame, if_pos (Or.inr hnames), hblockNames]
      rfl
    | cons name names =>
      have hne : r.names ≠ [] := by rw [hnames]; exact List.cons_ne_nil _ _
      refine ⟨true, ?_⟩
      rw [IntactRecord.frame, if_neg (not_or.mpr ⟨hmany, hne⟩), ← hcongr]
      have hblockNames : r.blockNames ≠ [] := by
        rw [IntactRecord.blockNames]
        exact fun h => hne (List.map_eq_nil_iff.mp h)
      cases hcases : r.blockNames with
      | nil => exact absurd hcases hblockNames
      | cons first rest => rfl

/-! ## Reading frames -/

/-- A record stands in the log at the offset of a frame. -/
def Holds (lr : LogReader) (frame : ℤ) (r : IntactRecord) : Prop :=
  ∃ position rest, lr.mdata.offsets[(frame % 2 ^ 64).toNat]? = some position ∧
    lr.logFile.bytes.drop position = ByteMemory.encode 8 r.bytes.length ++ r.bytes ++ rest

/-- A reader has the same log as another one, and its stream has not failed. -/
structure Continues (lr lr' : LogReader) : Prop where
  directory_eq : lr'.directory = lr.directory
  mdata_eq : lr'.mdata = lr.mdata
  bytes_eq : lr'.logFile.bytes = lr.logFile.bytes
  enabledBlocks_eq : lr'.enabledBlocks = lr.enabledBlocks
  failed_eq : lr'.logFile.failed = false

/-- The records of a log stay where they are. -/
lemma Continues.holds_iff {lr lr' : LogReader} (h : Continues lr lr') {frame : ℤ}
    {r : IntactRecord} : lr'.Holds frame r ↔ lr.Holds frame r := by
  rw [Holds, Holds, h.mdata_eq, h.bytes_eq]

/-- A reader that continues one that continues. -/
lemma Continues.trans {lr lr' lr'' : LogReader} (h : Continues lr lr') (h' : Continues lr' lr'') :
    Continues lr lr'' where
  directory_eq := h'.directory_eq.trans h.directory_eq
  mdata_eq := h'.mdata_eq.trans h.mdata_eq
  bytes_eq := h'.bytes_eq.trans h.bytes_eq
  enabledBlocks_eq := h'.enabledBlocks_eq.trans h.enabledBlocks_eq
  failed_eq := h'.failed_eq

/-- The frame of a record does not depend on what has been read before. -/
lemma Continues.frame_eq {lr lr' : LogReader} (h : Continues lr lr') (r : IntactRecord)
    (frame : ℤ) : r.frame codec lr' frame = r.frame codec lr frame := by
  rw [IntactRecord.frame, IntactRecord.frame,
    readBlocks_congr codec h.directory_eq h.enabledBlocks_eq]

/-- The bytes behind the length that the file delivers for a frame. -/
def delivered (lr : LogReader) (position : ℕ) : List UInt8 :=
  let (n, is) := (lr.logFile.seekg position).read 8
  let length := ByteMemory.decode (n ++ (allocate fresh 8).drop n.length)
  if ValidRequest length then (is.read length).1 else []

/-- A record is read into the main buffer, and the reader can go on. -/
lemma readStream_record {lr : LogReader} (hok : lr.logFile.failed = false) {r : IntactRecord}
    {position : ℕ} {rest : List UInt8} (hdrop : lr.logFile.bytes.drop position =
      ByteMemory.encode 8 r.bytes.length ++ r.bytes ++ rest) :
    (lr.mainBuffer.readStream fresh (lr.logFile.seekg position)).1.bytes = r.bytes ∧
      (lr.mainBuffer.readStream fresh (lr.logFile.seekg position)).2.bytes = lr.logFile.bytes ∧
      (lr.mainBuffer.readStream fresh (lr.logFile.seekg position)).2.failed = false ∧
      lr.delivered fresh position = r.bytes := by
  set is : InputStream := ⟨lr.logFile.bytes, position, false⟩ with his
  have hseek : lr.logFile.seekg position = is := by
    simp only [InputStream.seekg, hok, Bool.false_eq_true, if_false, his]
  have hremaining : is.remaining = (ofBytes r.bytes).write ++ rest := by
    rw [InputStream.remaining, his, hdrop, write, bytes_ofBytes, size_ofBytes]
  have hgood : is.failed = false := rfl
  obtain ⟨hbytes, -, hstream⟩ := readStream_write fresh lr.mainBuffer hgood hremaining (by simpa using r.validRequest)
  rw [hseek, hbytes, hstream, bytes_ofBytes]
  refine ⟨rfl, rfl, rfl, ?_⟩
  have hfront : is.remaining = ByteMemory.encode 8 r.bytes.length ++ (r.bytes ++ rest) := by
    rw [InputStream.remaining, his, hdrop, List.append_assoc]
  have hcount := InputStream.read_eq hgood hfront
  have hmiddle := InputStream.remaining_advance false hfront
  rw [ByteMemory.length_encode] at hcount hmiddle
  have hbody : InputStream.read { is with position := is.position + 8, failed := false } _ = _ :=
    InputStream.read_eq rfl hmiddle
  have hvalid := r.validRequest
  have hlt : r.bytes.length < 256 ^ 8 := by
    unfold ValidRequest at hvalid
    omega
  have hnone : (allocate fresh 8).drop 8 = [] := List.drop_eq_nil_of_le (by simp [allocate])
  simp only [delivered, hseek, hcount, ByteMemory.length_encode, hnone, List.append_nil,
    ByteMemory.decode_encode hlt, if_pos hvalid, hbody]

/-- Reading a frame whose record is intact gives the frame of the record. -/
lemma readFrame_holds {lr : LogReader} (hok : lr.logFile.failed = false) {frame : ℤ}
    {r : IntactRecord} (h : lr.Holds frame r) :
    ∃ lr', Continues lr lr' ∧ lr.readFrame codec fresh frame =
      (do let memory ← r.frame codec lr frame; .ok (memory, lr')) := by
  obtain ⟨position, rest, hoffset, hdrop⟩ := h
  obtain ⟨hbytes, hlog, hfailed, -⟩ := readStream_record fresh hok hdrop
  set lr' : LogReader := { lr with
    mainBuffer := (lr.mainBuffer.readStream fresh (lr.logFile.seekg position)).1
    logFile := (lr.mainBuffer.readStream fresh (lr.logFile.seekg position)).2 } with hlr'
  obtain ⟨answer, hread⟩ := readMemory_record codec fresh r lr lr' rfl rfl hbytes frame
  refine ⟨lr', ⟨rfl, rfl, hlog, rfl, hfailed⟩, ?_⟩
  simp only [readFrame, hoffset, inBounds, Outcome.ok_bind, ← hlr', hread]
  cases r.frame codec lr frame <;> rfl

/-- What stands at the offset of a frame is one record only, as far as its frame is concerned. -/
lemma frame_unique {lr : LogReader} (hok : lr.logFile.failed = false) {frame : ℤ}
    {r s : IntactRecord} (hr : lr.Holds frame r) (hs : lr.Holds frame s) :
    r.frame codec lr frame = s.frame codec lr frame := by
  obtain ⟨lr₁, -, hread₁⟩ := readFrame_holds codec (fun _ => 0) hok hr
  obtain ⟨lr₂, -, hread₂⟩ := readFrame_holds codec (fun _ => 0) hok hs
  have hframe : ∀ (result : Except Fault (MemoryFrame Content)) (next : LogReader),
      (do let memory ← result; Except.ok (memory, next)).map Prod.fst = result := by
    intro result next
    cases result <;> rfl
  rw [← hframe (r.frame codec lr frame) lr₁, ← hread₁, hread₂, hframe]

/-! ## Isolated calls -/

/-- A call of `readFrame` does not leave the memory, and a frame that it returns is decoded from
the bytes that the file delivers during the call, whatever the rest of the memory holds. -/
def Isolated (lr : LogReader) (frame : ℤ) : Prop :=
  lr.readFrame codec fresh frame ≠ .error .outOfBounds ∧
    ∀ memory lr', lr.readFrame codec fresh frame = .ok (memory, lr') →
      ∃ position, lr.mdata.offsets[(frame % 2 ^ 64).toNat]? = some position ∧
        ∀ unread : ℕ → UInt8, ∃ answer,
          { lr with mainBuffer := ofBytes (lr.delivered fresh position) }.readMemory codec unread
            (.empty .toolMem) frame = .ok (memory, answer)

/-- A call for a frame whose record is intact is isolated. -/
lemma isolated_of_holds {lr : LogReader} (hok : lr.logFile.failed = false) {frame : ℤ}
    {r : IntactRecord} (h : lr.Holds frame r) : lr.Isolated codec fresh frame := by
  obtain ⟨lr', -, hread⟩ := readFrame_holds codec fresh hok h
  rw [Isolated, hread]
  refine ⟨Outcome.bind_ne_error (frame_ne_outOfBounds codec r lr frame) fun _ _ => nofun, ?_⟩
  intro memory lr'' hmemory
  obtain ⟨position, rest, hoffset, hdrop⟩ := h
  obtain ⟨-, -, -, hdelivered⟩ := readStream_record fresh hok hdrop
  refine ⟨position, hoffset, fun unread => ?_⟩
  obtain ⟨answer, hdecode⟩ := readMemory_record codec unread r lr
    { lr with mainBuffer := ofBytes (lr.delivered fresh position) } rfl rfl
    ((bytes_ofBytes _).trans hdelivered) frame
  obtain ⟨found, hframe, hfound⟩ := Outcome.bind_eq_ok_iff.mp hmemory
  obtain ⟨rfl, -⟩ := Prod.mk.inj (Except.ok.inj hfound)
  exact ⟨answer, by rw [hdecode, hframe, Outcome.ok_bind]⟩

/-- Reading frames whose records are intact leaves the log and the stream as they are. -/
lemma readFrames_continues {lr lr' : LogReader} (hok : lr.logFile.failed = false)
    {frames : List ℕ} (hframes : ∀ i ∈ frames, ∃ r, lr.Holds ((i : ℤ).bmod (2 ^ 32)) r)
    (hrun : lr.readFrames codec fresh frames = .ok lr') : Continues lr lr' := by
  induction frames generalizing lr with
  | nil =>
    obtain rfl := Except.ok.inj hrun
    exact ⟨rfl, rfl, rfl, rfl, hok⟩
  | cons i frames ih =>
    obtain ⟨r, hr⟩ := hframes i (by simp)
    obtain ⟨next, hnext, hread⟩ := readFrame_holds codec fresh hok hr
    obtain ⟨⟨memory, next'⟩, hframe, hrest⟩ := Outcome.bind_eq_ok_iff.mp hrun
    rw [hread] at hframe
    obtain ⟨found, -, hfound⟩ := Outcome.bind_eq_ok_iff.mp hframe
    obtain ⟨-, rfl⟩ := Prod.mk.inj (Except.ok.inj hfound)
    refine hnext.trans (ih hnext.failed_eq (fun j hj => ?_) hrest)
    obtain ⟨r', hr'⟩ := hframes j (by simp [hj])
    exact ⟨r', hnext.holds_iff.mpr hr'⟩

/-- **Calls for intact records are isolated**, whatever frames with intact records have been read
before. -/
theorem isolated_after_readFrames {lr lr' : LogReader} (hok : lr.logFile.failed = false)
    {earlier : List ℕ} (hearlier : ∀ i ∈ earlier, ∃ r, lr.Holds ((i : ℤ).bmod (2 ^ 32)) r)
    (hrun : lr.readFrames codec fresh earlier = .ok lr') {i : ℕ}
    (hi : ∃ r, lr.Holds ((i : ℤ).bmod (2 ^ 32)) r) :
    lr'.Isolated codec fresh ((i : ℤ).bmod (2 ^ 32)) := by
  have hcontinues := readFrames_continues codec fresh hok hearlier hrun
  obtain ⟨r, hr⟩ := hi
  exact isolated_of_holds codec fresh hcontinues.failed_eq (hcontinues.holds_iff.mpr hr)

/-! ## An intact record, and a record without a length -/

/-- A record with one block. -/
def odometryRecord : IntactRecord where
  header := ⟨25, ByteMemory.encode 8 1 ++ (ByteMemory.encode 8 9 ++ (blockName "odometry" ++ [0])),
    by decide, by decide⟩
  blocks := [⟨3, [1, 2, 3], by decide, by decide⟩]
  names := [⟨9, blockName "odometry" ++ [0], by decide, by decide⟩]
  behindNames := []
  behindBlocks := []
  header_contents := by decide
  zero_mem := by decide
  blocks_le := by decide
  length_le := by decide

/-- A reader of a log with the record at the offset of frame `0` and the length `0` at the offset of
frame `1`. -/
def odometryReader : LogReader where
  directory := []
  mdata := ⟨2, [0, 60]⟩
  logFile := .ofBytes (ByteMemory.encode 8 52 ++ odometryRecord.bytes ++ ByteMemory.encode 8 0)
  mainBuffer := .empty
  enabledBlocks := []

/-- The record is where the metadata says. -/
lemma holds_odometryReader : odometryReader.Holds 0 odometryRecord :=
  ⟨0, ByteMemory.encode 8 0, rfl, by decide⟩

/-- Reading the record twice is isolated the second time. -/
theorem isolated_odometryReader : ∃ lr',
    odometryReader.readFrames flatCodec (fun _ => 0) [0] = .ok lr' ∧
      lr'.Isolated flatCodec (fun _ => 0) (((0 : ℕ) : ℤ).bmod (2 ^ 32)) := by
  have hok : (odometryReader.readFrames flatCodec (fun _ => 0) [0]).isOk = true := by
    decide +kernel
  cases hrun : odometryReader.readFrames flatCodec (fun _ => 0) [0] with
  | error fault =>
    rw [hrun] at hok
    exact nomatch hok
  | ok lr' =>
    refine ⟨lr', rfl, isolated_after_readFrames flatCodec _ rfl ?_ hrun ⟨odometryRecord, ?_⟩⟩
    · intro i hi
      obtain rfl := List.mem_singleton.mp hi
      exact ⟨odometryRecord, holds_odometryReader⟩
    · exact holds_odometryReader

/-- **A record of length `0` yields the blocks of the record that was read before**: frame `1` of
the log has the block of frame `0`, and nothing of it is delivered by the file. -/
theorem not_isolated_odometryReader : ∃ lr' memory lr'' block,
    odometryReader.readFrames flatCodec (fun _ => 0) [0] = .ok lr' ∧
      lr'.readFrame flatCodec (fun _ => 0) (((1 : ℕ) : ℤ).bmod (2 ^ 32)) = .ok (memory, lr'') ∧
      memory.blocks[blockName "odometry"]? = some block ∧ block.content.1 = [1, 2, 3] ∧
      ¬ lr'.Isolated flatCodec (fun _ => 0) (((1 : ℕ) : ℤ).bmod (2 ^ 32)) := by
  have hdata : ((odometryReader.readFrames flatCodec (fun _ => 0) [0]).bind fun lr' =>
      (lr'.readFrame flatCodec (fun _ => 0) 1).map fun result =>
        (result.1.blocks[blockName "odometry"]?.map fun block => block.content.1)).toOption =
      some (some [1, 2, 3]) := by
    decide +kernel
  cases hrun : odometryReader.readFrames flatCodec (fun _ => 0) [0] with
  | error fault =>
    rw [hrun] at hdata
    simp [Except.bind, Except.toOption] at hdata
  | ok lr' =>
    have hcontinues := readFrames_continues flatCodec _ rfl
      (by
        intro i hi
        obtain rfl := List.mem_singleton.mp hi
        exact ⟨odometryRecord, holds_odometryReader⟩) hrun
    cases hread : lr'.readFrame flatCodec (fun _ => 0) 1 with
    | error fault =>
      rw [hrun] at hdata
      simp [Except.bind, hread, Except.map, Except.toOption] at hdata
    | ok result =>
      obtain ⟨memory, lr''⟩ := result
      rw [hrun] at hdata
      simp only [Except.bind, hread, Except.map, Except.toOption, Option.some.injEq,
        Option.map_eq_some_iff] at hdata
      obtain ⟨block, hblock, hcontent⟩ := hdata
      refine ⟨lr', memory, lr'', block, rfl, hread, hblock, hcontent, fun hisolated => ?_⟩
      obtain ⟨position, hoffset, hdecode⟩ := hisolated.2 memory lr'' hread
      obtain ⟨answer, hanswer⟩ := hdecode fun _ => 0
      have hposition : position = 60 := by
        rw [hcontinues.mdata_eq] at hoffset
        exact (Option.some.inj hoffset).symm
      have hdelivered : lr'.delivered (fun _ => 0) position = [] := by
        have hseek : lr'.logFile.seekg 60 = ⟨odometryReader.logFile.bytes, 60, false⟩ := by
          rw [InputStream.seekg, hcontinues.failed_eq, if_neg Bool.false_ne_true,
            hcontinues.bytes_eq, ← hcontinues.failed_eq]
        rw [hposition, delivered, hseek]
        rfl
      rw [hdelivered] at hanswer
      cases hanswer

end LogReader

end NaoSoccer
