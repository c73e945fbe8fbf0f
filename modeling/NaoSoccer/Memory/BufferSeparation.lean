import NaoSoccer.Memory.StreamBuffer

/-!
# Taking apart a buffer with any contents

`separate` believes the number of pieces and the length of every piece as they stand in the buffer;
it never compares them to the size.  Only `VERIFY_RESIZE` looks at a length: a piece of an invalid
length is empty, and the next one is expected right behind its number.

To read nothing but the contents is to succeed where no other memory is there.  That is the case
exactly if the contents are what a list of pieces is written as, with anything behind.
-/

namespace NaoSoccer

namespace StreamBuffer

/-! ## Frames -/

/-- A length, and behind it as many bytes as `separate` takes for it. -/
structure Frame where
  /-- The length as it stands in the buffer. -/
  length : ℕ
  /-- The bytes that are read for it. -/
  contents : List UInt8
  /-- The length is a `uint64_t`. -/
  length_lt : length < 2 ^ 64
  /-- Nothing is read for a length that `VERIFY_RESIZE` rejects. -/
  length_contents : contents.length = if ValidRequest length then length else 0

namespace Frame

/-- The bytes of a frame. -/
def write (f : Frame) : List UInt8 := ByteMemory.encode 8 f.length ++ f.contents

/-- The bytes of a frame are eight more than its contents. -/
@[simp] lemma length_write (f : Frame) : f.write.length = 8 + f.contents.length := by
  simp [write]

/-- The frames of a list take eight bytes each at least. -/
lemma le_length_flatMap_write (fs : List Frame) : fs.length * 8 ≤ (fs.flatMap write).length := by
  induction fs with
  | nil => simp
  | cons f fs ih =>
    simp only [List.length_cons, List.flatMap_cons, List.length_append, length_write]
    omega

variable (fresh : ℕ → UInt8)

/-- The request for a frame gives its contents. -/
lemma read_eq (f : Frame) (post : List UInt8) :
    empty.read fresh (f.contents ++ post) f.length = .ok (ofBytes f.contents) := by
  have hlength := f.length_contents
  by_cases hvalid : ValidRequest f.length
  · rw [if_pos hvalid] at hlength
    have hread : empty.read fresh (f.contents ++ post) f.contents.length = _ :=
      read_empty fresh post (by rwa [hlength])
    rwa [hlength] at hread
  · rw [if_neg hvalid] at hlength
    rw [read_invalid fresh hvalid, List.length_eq_zero_iff.mp hlength]
    rfl

/-- What a request reads are the contents of a frame that stands there. -/
lemma exists_of_read {data : List UInt8} {n : ℕ} {sb : StreamBuffer} (hn : n < 2 ^ 64)
    (h : empty.read fresh data n = .ok sb) :
    ∃ f : Frame, ∃ rest, f.length = n ∧ data = f.contents ++ rest ∧ sb = ofBytes f.contents := by
  by_cases hvalid : ValidRequest n
  · have hlength : n ≤ data.length := by
      by_contra hlt
      have hload : ByteMemory.load data 0 n = none := if_neg (by omega)
      unfold read at h
      rw [if_pos hvalid] at h
      split at h
      · exact nomatch h
      · rename_i source hsome
        rw [hload] at hsome
        exact nomatch hsome
    have htake : (data.take n).length = n := List.length_take_of_le hlength
    let f : Frame := ⟨n, data.take n, hn, by rw [htake, if_pos hvalid]⟩
    have hdata : data = f.contents ++ data.drop n := (List.take_append_drop n data).symm
    refine ⟨f, data.drop n, rfl, hdata, ?_⟩
    have hread := f.read_eq fresh (data.drop n)
    rw [← hdata] at hread
    exact Except.ok.inj (h.symm.trans hread)
  · let f : Frame := ⟨n, [], hn, by rw [if_neg hvalid]; rfl⟩
    rw [read_invalid fresh hvalid] at h
    exact ⟨f, data, rfl, rfl, (Except.ok.inj h).symm⟩

end Frame

/-! ## The loop of `separate` -/

section Loop

variable (fresh : ℕ → UInt8)

/-- The loop reads the frames that stand in the memory. -/
lemma readPieces_frames (fs : List Frame) {pre post : List UInt8}
    (hfit : (pre ++ fs.flatMap Frame.write).length < 2 ^ 64) :
    readPieces fresh (pre ++ fs.flatMap Frame.write ++ post) pre.length fs.length =
      .ok (fs.map fun f => ofBytes f.contents) := by
  induction fs generalizing pre with
  | nil => rfl
  | cons f fs ih =>
    simp only [List.flatMap_cons, List.length_append, Frame.length_write] at hfit
    set mem := pre ++ (f :: fs).flatMap Frame.write ++ post with hmem
    have hload : ByteMemory.load mem pre.length 8 = some (ByteMemory.encode 8 f.length) := by
      simp only [hmem, List.flatMap_cons, Frame.write, List.append_assoc]
      exact ByteMemory.load_append rfl (by simp)
    have hdrop : mem.drop (pre.length + 8) = f.contents ++ (fs.flatMap Frame.write ++ post) := by
      have hfront : pre.length + 8 = (pre ++ ByteMemory.encode 8 f.length).length := by simp
      have hassoc : mem = (pre ++ ByteMemory.encode 8 f.length) ++
          (f.contents ++ (fs.flatMap Frame.write ++ post)) := by
        simp [hmem, Frame.write]
      rw [hfront, hassoc, List.drop_left]
    have hdecode : ByteMemory.decode (ByteMemory.encode 8 f.length) = f.length :=
      ByteMemory.decode_encode (by have := f.length_lt; omega)
    have hnext : (pre.length + 8) % 2 ^ 64 = pre.length + 8 := Nat.mod_eq_of_lt (by omega)
    have hbehind : (pre.length + 8 + f.contents.length) % 2 ^ 64 = (pre ++ f.write).length := by
      rw [Nat.mod_eq_of_lt (by omega)]
      simp [add_assoc]
    have hwhole : mem = pre ++ f.write ++ fs.flatMap Frame.write ++ post := by simp [hmem]
    have hrest := @ih (pre ++ f.write)
      (by simp only [List.length_append, Frame.length_write]; omega)
    rw [← hwhole, ← hbehind] at hrest
    simp only [List.length_cons, readPieces, hload, inBounds, Outcome.ok_bind, hnext, hdrop,
      hdecode, f.read_eq, size_ofBytes, hrest, List.map_cons]

/-- Where the loop gets through, there are as many frames as pieces. -/
lemma exists_frames_of_readPieces {mem : List UInt8} {offset count : ℕ}
    {pieces : List StreamBuffer} (hfit : mem.length < 2 ^ 64) (hle : offset ≤ mem.length)
    (h : readPieces fresh mem offset count = .ok pieces) :
    ∃ fs : List Frame, ∃ rest, fs.length = count ∧
      mem.drop offset = fs.flatMap Frame.write ++ rest := by
  induction count generalizing offset pieces with
  | zero => exact ⟨[], mem.drop offset, rfl, rfl⟩
  | succ count ih =>
    simp only [readPieces, Outcome.bind_eq_ok_iff] at h
    obtain ⟨bytes, hbytes, piece, hpiece, pieces', hpieces, -⟩ := h
    obtain ⟨hroom, hload⟩ := ByteMemory.load_eq_some_iff.mp (inBounds_eq_ok_iff.mp hbytes)
    have hlength : bytes.length = 8 := by
      rw [hload, List.length_take, List.length_drop]
      omega
    have hdecode : ByteMemory.decode bytes < 2 ^ 64 := by
      have hlt := ByteMemory.decode_lt bytes
      rw [hlength] at hlt
      exact hlt
    have hnext : (offset + 8) % 2 ^ 64 = offset + 8 := Nat.mod_eq_of_lt (by omega)
    rw [hnext] at hpiece hpieces
    obtain ⟨f, behind, hf, hdata, rfl⟩ := Frame.exists_of_read fresh hdecode hpiece
    have hcontents : offset + 8 + f.contents.length ≤ mem.length := by
      have hlen := congrArg List.length hdata
      rw [List.length_drop, List.length_append] at hlen
      omega
    rw [size_ofBytes, Nat.mod_eq_of_lt (by omega)] at hpieces
    obtain ⟨fs, rest, hcount, hrest⟩ := ih hcontents hpieces
    refine ⟨f :: fs, rest, by rw [List.length_cons, hcount], ?_⟩
    have hwrite : ByteMemory.encode 8 f.length = (mem.drop offset).take 8 := by
      rw [hf, ← hload, ← hlength, ByteMemory.encode_decode]
    have hbehind : behind = fs.flatMap Frame.write ++ rest := by
      rw [← hrest, ← List.drop_drop, hdata, List.drop_left]
    calc mem.drop offset
        = (mem.drop offset).take 8 ++ mem.drop (offset + 8) := by
          rw [← List.drop_drop, List.take_append_drop]
      _ = f.write ++ behind := by rw [hdata, ← hwrite, Frame.write, List.append_assoc]
      _ = (f :: fs).flatMap Frame.write ++ rest := by
          rw [hbehind, List.flatMap_cons, List.append_assoc]

/-- The pieces of a packed buffer are the contents of its frames, whatever stands behind the
contents. -/
lemma separate_frames {sb : StreamBuffer} (separated : List StreamBuffer) {count : ℕ}
    {fs : List Frame} {rest : List UInt8} (hcount : count < 2 ^ 64)
    (hfs : fs.length = count - separated.length)
    (hbuffer : sb.buffer = ByteMemory.encode 8 count ++ fs.flatMap Frame.write ++ rest)
    (hfit : (ByteMemory.encode 8 count ++ fs.flatMap Frame.write).length < 2 ^ 64) :
    separate fresh sb separated =
      .ok (separated ++ fs.map fun f => ofBytes f.contents) := by
  have hload : ByteMemory.load sb.buffer 0 8 = some (ByteMemory.encode 8 count) := by
    rw [hbuffer, List.append_assoc]
    exact ByteMemory.load_front (ByteMemory.length_encode 8 _).symm
  have hpieces : readPieces fresh (ByteMemory.encode 8 count ++ fs.flatMap Frame.write ++ rest)
      (ByteMemory.encode 8 count).length fs.length = _ := readPieces_frames fresh fs hfit
  rw [ByteMemory.length_encode, ← hbuffer, hfs] at hpieces
  have hdecode : ByteMemory.decode (ByteMemory.encode 8 count) = count :=
    ByteMemory.decode_encode (by omega)
  simp only [separate, hload, inBounds, Outcome.ok_bind, hdecode, hpieces]

end Loop

/-! ## Packed buffers -/

/-- Buffers, none of them too large, are written as frames with their contents. -/
lemma exists_frames {buffers : List StreamBuffer} (hsize : ∀ b ∈ buffers, b.size ≤ 1000000000000) :
    ∃ fs : List Frame, fs.length = buffers.length ∧ fs.flatMap Frame.write = frames buffers ∧
      (fs.map fun f => ofBytes f.contents) = buffers.map fun b => ofBytes b.bytes := by
  induction buffers with
  | nil => exact ⟨[], rfl, rfl, rfl⟩
  | cons b bs ih =>
    have hb : b.size ≤ 1000000000000 := hsize b (by simp)
    obtain ⟨fs, hlength, hwrite, hcontents⟩ := ih fun c hc => hsize c (by simp [hc])
    let f : Frame := ⟨b.size, b.bytes, by omega, by
      rw [length_bytes]
      split
      · rfl
      · rename_i hinvalid
        unfold ValidRequest at hinvalid
        omega⟩
    refine ⟨f :: fs, by simp [hlength], ?_, by simp [f, hcontents]⟩
    rw [List.flatMap_cons, hwrite, frames_cons]
    rfl

section Packed

variable (fresh : ℕ → UInt8)

/-- Taking apart a packed list of buffers, none of them too large, gives their contents back. -/
theorem separate_packed {sb : StreamBuffer} {buffers : List StreamBuffer}
    (hbytes : sb.bytes = packed buffers) (hsize : ∀ b ∈ buffers, b.size ≤ 1000000000000)
    (hfit : (packed buffers).length < 2 ^ 64) :
    separate fresh sb [] = .ok (buffers.map fun b => ofBytes b.bytes) := by
  obtain ⟨fs, hlength, hwrite, hcontents⟩ := exists_frames hsize
  have hbuffer : sb.buffer = packed buffers ++ sb.buffer.drop sb.size := by
    rw [← hbytes, bytes, List.take_append_drop]
  have hframes := length_frames buffers
  rw [length_packed] at hfit
  rw [packed, ← hwrite] at hbuffer
  rw [separate_frames fresh [] (by omega) (by simpa using hlength) hbuffer
    (by simp only [List.length_append, ByteMemory.length_encode, hwrite]; omega), hcontents,
    List.nil_append]

/-- Expanding a buffer that holds packed buffers, none of them too large, makes them its
children. -/
theorem expand_packed {sb : StreamBuffer} {buffers : List StreamBuffer}
    (hbytes : sb.bytes = packed buffers) (hchildren : sb.children = [])
    (hsize : ∀ b ∈ buffers, b.size ≤ 1000000000000) (hfit : (packed buffers).length < 2 ^ 64) :
    sb.expand fresh = .ok ⟨0, [], buffers.map fun b => ofBytes b.bytes, le_rfl⟩ := by
  rw [expand, hchildren, separate_packed fresh hbytes hsize hfit]
  rfl

end Packed

/-! ## Reading only the contents -/

/-- The contents of the buffer are a number of pieces, from which on `present` pieces are missing,
the frames of the missing pieces, and anything behind. -/
def IsPacked (contents : List UInt8) (present : ℕ) : Prop :=
  ∃ count : ℕ, ∃ fs : List Frame, ∃ rest : List UInt8, count < 2 ^ 64 ∧
    fs.length = count - present ∧
    contents = ByteMemory.encode 8 count ++ fs.flatMap Frame.write ++ rest

section Contents

variable (fresh : ℕ → UInt8)

/-- `separate` reads nothing but the contents of the buffer: it succeeds where there is no other
memory, with the same pieces as in the memory of the buffer, and these are not more than the size
allows. -/
def ReadsContents (sb : StreamBuffer) (separated : List StreamBuffer) : Prop :=
  ∃ pieces, separate fresh (ofBytes sb.bytes) separated = .ok pieces ∧
    separate fresh sb separated = .ok pieces ∧
    pieces.length ≤ separated.length + sb.size / 8

/-- A buffer from whose contents alone the pieces are read is packed. -/
lemma isPacked_of_separate {contents : List UInt8} {separated pieces : List StreamBuffer}
    (hfit : contents.length < 2 ^ 64)
    (h : separate fresh (ofBytes contents) separated = .ok pieces) :
    IsPacked contents separated.length := by
  simp only [separate, Outcome.bind_eq_ok_iff] at h
  obtain ⟨bytes, hbytes, pieces', hpieces, -⟩ := h
  obtain ⟨hroom, hload⟩ := ByteMemory.load_eq_some_iff.mp (inBounds_eq_ok_iff.mp hbytes)
  have hcontents : (ofBytes contents).buffer = contents := rfl
  rw [hcontents] at hroom hload hpieces
  have hlength : bytes.length = 8 := by
    rw [hload, List.drop_zero, List.length_take]
    omega
  have hdecode : ByteMemory.decode bytes < 2 ^ 64 := by
    have hlt := ByteMemory.decode_lt bytes
    rw [hlength] at hlt
    exact hlt
  obtain ⟨fs, rest, hfs, hdrop⟩ := exists_frames_of_readPieces fresh hfit (by omega) hpieces
  refine ⟨ByteMemory.decode bytes, fs, rest, hdecode, hfs, ?_⟩
  have hfront : ByteMemory.encode 8 (ByteMemory.decode bytes) = contents.take 8 := by
    rw [← hlength, ByteMemory.encode_decode, hload, List.drop_zero, List.length_take_of_le hroom]
  rw [List.append_assoc, ← hdrop, hfront, List.take_append_drop]

/-- `separate` reads only the contents of a buffer, and no more pieces than the size allows,
exactly if the contents are packed. -/
theorem readsContents_iff (sb : StreamBuffer) (separated : List StreamBuffer)
    (hfit : sb.size < 2 ^ 64) :
    ReadsContents fresh sb separated ↔ IsPacked sb.bytes separated.length := by
  constructor
  · rintro ⟨pieces, hpieces, -, -⟩
    exact isPacked_of_separate fresh (by rwa [length_bytes]) hpieces
  · rintro ⟨count, fs, rest, hcount, hfs, hcontents⟩
    have hlength := congrArg List.length hcontents
    rw [length_bytes, List.length_append] at hlength
    have hbuffer : sb.buffer = ByteMemory.encode 8 count ++ fs.flatMap Frame.write ++
        (rest ++ sb.buffer.drop sb.size) := by
      rw [← List.append_assoc, ← hcontents, bytes, List.take_append_drop]
    refine ⟨_, separate_frames fresh separated hcount hfs hcontents (by omega),
      separate_frames fresh separated hcount hfs hbuffer (by omega), ?_⟩
    have hframes := Frame.le_length_flatMap_write fs
    simp only [List.length_append, ByteMemory.length_encode] at hlength
    rw [List.length_append, List.length_map]
    omega

/-- Two empty pieces, of which one has a length that is rejected, are read from the contents. -/
theorem readsContents_rejected :
    ReadsContents (fun _ => 0)
      (ofBytes (ByteMemory.encode 8 2 ++ ByteMemory.encode 8 0 ++ ByteMemory.encode 8 (2 ^ 63)))
      [] := by
  refine (readsContents_iff _ _ _ (by decide)).mpr
    ⟨2, [⟨0, [], by decide, by decide⟩, ⟨2 ^ 63, [], by decide, by decide⟩], [], by decide, rfl, ?_⟩
  rw [bytes_ofBytes]
  rfl

/-- **A number of pieces without any pieces**: `separate` reads behind the contents. -/
theorem not_readsContents_missing :
    ¬ ReadsContents (fun _ => 0) (ofBytes (ByteMemory.encode 8 1)) [] := by
  rintro ⟨pieces, hpieces, -, -⟩
  have hfault : separate (fun _ => 0) (ofBytes (ByteMemory.encode 8 1)) [] =
      .error .outOfBounds := rfl
  rw [bytes_ofBytes, hfault] at hpieces
  exact nomatch hpieces

end Contents

end StreamBuffer

end NaoSoccer
