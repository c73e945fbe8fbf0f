import NaoSoccer.Foundation.ByteMemory
import NaoSoccer.Foundation.Outcome
import NaoSoccer.Foundation.InputStream
import Mathlib.Algebra.Order.BigOperators.Group.List
import Mathlib.Algebra.Group.Action.Defs

/-!
# Stream buffers

A `StreamBuffer` owns a block of bytes, of which the first `size` are its contents, and a list of
child buffers.  `combine` packs a list of buffers into one: the number of buffers, then every
buffer with its size in front, all numbers being eight bytes wide.  `separate` takes such a packed
buffer apart again.  `contract` packs the children of a buffer into the buffer itself and `expand`
undoes it.

The offsets are `uint64_t`, so they are taken modulo `2 ^ 64`.  Memory that `new[]` hands out holds
arbitrary bytes: they are the parameter `fresh` of all operations that allocate.
-/

namespace NaoSoccer

/-- The ways in which an operation goes wrong for good. -/
inductive Fault
  /-- An `assert` fails. -/
  | assertion
  /-- An access leaves the allocated memory. -/
  | outOfBounds
  /-- An object is used as one of another class. -/
  | wrongClass
  /-- The program ends itself with `exit`. -/
  | exit
  deriving DecidableEq, Repr

/-- An access to memory either stays inside or is a fault. -/
def inBounds {α : Type} : Option α → Except Fault α
  | some a => .ok a
  | none => .error .outOfBounds

/-- An access succeeds if it stays inside. -/
lemma inBounds_eq_ok_iff {α : Type} {access : Option α} {a : α} :
    inBounds access = .ok a ↔ access = some a := by
  cases access <;> simp [inBounds]

/-- A buffer with its contents and its children. -/
structure StreamBuffer where
  /-- The number of bytes in use. -/
  size : ℕ
  /-- The allocated bytes; there are `capacity` of them. -/
  buffer : List UInt8
  /-- The child buffers. -/
  children : List StreamBuffer
  /-- The bytes in use are allocated. -/
  size_le : size ≤ buffer.length

namespace StreamBuffer

/-- The contents of a buffer. -/
def bytes (sb : StreamBuffer) : List UInt8 := sb.buffer.take sb.size

/-- A buffer has as many bytes as its size says. -/
@[simp] lemma length_bytes (sb : StreamBuffer) : sb.bytes.length = sb.size := by
  simp [bytes, sb.size_le]

/-- The buffer that holds the given bytes and nothing else, without children. -/
def ofBytes (bs : List UInt8) : StreamBuffer := ⟨bs.length, bs, [], le_rfl⟩

/-- The default constructor: no memory, no children. -/
def empty : StreamBuffer := ofBytes []

/-- The contents of a buffer that was made from bytes. -/
@[simp] lemma bytes_ofBytes (bs : List UInt8) : (ofBytes bs).bytes = bs := by
  simp [bytes, ofBytes]

/-- The size of a buffer that was made from bytes. -/
@[simp] lemma size_ofBytes (bs : List UInt8) : (ofBytes bs).size = bs.length := rfl

/-- The memory of the buffer is released. -/
def clear (sb : StreamBuffer) : StreamBuffer :=
  { sb with size := 0, buffer := [], size_le := le_rfl }

/-! ## Reading and packing -/

/-- The buffer is written to a stream with its size in front. -/
def write (sb : StreamBuffer) : List UInt8 := ByteMemory.encode 8 sb.size ++ sb.bytes

/-- `write` to a variable: the first child is copied over the bytes of the variable and dropped, or
the contents of the buffer are, if it has no children.  The results are the new bytes and what
becomes of the buffer. -/
def copyTo : StreamBuffer → List UInt8 → Option (List UInt8 × StreamBuffer)
  | ⟨size, buffer, [], h⟩, dest =>
    if size ≤ dest.length then
      some (buffer.take size ++ dest.drop size, ⟨size, buffer, [], h⟩)
    else none
  | ⟨size, buffer, child :: children, h⟩, dest =>
    (child.copyTo dest).map fun copied => (copied.1, ⟨size, buffer, children, h⟩)

/-- A variable keeps its size. -/
lemma length_copyTo : ∀ {sb sb' : StreamBuffer} {dest data : List UInt8},
    sb.copyTo dest = some (data, sb') → data.length = dest.length
  | ⟨size, buffer, [], h⟩, sb', dest, data, hcopy => by
    rw [copyTo] at hcopy
    split at hcopy
    · obtain ⟨rfl, -⟩ := Prod.mk.inj (Option.some.inj hcopy)
      simp only [List.length_append, List.length_take, List.length_drop]
      omega
    · exact nomatch hcopy
  | ⟨size, buffer, child :: children, h⟩, sb', dest, data, hcopy => by
    rw [copyTo, Option.map_eq_some_iff] at hcopy
    obtain ⟨⟨data', child'⟩, hchild, heq⟩ := hcopy
    obtain ⟨rfl, -⟩ := Prod.mk.inj heq
    exact length_copyTo hchild

section Operations

variable (fresh : ℕ → UInt8)

/-- `new unsigned char[n]`: a block of `n` bytes with whatever stood there before. -/
def allocate (n : ℕ) : List UInt8 := (List.range n).map fresh

/-- The buffer gets at least `n` bytes of memory; growing it loses its contents. -/
def resize (sb : StreamBuffer) (n : ℕ) : StreamBuffer :=
  if h : sb.buffer.length < n then
    { sb with
      buffer := allocate fresh n
      size_le := by
        have hle : sb.size ≤ sb.buffer.length := sb.size_le
        simp only [allocate, List.length_map, List.length_range]
        omega }
  else sb

/-- After `resize` there is room for as many bytes as asked for. -/
lemma le_capacity_resize (sb : StreamBuffer) (n : ℕ) :
    n ≤ (sb.resize fresh n).buffer.length := by
  unfold resize
  split
  · simp [allocate]
  · omega

/-- The bounds of `VERIFY_RESIZE`: requests outside of them are ignored. -/
def ValidRequest (n : ℕ) : Prop := ¬ (n = 0 ∨ n > 1000000000000)

instance (n : ℕ) : Decidable (ValidRequest n) := inferInstanceAs (Decidable (¬ _))

/-- The first `n` bytes at `data` are copied into the buffer. -/
def read (sb : StreamBuffer) (data : List UInt8) (n : ℕ) : Except Fault StreamBuffer :=
  if ValidRequest n then
    match h : ByteMemory.load data 0 n with
    | none => .error .outOfBounds
    | some source =>
      .ok { (sb.resize fresh n) with
        size := n
        buffer := source ++ (sb.resize fresh n).buffer.drop n
        size_le := by simp [ByteMemory.length_of_load h] }
  else .ok sb

/-- `n` bytes of a stream are read into the buffer; where the stream ends early, the memory keeps
what stood there. -/
def readFrom (sb : StreamBuffer) (is : InputStream) (n : ℕ) : StreamBuffer × InputStream :=
  if ValidRequest n then
    ({ (sb.resize fresh n) with
        size := n
        buffer := (is.read n).1 ++ (sb.resize fresh n).buffer.drop (is.read n).1.length
        size_le := by
          have hcapacity := le_capacity_resize fresh sb n
          have hread := is.length_read_le n
          simp only [List.length_append, List.length_drop]
          omega },
      (is.read n).2)
  else (sb, is)

/-- A buffer with its size in front is read from a stream; the size is a local variable, which
keeps what stood there if the stream ends early. -/
def readStream (sb : StreamBuffer) (is : InputStream) : StreamBuffer × InputStream :=
  let (n, is) := is.read 8
  sb.readFrom fresh is (ByteMemory.decode (n ++ (allocate fresh 8).drop n.length))

/-- A copy of the bytes is added to the children. -/
def add (sb : StreamBuffer) (data : List UInt8) (n : ℕ) : Except Fault StreamBuffer := do
  let child ← empty.read fresh data n
  .ok { sb with children := sb.children ++ [child] }

/-- The loop of `combine`: every buffer is written with its size in front, from `offset` on. -/
def writePieces (mem : List UInt8) (offset : ℕ) :
    List StreamBuffer → Option (List UInt8 × ℕ)
  | [] => some (mem, offset)
  | b :: bs => do
    let mem ← ByteMemory.store mem offset (ByteMemory.encode 8 b.size)
    let offset := (offset + 8) % 2 ^ 64
    let mem ← ByteMemory.store mem offset b.bytes
    writePieces mem ((offset + b.size) % 2 ^ 64) bs

/-- The number of buffers and the buffers are written into the memory.  The second component is
the offset behind them. -/
def writeBuffers (mem : List UInt8) (buffers : List StreamBuffer) : Option (List UInt8 × ℕ) := do
  let mem ← ByteMemory.store mem 0 (ByteMemory.encode 8 buffers.length)
  writePieces mem 8 buffers

/-- The sum of the sizes, as `uint64_t`. -/
def totalSize (buffers : List StreamBuffer) : ℕ :=
  buffers.foldl (fun total b => (total + b.size) % 2 ^ 64) 0

/-- The loop of `combine` never moves its offset behind the memory it writes. -/
lemma writePieces_offset_le {mem mem' : List UInt8} {offset offset' : ℕ}
    {buffers : List StreamBuffer} (hle : offset ≤ mem.length)
    (h : writePieces mem offset buffers = some (mem', offset')) : offset' ≤ mem'.length := by
  induction buffers generalizing mem offset with
  | nil =>
    obtain ⟨rfl, rfl⟩ : mem = mem' ∧ offset = offset' := by simpa [writePieces] using h
    exact hle
  | cons b bs ih =>
    simp only [writePieces, Option.bind_eq_bind, Option.bind_eq_some_iff] at h
    obtain ⟨mem₁, -, mem₂, hstore, hrest⟩ := h
    refine ih ?_ hrest
    rw [ByteMemory.length_of_store hstore]
    unfold ByteMemory.store at hstore
    split at hstore
    · rename_i hroom
      rw [length_bytes] at hroom
      exact (Nat.mod_le _ _).trans hroom
    · exact nomatch hstore

/-- The offset behind the packed buffers lies inside the memory. -/
lemma writeBuffers_offset_le {mem mem' : List UInt8} {offset' : ℕ} {buffers : List StreamBuffer}
    (h : writeBuffers mem buffers = some (mem', offset')) : offset' ≤ mem'.length := by
  simp only [writeBuffers, Option.bind_eq_bind, Option.bind_eq_some_iff] at h
  obtain ⟨mem₁, hstore, hrest⟩ := h
  refine writePieces_offset_le ?_ hrest
  rw [ByteMemory.length_of_store hstore]
  unfold ByteMemory.store at hstore
  split at hstore
  · rename_i hroom
    simpa using hroom
  · exact nomatch hstore

/-- `combine`: the buffers are packed into `combined`.  The program asserts that there are fewer
than `limit` of them. -/
def combineBelow (limit : ℕ) (buffers : List StreamBuffer) (combined : StreamBuffer) :
    Except Fault StreamBuffer :=
  let combined := combined.resize fresh
    ((totalSize buffers + buffers.length * 8 + 8) % 2 ^ 64)
  if buffers.length < limit then
    match h : writeBuffers combined.buffer buffers with
    | none => .error .outOfBounds
    | some (mem, offset) =>
      .ok { combined with size := offset, buffer := mem, size_le := writeBuffers_offset_le h }
  else .error .assertion

/-- `combine` for a vector of buffers. -/
def combineVector (buffers : List StreamBuffer) (combined : StreamBuffer) :
    Except Fault StreamBuffer :=
  combineBelow fresh 0xFFFFFF buffers combined

/-- `combine` for a list of buffers. -/
def combineList (buffers : List StreamBuffer) (combined : StreamBuffer) :
    Except Fault StreamBuffer :=
  combineBelow fresh 0xFFFFFFFF buffers combined

/-- The loop of `separate`: as many pieces as asked for are read from `offset` on. -/
def readPieces (buffer : List UInt8) (offset : ℕ) : ℕ → Except Fault (List StreamBuffer)
  | 0 => .ok []
  | count + 1 => do
    let pieceSize ← inBounds (ByteMemory.load buffer offset 8)
    let offset := (offset + 8) % 2 ^ 64
    let piece ← empty.read fresh (buffer.drop offset) (ByteMemory.decode pieceSize)
    let pieces ← readPieces buffer ((offset + piece.size) % 2 ^ 64) count
    .ok (piece :: pieces)

/-- `separate`: pieces are appended to `separated` until there are as many as the buffer says. -/
def separate (sb : StreamBuffer) (separated : List StreamBuffer) :
    Except Fault (List StreamBuffer) := do
  let bufCount ← inBounds (ByteMemory.load sb.buffer 0 8)
  let pieces ← readPieces fresh sb.buffer 8 (ByteMemory.decode bufCount - separated.length)
  .ok (separated ++ pieces)

/-- The children are packed into the buffer and released. -/
def contract (sb : StreamBuffer) : Except Fault StreamBuffer := do
  let sb ← combineList fresh sb.children sb
  .ok { sb with children := [] }

/-- The contents of the buffer are taken apart into children and released. -/
def expand (sb : StreamBuffer) : Except Fault StreamBuffer := do
  let children ← separate fresh sb sb.children
  .ok (clear { sb with children := children })

end Operations

/-! ## What packing writes and what taking apart reads -/

/-- The buffers of a list, each with its size in front. -/
def frames (buffers : List StreamBuffer) : List UInt8 := buffers.flatMap write

/-- The bytes of a packed list of buffers. -/
def packed (buffers : List StreamBuffer) : List UInt8 :=
  ByteMemory.encode 8 buffers.length ++ frames buffers

/-- A framed buffer is eight bytes longer than the buffer. -/
@[simp] lemma length_write (sb : StreamBuffer) : (write sb).length = 8 + sb.size := by
  simp [write]

/-- There is nothing to write in an empty list. -/
@[simp] lemma frames_nil : frames [] = [] := rfl

/-- The first buffer is framed first. -/
@[simp] lemma frames_cons (b : StreamBuffer) (bs : List StreamBuffer) :
    frames (b :: bs) = write b ++ frames bs := rfl

/-- The packed size counts eight bytes for the number of buffers. -/
@[simp] lemma length_packed (buffers : List StreamBuffer) :
    (packed buffers).length = 8 + (frames buffers).length := by
  simp [packed]

/-- The framed buffers take eight bytes more than their contents, each. -/
lemma length_frames (buffers : List StreamBuffer) :
    (frames buffers).length = (buffers.map size).sum + buffers.length * 8 := by
  induction buffers with
  | nil => rfl
  | cons b bs ih =>
    simp only [frames_cons, List.length_append, length_write, ih, List.map_cons, List.sum_cons,
      List.length_cons]
    ring

/-- Buffers of bounded size, packed, are not longer than this. -/
lemma length_packed_le {buffers : List StreamBuffer} {bound : ℕ}
    (hsize : ∀ b ∈ buffers, b.size ≤ bound) :
    (packed buffers).length ≤ 8 + buffers.length * (bound + 8) := by
  have hsum : (buffers.map size).sum ≤ (buffers.map size).length • bound := by
    refine List.sum_le_card_nsmul _ _ fun n hn => ?_
    obtain ⟨b, hb, rfl⟩ := List.mem_map.mp hn
    exact hsize b hb
  rw [length_packed, length_frames]
  simp only [List.length_map, smul_eq_mul] at hsum
  rw [mul_add]
  omega

/-- The `uint64_t` sum of the sizes is their sum modulo `2 ^ 64`. -/
lemma totalSize_eq (buffers : List StreamBuffer) :
    totalSize buffers = (buffers.map size).sum % 2 ^ 64 := by
  have hfold : ∀ total, buffers.foldl (fun total b => (total + b.size) % 2 ^ 64) (total % 2 ^ 64) =
      (total + (buffers.map size).sum) % 2 ^ 64 := by
    induction buffers with
    | nil => simp
    | cons b bs ih =>
      intro total
      simp only [List.foldl_cons, List.map_cons, List.sum_cons, Nat.mod_add_mod, ih]
      rw [add_assoc]
  simpa [totalSize] using hfold 0

/-- The loop of `combine` writes the framed buffers and returns the offset behind them. -/
lemma writePieces_eq {pre room : List UInt8} {offset : ℕ} {buffers : List StreamBuffer}
    (ho : offset = pre.length) (hroom : (frames buffers).length ≤ room.length)
    (hfit : offset + (frames buffers).length < 2 ^ 64) :
    writePieces (pre ++ room) offset buffers =
      some (pre ++ frames buffers ++ room.drop (frames buffers).length,
        offset + (frames buffers).length) := by
  induction buffers generalizing pre room offset with
  | nil => simp [writePieces]
  | cons b bs ih =>
    simp only [frames_cons, List.length_append, length_write] at hroom hfit
    have hsize : ByteMemory.store (pre ++ room) offset (ByteMemory.encode 8 b.size) =
        some (pre ++ ByteMemory.encode 8 b.size ++ room.drop 8) := by
      rw [ByteMemory.store_room ho (by rw [ByteMemory.length_encode]; omega),
        ByteMemory.length_encode]
    have hbytes : ByteMemory.store (pre ++ ByteMemory.encode 8 b.size ++ room.drop 8)
        (offset + 8) b.bytes =
          some (pre ++ ByteMemory.encode 8 b.size ++ b.bytes ++ room.drop (8 + b.size)) := by
      rw [ByteMemory.store_room (by simp [ho])
        (by rw [length_bytes, List.length_drop]; omega), length_bytes, List.drop_drop]
    have hnext : (offset + 8) % 2 ^ 64 = offset + 8 := Nat.mod_eq_of_lt (by omega)
    have hnext' : (offset + 8 + b.size) % 2 ^ 64 = offset + (8 + b.size) := by
      rw [Nat.mod_eq_of_lt (by omega), add_assoc]
    simp only [writePieces, hsize, Option.bind_eq_bind, Option.bind_some, hnext, hbytes, hnext']
    rw [ih (by simp [ho]) (by rw [List.length_drop]; omega) (by omega)]
    simp [write, List.drop_drop, add_assoc]

/-- Packing into a block with enough room writes the packed bytes to its front. -/
lemma writeBuffers_eq {mem : List UInt8} {buffers : List StreamBuffer}
    (hroom : (packed buffers).length ≤ mem.length) (hfit : (packed buffers).length < 2 ^ 64) :
    writeBuffers mem buffers =
      some (packed buffers ++ mem.drop (packed buffers).length, (packed buffers).length) := by
  rw [length_packed] at hroom hfit
  have hcount : ByteMemory.store mem 0 (ByteMemory.encode 8 buffers.length) =
      some (ByteMemory.encode 8 buffers.length ++ mem.drop 8) := by
    have hstore := @ByteMemory.store_room [] mem (ByteMemory.encode 8 buffers.length) 0 rfl
      (by rw [ByteMemory.length_encode]; omega)
    simpa using hstore
  simp only [writeBuffers, hcount, Option.bind_eq_bind, Option.bind_some]
  rw [writePieces_eq (by simp) (by rw [List.length_drop]; omega) (by omega)]
  simp [packed, List.drop_drop]

variable (fresh : ℕ → UInt8)

/-- `resize` leaves the children alone. -/
@[simp] lemma children_resize (sb : StreamBuffer) (n : ℕ) :
    (sb.resize fresh n).children = sb.children := by
  unfold resize
  split <;> rfl

/-- Packing fewer buffers than the limit, of a total that fits `uint64_t`, succeeds: the contents
of the result are the packed bytes, and its children stay. -/
theorem combineBelow_eq {limit : ℕ} {buffers : List StreamBuffer} (combined : StreamBuffer)
    (hlimit : buffers.length < limit) (hfit : (packed buffers).length < 2 ^ 64) :
    ∃ sb, combineBelow fresh limit buffers combined = .ok sb ∧ sb.bytes = packed buffers ∧
      sb.children = combined.children := by
  have hreq : (totalSize buffers + buffers.length * 8 + 8) % 2 ^ 64 = (packed buffers).length := by
    have hlen := length_frames buffers
    rw [length_packed] at hfit ⊢
    rw [totalSize_eq, Nat.mod_eq_of_lt (by omega), Nat.mod_eq_of_lt (by omega)]
    omega
  have hroom : (packed buffers).length ≤ (combined.resize fresh
      ((totalSize buffers + buffers.length * 8 + 8) % 2 ^ 64)).buffer.length :=
    hreq.symm.le.trans (le_capacity_resize fresh combined _)
  have hwrite := writeBuffers_eq hroom hfit
  unfold combineBelow
  simp only [if_pos hlimit]
  split
  · rename_i hnone
    rw [hwrite] at hnone
    exact nomatch hnone
  · rename_i mem offset hsome
    rw [hwrite] at hsome
    obtain ⟨rfl, rfl⟩ := Prod.mk.inj (Option.some.inj hsome)
    exact ⟨_, rfl, by simp [bytes], children_resize fresh combined _⟩

/-- The program asserts the limit. -/
lemma combineBelow_assertion {limit : ℕ} {buffers : List StreamBuffer} (combined : StreamBuffer)
    (hlimit : limit ≤ buffers.length) :
    combineBelow fresh limit buffers combined = .error .assertion := by
  simp [combineBelow, Nat.not_lt.mpr hlimit]

/-- Reading a valid number of bytes into a new buffer gives the buffer of these bytes. -/
lemma read_empty {data : List UInt8} (post : List UInt8) (hvalid : ValidRequest data.length) :
    empty.read fresh (data ++ post) data.length = .ok (ofBytes data) := by
  have hload : ByteMemory.load (data ++ post) 0 data.length = some data :=
    ByteMemory.load_front rfl
  have hcap : (empty.resize fresh data.length).buffer.drop data.length = [] := by
    rw [List.drop_eq_nil_iff]
    unfold resize
    split
    · simp [allocate]
    · simp [empty, ofBytes]
  unfold read
  rw [if_pos hvalid]
  split
  · rename_i hnone
    rw [hload] at hnone
    exact nomatch hnone
  · rename_i source hsome
    obtain rfl : data = source := by simpa [hload] using hsome
    simp only [hcap, List.append_nil, children_resize]
    rfl

/-- An invalid request leaves a new buffer empty. -/
lemma read_invalid {data : List UInt8} {n : ℕ} (hvalid : ¬ ValidRequest n) :
    empty.read fresh data n = .ok empty := by
  rw [read, if_neg hvalid]

/-- The piece that `separate` makes of a packed buffer: requests that `VERIFY_RESIZE` rejects give
an empty piece. -/
def piece (sb : StreamBuffer) : StreamBuffer :=
  if ValidRequest sb.size then ofBytes sb.bytes else empty

/-- A buffer of valid size, or an empty one, is read back with its contents. -/
lemma piece_eq {sb : StreamBuffer} (h : sb.size ≤ 1000000000000) : piece sb = ofBytes sb.bytes := by
  unfold piece
  split
  · rfl
  · rename_i hinvalid
    have hzero : sb.size = 0 := by
      unfold ValidRequest at hinvalid
      omega
    simp [empty, bytes, hzero]

/-- The request that `separate` makes for a buffer gives the piece for it. -/
lemma read_piece (sb : StreamBuffer) (post : List UInt8) :
    empty.read fresh (sb.bytes ++ post) sb.size = .ok (piece sb) := by
  unfold piece
  split
  · rename_i hvalid
    have hread : empty.read fresh (sb.bytes ++ post) sb.bytes.length = .ok (ofBytes sb.bytes) :=
      read_empty fresh post (by simpa)
    simpa using hread
  · rename_i hinvalid
    exact read_invalid fresh hinvalid

/-- Contracting a buffer packs its children into it. -/
theorem contract_eq (sb : StreamBuffer) (hlimit : sb.children.length < 0xFFFFFFFF)
    (hfit : (packed sb.children).length < 2 ^ 64) :
    ∃ c, sb.contract fresh = .ok c ∧ c.bytes = packed sb.children ∧ c.children = [] := by
  obtain ⟨c, hc, hbytes, -⟩ :=
    combineBelow_eq fresh sb hlimit hfit
  refine ⟨{ c with children := [] }, ?_, hbytes, rfl⟩
  simp only [contract, combineList, hc, Outcome.ok_bind]

/-- As many bytes of a stream as asked for are read into a buffer, if they are there. -/
lemma readFrom_eq (old : StreamBuffer) {is : InputStream} {data rest : List UInt8}
    (hok : is.failed = false) (h : is.remaining = data ++ rest)
    (hvalid : ValidRequest data.length) :
    (old.readFrom fresh is data.length).1.bytes = data ∧
      (old.readFrom fresh is data.length).1.children = old.children ∧
      (old.readFrom fresh is data.length).2 =
        { is with position := is.position + data.length, failed := false } := by
  have hread := InputStream.read_eq hok h
  unfold readFrom
  rw [if_pos hvalid]
  refine ⟨?_, children_resize fresh old _, congrArg Prod.snd hread⟩
  simp only [bytes, hread]
  exact List.take_left

/-- A written buffer of valid size is read back from a stream, into a buffer with any contents. -/
theorem readStream_write (old : StreamBuffer) {sb : StreamBuffer} {is : InputStream}
    {rest : List UInt8}
    (hok : is.failed = false) (h : is.remaining = sb.write ++ rest)
    (hvalid : ValidRequest sb.size) :
    (old.readStream fresh is).1.bytes = sb.bytes ∧
      (old.readStream fresh is).1.children = old.children ∧
      (old.readStream fresh is).2 =
        { is with position := is.position + 8 + sb.size, failed := false } := by
  have hfront : is.remaining = ByteMemory.encode 8 sb.size ++ (sb.bytes ++ rest) := by
    rw [h, write, List.append_assoc]
  have hcount := InputStream.read_eq hok hfront
  have hmiddle := InputStream.remaining_advance false hfront
  rw [ByteMemory.length_encode] at hcount hmiddle
  have hsize : sb.size < 256 ^ 8 := by
    unfold ValidRequest at hvalid
    omega
  have hread : old.readStream fresh is = old.readFrom fresh
      { is with position := is.position + 8, failed := false } sb.bytes.length := by
    have hnone : (allocate fresh 8).drop 8 = [] := List.drop_eq_nil_of_le (by simp [allocate])
    simp only [readStream, hcount, length_bytes, ByteMemory.length_encode, hnone, List.append_nil,
      ByteMemory.decode_encode hsize]
  rw [hread]
  simpa using readFrom_eq fresh old rfl hmiddle (by simpa using hvalid)

end StreamBuffer

end NaoSoccer
