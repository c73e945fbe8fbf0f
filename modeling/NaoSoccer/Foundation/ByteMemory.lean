import Mathlib.Data.List.Basic
import Mathlib.Tactic.Ring
import Mathlib.Data.List.TakeDrop
import Mathlib.Data.List.TakeWhile
import Mathlib.Tactic.Positivity

/-!
# Byte memory and little-endian numbers

A block of allocated memory is a list of bytes.  `load` and `store` are the two ways to reach it:
they fail as soon as an access leaves the block, so a program written with them succeeds only if
all its accesses stay inside.

Fixed-width unsigned numbers are stored least significant byte first.  `encode w n` writes `n` in
`w` bytes and `decode` reads any number of bytes back.  The two are inverse for numbers below
`256 ^ w`.  A C string is read up to its first zero byte.
-/

namespace ByteMemory

/-! ## Little-endian numbers -/

/-- The `w` low bytes of `n`, least significant first. -/
def encode : ℕ → ℕ → List UInt8
  | 0, _ => []
  | w + 1, n => UInt8.ofNat n :: encode w (n / 256)

/-- The number that a list of bytes spells, least significant byte first. -/
def decode : List UInt8 → ℕ
  | [] => 0
  | b :: bs => b.toNat + 256 * decode bs

/-- An encoding has the width it is asked for. -/
@[simp] lemma length_encode (w n : ℕ) : (encode w n).length = w := by
  induction w generalizing n with
  | zero => rfl
  | succ w ih => simp [encode, ih]

/-- Reading back an encoding loses what does not fit its width. -/
lemma decode_encode_mod (w n : ℕ) : decode (encode w n) = n % 256 ^ w := by
  induction w generalizing n with
  | zero => simp [encode, decode, Nat.mod_one]
  | succ w ih =>
    rw [encode, decode, ih, UInt8.toNat_ofNat', pow_succ' 256 w, Nat.mod_mul]

/-- A number that fits the width is read back unchanged. -/
@[simp] lemma decode_encode {w n : ℕ} (h : n < 256 ^ w) : decode (encode w n) = n := by
  rw [decode_encode_mod, Nat.mod_eq_of_lt h]

/-- Every list of bytes is the encoding of the number it spells. -/
@[simp] lemma encode_decode (bs : List UInt8) : encode bs.length (decode bs) = bs := by
  induction bs with
  | nil => rfl
  | cons b bs ih =>
    have hb : b.toNat < 256 := b.toNat_lt
    have hdiv : decode (b :: bs) / 256 = decode bs := by
      simp only [decode]
      omega
    have hmod : UInt8.ofNat (decode (b :: bs)) = b := by
      apply UInt8.toNat.inj
      simp only [decode, UInt8.toNat_ofNat']
      omega
    simp only [List.length_cons, encode, hdiv, hmod, ih]

/-- A list of bytes spells a number that fits its length. -/
lemma decode_lt (bs : List UInt8) : decode bs < 256 ^ bs.length := by
  induction bs with
  | nil => simp [decode]
  | cons b bs ih =>
    have hb : b.toNat < 256 := b.toNat_lt
    rw [decode, List.length_cons, pow_succ]
    omega

/-- The `w` bytes of an integer in two's complement. -/
def encodeInt (w : ℕ) (n : ℤ) : List UInt8 := encode w (n % (256 ^ w : ℕ)).toNat

/-- The integer that a list of bytes spells in two's complement. -/
def decodeInt (bs : List UInt8) : ℤ := Int.bmod (decode bs) (256 ^ bs.length)

/-- An encoding has the width it is asked for. -/
@[simp] lemma length_encodeInt (w : ℕ) (n : ℤ) : (encodeInt w n).length = w := length_encode w _

/-- Reading back an integer reduces it to the range of its width. -/
lemma decodeInt_encodeInt (w : ℕ) (n : ℤ) : decodeInt (encodeInt w n) = n.bmod (256 ^ w) := by
  have hpos : (0 : ℤ) < (256 ^ w : ℕ) := by positivity
  have hnonneg : 0 ≤ n % (256 ^ w : ℕ) := Int.emod_nonneg n hpos.ne'
  rw [decodeInt, length_encodeInt, encodeInt, decode_encode, Int.toNat_of_nonneg hnonneg,
    Int.emod_bmod]
  exact (Int.toNat_lt hnonneg).2 (Int.emod_lt_of_pos n hpos)

/-! ## Loads and stores -/

/-- The `n` bytes from `offset` on, if they are all inside the block. -/
def load (mem : List UInt8) (offset n : ℕ) : Option (List UInt8) :=
  if offset + n ≤ mem.length then some ((mem.drop offset).take n) else none

/-- The block after `data` is written from `offset` on, if there is room for it. -/
def store (mem : List UInt8) (offset : ℕ) (data : List UInt8) : Option (List UInt8) :=
  if offset + data.length ≤ mem.length then
    some (mem.take offset ++ data ++ mem.drop (offset + data.length))
  else none

/-- A load has the length it is asked for. -/
lemma length_of_load {mem bs : List UInt8} {offset n : ℕ} (h : load mem offset n = some bs) :
    bs.length = n := by
  unfold load at h
  split at h
  · simp only [Option.some.injEq] at h
    subst h
    simp only [List.length_take, List.length_drop]
    omega
  · exact nomatch h

/-- A store keeps the size of the block. -/
lemma length_of_store {mem mem' data : List UInt8} {offset : ℕ}
    (h : store mem offset data = some mem') : mem'.length = mem.length := by
  unfold store at h
  split at h
  · simp only [Option.some.injEq] at h
    subst h
    simp only [List.length_append, List.length_take, List.length_drop]
    omega
  · exact nomatch h

/-- A load inside the block reads what stands there. -/
lemma load_eq_some_iff {mem bs : List UInt8} {offset n : ℕ} :
    load mem offset n = some bs ↔ offset + n ≤ mem.length ∧ bs = (mem.drop offset).take n := by
  unfold load
  split <;> simp_all [eq_comm]

/-- A load at the seam of a block reads the piece that stands there. -/
lemma load_append {pre bs post : List UInt8} {offset n : ℕ} (ho : offset = pre.length)
    (hn : n = bs.length) : load (pre ++ (bs ++ post)) offset n = some bs := by
  subst ho hn
  simp [load]

/-- A load at the front of a block reads the piece that stands there. -/
lemma load_front {bs post : List UInt8} {n : ℕ} (hn : n = bs.length) :
    load (bs ++ post) 0 n = some bs := by
  subst hn
  simp [load]

/-- A store at the seam of a block replaces the piece of its length that stands there. -/
lemma store_append {pre old post data : List UInt8} {offset : ℕ} (ho : offset = pre.length)
    (hd : data.length = old.length) :
    store (pre ++ (old ++ post)) offset data = some (pre ++ (data ++ post)) := by
  subst ho
  simp [store, hd, List.drop_append, List.append_assoc]

/-- A store at the seam of a block with enough room behind it. -/
lemma store_room {pre room data : List UInt8} {offset : ℕ} (ho : offset = pre.length)
    (hd : data.length ≤ room.length) :
    store (pre ++ room) offset data = some ((pre ++ data) ++ room.drop data.length) := by
  have hsplit : room = room.take data.length ++ room.drop data.length :=
    (List.take_append_drop _ _).symm
  have hlen : data.length = (room.take data.length).length := by
    simp only [List.length_take]
    omega
  conv_lhs => rw [hsplit]
  rw [store_append ho hlen, List.append_assoc]

/-! ## C strings -/

/-- The characters up to the first zero byte, if there is one in the memory. -/
def cString (mem : List UInt8) : Option (List UInt8) :=
  if 0 ∈ mem then some (mem.takeWhile (· ≠ 0)) else none

/-- No character of a C string is zero. -/
lemma zero_notMem_of_cString {mem chars : List UInt8} (h : cString mem = some chars) :
    0 ∉ chars := by
  unfold cString at h
  split at h
  · obtain rfl := Option.some.inj h
    intro hmem
    simpa using List.mem_takeWhile_imp hmem
  · exact nomatch h

/-- A string without zeros is read back from its characters and a final zero. -/
lemma cString_eq {chars : List UInt8} (h : 0 ∉ chars) : cString (chars ++ [0]) = some chars := by
  have hne : ∀ c ∈ chars, decide (c ≠ 0) = true :=
    fun c hc => decide_eq_true fun hzero => h (hzero ▸ hc)
  rw [cString, if_pos (by simp), List.takeWhile_append_of_pos hne]
  simp

end ByteMemory
