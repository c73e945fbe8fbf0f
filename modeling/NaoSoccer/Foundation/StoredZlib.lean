import NaoSoccer.Foundation.ByteMemory

/-!
# zlib streams of stored blocks

A zlib stream is a two-byte header, a sequence of deflate blocks and a checksum.  A stored block
holds its bytes as they are, with their number in front.  `compress` writes stored blocks only,
which is what zlib itself does with bytes in which it finds nothing to save, and `uncompress` reads
such streams back, without looking at what comes behind their end.
-/

namespace StoredZlib

open ByteMemory

/-- The Adler-32 checksum. -/
def adler32 (bs : List UInt8) : ℕ :=
  let sums := bs.foldl (fun (s : ℕ × ℕ) b =>
    ((s.1 + b.toNat) % 65521, (s.2 + (s.1 + b.toNat) % 65521) % 65521)) (1, 0)
  sums.2 * 65536 + sums.1

/-- A stored block: a flag byte, the number of bytes, its complement, the bytes. -/
def block (final : UInt8) (bs : List UInt8) : List UInt8 :=
  final :: (encode 2 bs.length ++ (encode 2 (65535 - bs.length) ++ bs))

/-- The number of bytes that zlib collects at most before it writes a block. -/
def blockSize : ℕ := 16383

/-- The blocks of a stream; the last one is flagged. -/
def blocks (bs : List UInt8) : List UInt8 :=
  if bs.length ≤ blockSize then block 1 bs
  else block 0 (bs.take blockSize) ++ blocks (bs.drop blockSize)
termination_by bs.length
decreasing_by
  simp only [List.length_drop, blockSize] at *
  omega

/-- The stream for a list of bytes. -/
def compress (bs : List UInt8) : List UInt8 :=
  0x78 :: 0x5e :: (blocks bs ++ (encode 4 (adler32 bs)).reverse)

/-- Blocks are read up to the flagged one.  The results are their bytes and what comes behind. -/
def inflate : ℕ → List UInt8 → Option (List UInt8 × List UInt8)
  | fuel + 1, final :: bs =>
    let len := decode (bs.take 2)
    let complement := decode ((bs.drop 2).take 2)
    let body := bs.drop 4
    if final ≤ 1 ∧ len + complement = 65535 ∧ len ≤ body.length then
      if final = 1 then some (body.take len, body.drop len)
      else (inflate fuel (body.drop len)).map fun out => (body.take len ++ out.1, out.2)
    else none
  | _, _ => none

/-- The bytes of a stream, if there is room for them and their checksum is right. -/
def uncompress (destLen : ℕ) : List UInt8 → Option (List UInt8)
  | _ :: _ :: bs =>
    (inflate bs.length bs).bind fun out =>
      if out.2.take 4 = (encode 4 (adler32 out.1)).reverse ∧ out.1.length ≤ destLen then
        some out.1
      else none
  | _ => none

/-- Reading a stored block takes its bytes off. -/
lemma inflate_block {fuel : ℕ} {final : UInt8} {bs rest : List UInt8} (hfinal : final ≤ 1)
    (hlen : bs.length ≤ 65535) :
    inflate (fuel + 1) (block final bs ++ rest) =
      if final = 1 then some (bs, rest)
      else (inflate fuel rest).map fun out => (bs ++ out.1, out.2) := by
  have hdecode : decode (encode 2 bs.length) = bs.length := decode_encode (by omega)
  have hcomplement : decode (encode 2 (65535 - bs.length)) = 65535 - bs.length :=
    decode_encode (by omega)
  have htake : (encode 2 bs.length ++ (encode 2 (65535 - bs.length) ++ bs) ++ rest).take 2 =
      encode 2 bs.length := by
    rw [List.append_assoc, List.take_left' (length_encode 2 _)]
  have hdrop : (encode 2 bs.length ++ (encode 2 (65535 - bs.length) ++ bs) ++ rest).drop 2 =
      encode 2 (65535 - bs.length) ++ (bs ++ rest) := by
    rw [List.append_assoc, List.drop_left' (length_encode 2 _), List.append_assoc]
  have hbody : (encode 2 bs.length ++ (encode 2 (65535 - bs.length) ++ bs) ++ rest).drop 4 =
      bs ++ rest := by
    rw [show 4 = 2 + 2 from rfl, ← List.drop_drop, hdrop, List.drop_left' (length_encode 2 _)]
  simp only [block, List.cons_append, inflate, htake, hdrop, hbody, hdecode, hcomplement,
    List.take_left' (length_encode 2 _), List.take_left, List.drop_left]
  rw [if_pos ⟨hfinal, by omega, by simp⟩]

/-- Reading the blocks of a stream gives its bytes back. -/
lemma inflate_blocks (bs : List UInt8) : ∀ {rest : List UInt8} {fuel : ℕ}, bs.length < fuel →
    inflate fuel (blocks bs ++ rest) = some (bs, rest) := by
  induction bs using blocks.induct with
  | case1 bs hshort =>
    rintro rest (_ | fuel) hfuel
    · exact absurd hfuel (Nat.not_lt_zero _)
    · have hlen : bs.length ≤ 16383 := hshort
      rw [blocks, if_pos hshort, inflate_block (by decide) (by omega), if_pos rfl]
  | case2 bs hlong ih =>
    rintro rest (_ | fuel) hfuel
    · exact absurd hfuel (Nat.not_lt_zero _)
    · have hrest : (bs.drop blockSize).length < fuel := by
        rw [List.length_drop]
        unfold blockSize at hlong ⊢
        omega
      have htake : (bs.take blockSize).length ≤ 65535 := by
        rw [List.length_take]
        unfold blockSize
        omega
      rw [blocks, if_neg hlong, List.append_assoc, inflate_block (by decide) htake,
        if_neg (by decide), ih hrest]
      simp

/-- Five bytes are added for each block. -/
lemma length_blocks (bs : List UInt8) :
    (blocks bs).length = bs.length + 5 * ((bs.length - 1) / 16383 + 1) := by
  induction bs using blocks.induct with
  | case1 bs hshort =>
    rw [blocks, if_pos hshort]
    unfold blockSize at hshort
    have hone : (bs.length - 1) / 16383 = 0 := by omega
    simp [block, hone]
    omega
  | case2 bs hlong ih =>
    rw [blocks, if_neg hlong, List.length_append, ih]
    unfold blockSize at hlong ⊢
    simp only [block, List.length_cons, List.length_append, length_encode, List.length_take,
      List.length_drop]
    omega

/-- The length of the stream for a list of bytes. -/
lemma length_compress (bs : List UInt8) :
    (compress bs).length = bs.length + 5 * ((bs.length - 1) / 16383 + 1) + 6 := by
  simp [compress, length_blocks]

/-- Uncompressing a compressed stream gives the bytes back, whatever comes behind. -/
theorem uncompress_compress (bs behind : List UInt8) :
    uncompress bs.length (compress bs ++ behind) = some bs := by
  have hfuel : bs.length < (blocks bs ++ ((encode 4 (adler32 bs)).reverse ++ behind)).length := by
    rw [List.length_append, length_blocks]
    omega
  have hsum : ((encode 4 (adler32 bs)).reverse ++ behind).take 4 =
      (encode 4 (adler32 bs)).reverse := List.take_left' (by simp)
  rw [compress, List.cons_append, List.cons_append, List.append_assoc, uncompress,
    inflate_blocks bs hfuel, Option.bind_some, if_pos ⟨hsum, le_rfl⟩]

end StoredZlib
