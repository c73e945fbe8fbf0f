import NaoSoccer.Foundation.Transducer
import Mathlib.Data.List.GetD
import Mathlib.Tactic.IntervalCases

/-!
# The base64 codec of the simulator interface

The agent of the simulated robot writes its team packet as base64 text into a `say` action, and it
reads the packets of its team mates and the camera images from base64 text.  The two halves of the
codec are machines that can stop after every character and go on with the next block: the encoder
keeps the bits of a byte that no character carries yet, the decoder keeps the bits of a byte that
no character has completed yet.

A `char` is a `UInt8` here, and an `Int8` where the code depends on its sign.  The table of
`base64_decode_value` has 80 entries and the check before it lets the index 80 through, so what a
`{` decodes to is whatever lies behind the table: this value is the parameter `past`.
-/

namespace NaoSoccer

namespace Base64

open Transducer

/-! ## The encoder -/

/-- `base64_encodestep` -/
inductive EncodeStep where
  | step_A
  | step_B
  | step_C
  deriving DecidableEq, Repr

/-- `base64_encodestate` -/
structure EncodeState where
  step : EncodeStep
  result : UInt8
  stepcount : ℕ
  deriving DecidableEq, Repr

/-- `base64_init_encodestate` -/
def initEncodeState : EncodeState := ⟨.step_A, 0, 0⟩

/-- The table of `base64_encode_value`. -/
def encoding : List UInt8 :=
  [65, 66, 67, 68, 69, 70, 71, 72, 73, 74, 75, 76, 77, 78, 79, 80, 81, 82, 83, 84, 85, 86, 87, 88,
    89, 90, 97, 98, 99, 100, 101, 102, 103, 104, 105, 106, 107, 108, 109, 110, 111, 112, 113, 114,
    115, 116, 117, 118, 119, 120, 121, 122, 48, 49, 50, 51, 52, 53, 54, 55, 56, 57, 43, 47]

/-- The character `=`. -/
def padding : UInt8 := 61

/-- `base64_encode_value` -/
def encodeValue (value : UInt8) : UInt8 :=
  if value > 63 then padding else encoding.getD value.toNat padding

/-- One byte of the loop of `base64_encode_block`: the case that the machine stands in. -/
def encodeByte (s : EncodeState) (fragment : UInt8) : EncodeState × List UInt8 :=
  match s.step with
  | .step_A =>
    ({ s with step := .step_B, result := (fragment &&& 0x03) <<< 4 },
      [encodeValue ((fragment &&& 0xfc) >>> 2)])
  | .step_B =>
    ({ s with step := .step_C, result := (fragment &&& 0x0f) <<< 2 },
      [encodeValue (s.result ||| (fragment &&& 0xf0) >>> 4)])
  | .step_C =>
    ({ step := .step_A, result := fragment &&& 0x3f, stepcount := s.stepcount + 1 },
      [encodeValue (s.result ||| (fragment &&& 0xc0) >>> 6), encodeValue (fragment &&& 0x3f)])

/-- `base64_encode_block`: the state that it leaves and the characters that it writes. -/
def encodeBlock (s : EncodeState) (plaintext : List UInt8) : EncodeState × List UInt8 :=
  feed encodeByte s plaintext

/-- `base64_encode_blockend` -/
def encodeBlockEnd (s : EncodeState) : List UInt8 :=
  match s.step with
  | .step_A => []
  | .step_B => [encodeValue s.result, padding, padding]
  | .step_C => [encodeValue s.result, padding]

/-- The loop of `Encoder::encode`: blocks of at most `bufferSize` bytes. -/
def encodeLoop (bufferSize : ℕ) [NeZero bufferSize] (s : EncodeState) (plaintext : List UInt8) :
    EncodeState × List UInt8 :=
  if _h : plaintext = [] then (s, [])
  else
    let block := encodeBlock s (plaintext.take bufferSize)
    let rest := encodeLoop bufferSize block.1 (plaintext.drop bufferSize)
    (rest.1, block.2 ++ rest.2)
termination_by plaintext.length
decreasing_by
  have := List.length_pos_of_ne_nil _h
  have := NeZero.pos bufferSize
  rw [List.length_drop]
  omega

/-- `Encoder::encode` -/
def encode (bufferSize : ℕ) [NeZero bufferSize] (plaintext : List UInt8) : List UInt8 :=
  let code := encodeLoop bufferSize initEncodeState plaintext
  code.2 ++ encodeBlockEnd code.1

/-! ## The decoder -/

/-- `base64_decodestep` -/
inductive DecodeStep where
  | step_a
  | step_b
  | step_c
  | step_d
  deriving DecidableEq, Repr

/-- `base64_decodestate` -/
structure DecodeState where
  step : DecodeStep
  plainchar : UInt8
  deriving DecidableEq, Repr

/-- `base64_init_decodestate` -/
def initDecodeState : DecodeState := ⟨.step_a, 0⟩

/-- The table of `base64_decode_value`. -/
def decoding : List Int8 :=
  [62, -1, -1, -1, 63, 52, 53, 54, 55, 56, 57, 58, 59, 60, 61, -1, -1, -1, -2, -1, -1, -1, 0, 1, 2,
    3, 4, 5, 6, 7, 8, 9, 10, 11, 12, 13, 14, 15, 16, 17, 18, 19, 20, 21, 22, 23, 24, 25, -1, -1,
    -1, -1, -1, -1, 26, 27, 28, 29, 30, 31, 32, 33, 34, 35, 36, 37, 38, 39, 40, 41, 42, 43, 44, 45,
    46, 47, 48, 49, 50, 51]

/-- `base64_decode_value`: the check is `>` and not `≥`, so the index may be one past the table. -/
def decodeValue (past : Int8) (value : UInt8) : Int8 :=
  let value_in := value.toInt8 - 43
  if value_in < 0 ∨ value_in > 80 then -1 else decoding.getD value_in.toInt.toNat past

/-- A character that the decoder does not skip. -/
def carries (past : Int8) (c : UInt8) : Bool := decide (0 ≤ decodeValue past c)

/-- The bits of a character, as the decoder masks them. -/
def fragmentOf (past : Int8) (c : UInt8) : UInt8 := (decodeValue past c).toUInt8

/-- What one character does to the machine of `base64_decode_block`, and the byte that it
completes. -/
def decodeChar (past : Int8) (t : DecodeState) (c : UInt8) : DecodeState × List UInt8 :=
  if carries past c then
    let fragment := fragmentOf past c
    match t.step with
    | .step_a => (⟨.step_b, (fragment &&& 0x3f) <<< 2⟩, [])
    | .step_b =>
      (⟨.step_c, (fragment &&& 0x0f) <<< 4⟩, [t.plainchar ||| (fragment &&& 0x30) >>> 4])
    | .step_c =>
      (⟨.step_d, (fragment &&& 0x03) <<< 6⟩, [t.plainchar ||| (fragment &&& 0x3c) >>> 2])
    | .step_d => (⟨.step_a, t.plainchar⟩, [t.plainchar ||| (fragment &&& 0x3f)])
  else (t, [])

/-! ## The two tables -/

/-- The decoder's table is the inverse of the encoder's. -/
private lemma tables_inverse :
    (List.range 64).all (fun v =>
      let index := ((encoding.getD v padding).toInt8 - 43)
      decide (¬ (index < 0 ∨ index > 80)) && decide (index.toInt.toNat < decoding.length) &&
        (decoding.getD index.toInt.toNat 0 == Int8.ofNat v && decide (0 ≤ Int8.ofNat v))) =
      true := by
  decide

/-- A value of six bits is read back from its character. -/
lemma decodeValue_encodeValue (past : Int8) {v : UInt8} (hv : v < 64) :
    decodeValue past (encodeValue v) = v.toInt8 ∧ 0 ≤ v.toInt8 := by
  have hlt : v.toNat < 64 := hv
  have htable := List.all_eq_true.mp tables_inverse v.toNat (List.mem_range.mpr hlt)
  simp only [Bool.and_eq_true, decide_eq_true_eq, beq_iff_eq] at htable
  obtain ⟨⟨hindex, hlength⟩, hvalue, hpos⟩ := htable
  have hle : ¬ v > 63 := by
    rw [gt_iff_lt, UInt8.lt_iff_toNat_lt]
    simpa using Nat.lt_succ_iff.mp hlt
  have hv8 : Int8.ofNat v.toNat = v.toInt8 := by
    rw [← UInt8.toInt8_ofNat', UInt8.ofNat_toNat]
  rw [hv8] at hvalue hpos
  refine ⟨?_, hpos⟩
  rw [encodeValue, if_neg hle, decodeValue]
  simp only [if_neg hindex]
  rw [List.getD_eq_getElem _ _ hlength] at hvalue ⊢
  exact hvalue

/-- The character of a value of six bits is not skipped. -/
lemma carries_encodeValue (past : Int8) {v : UInt8} (hv : v < 64) :
    carries past (encodeValue v) = true := by
  obtain ⟨hvalue, hpos⟩ := decodeValue_encodeValue past hv
  rw [carries, hvalue, decide_eq_true hpos]

/-- The character of a value of six bits has the bits of the value. -/
lemma fragmentOf_encodeValue (past : Int8) {v : UInt8} (hv : v < 64) :
    fragmentOf past (encodeValue v) = v := by
  rw [fragmentOf, (decodeValue_encodeValue past hv).1]
  rfl

/-- The padding is skipped. -/
@[simp] lemma carries_padding (past : Int8) : carries past padding = false := by
  have hindex : padding.toInt8 - 43 = 18 := by decide
  have hvalue : decodeValue past padding = -2 := by
    rw [decodeValue, hindex]
    exact if_neg (by decide)
  rw [carries, hvalue]
  decide

/-! ## The bits of three bytes -/

/-- A value that fits a mask of six bits. -/
private lemma lt_of_and_eq {v : UInt8} (h : v &&& 0x3f = v) : v < 64 := by
  rw [← h, UInt8.lt_iff_toNat_lt, UInt8.toNat_and]
  exact Nat.lt_succ_of_le Nat.and_le_right

/-- The value of the first character: six bits of the first byte. -/
def firstValue (b : UInt8) : UInt8 := (b &&& 0xfc) >>> 2

/-- The value of the second character: two bits of the first byte and four of the second. -/
def secondValue (b c : UInt8) : UInt8 := (b &&& 0x03) <<< 4 ||| (c &&& 0xf0) >>> 4

/-- The value of the third character: four bits of the second byte and two of the third. -/
def thirdValue (c d : UInt8) : UInt8 := (c &&& 0x0f) <<< 2 ||| (d &&& 0xc0) >>> 6

/-- The value of the fourth character: six bits of the third byte. -/
def fourthValue (d : UInt8) : UInt8 := d &&& 0x3f

lemma firstValue_lt (b : UInt8) : firstValue b < 64 := by
  refine lt_of_and_eq (UInt8.eq_of_toBitVec_eq ?_)
  ext i hi
  interval_cases i <;> simp [firstValue]

lemma secondValue_lt (b c : UInt8) : secondValue b c < 64 := by
  refine lt_of_and_eq (UInt8.eq_of_toBitVec_eq ?_)
  ext i hi
  interval_cases i <;> simp [secondValue]

lemma thirdValue_lt (c d : UInt8) : thirdValue c d < 64 := by
  refine lt_of_and_eq (UInt8.eq_of_toBitVec_eq ?_)
  ext i hi
  interval_cases i <;> simp [thirdValue]

lemma fourthValue_lt (d : UInt8) : fourthValue d < 64 := by
  refine lt_of_and_eq (UInt8.eq_of_toBitVec_eq ?_)
  ext i hi
  interval_cases i <;> simp [fourthValue]

/-- What the decoder keeps of the first character. -/
lemma keep_firstValue (b : UInt8) : (firstValue b &&& 0x3f) <<< 2 = b &&& 0xfc := by
  apply UInt8.eq_of_toBitVec_eq
  ext i hi
  interval_cases i <;> simp [firstValue]

/-- The second character completes the first byte. -/
lemma complete_secondValue (b c : UInt8) :
    (b &&& (0xfc : UInt8)) ||| (secondValue b c &&& 0x30) >>> 4 = b := by
  apply UInt8.eq_of_toBitVec_eq
  ext i hi
  interval_cases i <;> simp [secondValue]

/-- What the decoder keeps of the second character. -/
lemma keep_secondValue (b c : UInt8) : (secondValue b c &&& 0x0f) <<< 4 = c &&& 0xf0 := by
  apply UInt8.eq_of_toBitVec_eq
  ext i hi
  interval_cases i <;> simp [secondValue]

/-- The third character completes the second byte. -/
lemma complete_thirdValue (c d : UInt8) :
    (c &&& (0xf0 : UInt8)) ||| (thirdValue c d &&& 0x3c) >>> 2 = c := by
  apply UInt8.eq_of_toBitVec_eq
  ext i hi
  interval_cases i <;> simp [thirdValue]

/-- What the decoder keeps of the third character. -/
lemma keep_thirdValue (c d : UInt8) : (thirdValue c d &&& 0x03) <<< 6 = d &&& 0xc0 := by
  apply UInt8.eq_of_toBitVec_eq
  ext i hi
  interval_cases i <;> simp [thirdValue]

/-- The fourth character completes the third byte. -/
lemma complete_fourthValue (d : UInt8) :
    (d &&& (0xc0 : UInt8)) ||| (fourthValue d &&& 0x3f) = d := by
  apply UInt8.eq_of_toBitVec_eq
  ext i hi
  interval_cases i <;> simp [fourthValue]

/-! ## The decoder follows the encoder -/

section Follows

variable (past : Int8)

/-- A character that is skipped changes nothing. -/
lemma decodeChar_skip {c : UInt8} (hc : carries past c = false) (t : DecodeState) :
    decodeChar past t c = (t, []) := by
  rw [decodeChar, hc]
  rfl

/-- What the character of a value does in the first place of a group. -/
lemma decodeChar_a {v : UInt8} (hv : v < 64) (p : UInt8) :
    decodeChar past ⟨.step_a, p⟩ (encodeValue v) = (⟨.step_b, (v &&& 0x3f) <<< 2⟩, []) := by
  rw [decodeChar, carries_encodeValue past hv, fragmentOf_encodeValue past hv]
  rfl

/-- What the character of a value does in the second place of a group. -/
lemma decodeChar_b {v : UInt8} (hv : v < 64) (p : UInt8) :
    decodeChar past ⟨.step_b, p⟩ (encodeValue v) =
      (⟨.step_c, (v &&& 0x0f) <<< 4⟩, [p ||| (v &&& 0x30) >>> 4]) := by
  rw [decodeChar, carries_encodeValue past hv, fragmentOf_encodeValue past hv]
  rfl

/-- What the character of a value does in the third place of a group. -/
lemma decodeChar_c {v : UInt8} (hv : v < 64) (p : UInt8) :
    decodeChar past ⟨.step_c, p⟩ (encodeValue v) =
      (⟨.step_d, (v &&& 0x03) <<< 6⟩, [p ||| (v &&& 0x3c) >>> 2]) := by
  rw [decodeChar, carries_encodeValue past hv, fragmentOf_encodeValue past hv]
  rfl

/-- What the character of a value does in the fourth place of a group. -/
lemma decodeChar_d {v : UInt8} (hv : v < 64) (p : UInt8) :
    decodeChar past ⟨.step_d, p⟩ (encodeValue v) = (⟨.step_a, p⟩, [p ||| (v &&& 0x3f)]) := by
  rw [decodeChar, carries_encodeValue past hv, fragmentOf_encodeValue past hv]
  rfl

/-- The two machines between two bytes: which byte the characters so far have not completed, and
which of its bits either side keeps. -/
inductive Between : EncodeState → List UInt8 → DecodeState → Prop
  | group (result : UInt8) (n : ℕ) (p : UInt8) : Between ⟨.step_A, result, n⟩ [] ⟨.step_a, p⟩
  | afterFirst (b : UInt8) (n : ℕ) :
      Between ⟨.step_B, (b &&& 0x03) <<< 4, n⟩ [b] ⟨.step_b, b &&& 0xfc⟩
  | afterSecond (c : UInt8) (n : ℕ) :
      Between ⟨.step_C, (c &&& 0x0f) <<< 2, n⟩ [c] ⟨.step_c, c &&& 0xf0⟩

/-- The decoder follows the encoder byte by byte. -/
theorem follows_encodeByte : Follows encodeByte (decodeChar past) Between := by
  rintro s pending t a (⟨result, n, p⟩ | ⟨b, n⟩ | ⟨c, n⟩)
  · have hout : encodeByte ⟨.step_A, result, n⟩ a =
        (⟨.step_B, (a &&& 0x03) <<< 4, n⟩, [encodeValue (firstValue a)]) := rfl
    rw [hout]
    refine ⟨[a], ?_, ?_⟩
    all_goals simp only [feed_cons, feed_nil, decodeChar_a past (firstValue_lt a),
      keep_firstValue]
    · rfl
    · exact .afterFirst a n
  · have hout : encodeByte ⟨.step_B, (b &&& 0x03) <<< 4, n⟩ a =
        (⟨.step_C, (a &&& 0x0f) <<< 2, n⟩, [encodeValue (secondValue b a)]) := rfl
    rw [hout]
    refine ⟨[a], ?_, ?_⟩
    all_goals simp only [feed_cons, feed_nil, decodeChar_b past (secondValue_lt b a),
      keep_secondValue, complete_secondValue]
    · rfl
    · exact .afterSecond a n
  · have hout : encodeByte ⟨.step_C, (c &&& 0x0f) <<< 2, n⟩ a =
        (⟨.step_A, a &&& 0x3f, n + 1⟩,
          [encodeValue (thirdValue c a), encodeValue (fourthValue a)]) := rfl
    rw [hout]
    refine ⟨[], ?_, ?_⟩
    all_goals simp only [feed_cons, feed_nil, decodeChar_c past (thirdValue_lt c a),
      decodeChar_d past (fourthValue_lt a), keep_thirdValue, complete_thirdValue,
      complete_fourthValue]
    · rfl
    · exact .group _ _ _

/-- The characters that close the code make the decoder emit the byte that was pending. -/
lemma feed_encodeBlockEnd {s : EncodeState} {pending : List UInt8} {t : DecodeState}
    (h : Between s pending t) :
    (feed (decodeChar past) t (encodeBlockEnd s)).2 = pending := by
  have hskip := decodeChar_skip past (carries_padding past)
  obtain ⟨result, n, p⟩ | ⟨b, n⟩ | ⟨c, n⟩ := h
  · rfl
  · have hvalue : (b &&& 0x03) <<< 4 = secondValue b 0 := by simp [secondValue]
    have hout : encodeBlockEnd ⟨.step_B, (b &&& 0x03) <<< 4, n⟩ =
        [encodeValue (secondValue b 0), padding, padding] := by rw [← hvalue]; rfl
    rw [hout]
    simp only [feed_cons, feed_nil, hskip, decodeChar_b past (secondValue_lt b 0),
      complete_secondValue]
    rfl
  · have hvalue : (c &&& 0x0f) <<< 2 = thirdValue c 0 := by simp [thirdValue]
    have hout : encodeBlockEnd ⟨.step_C, (c &&& 0x0f) <<< 2, n⟩ =
        [encodeValue (thirdValue c 0), padding] := by rw [← hvalue]; rfl
    rw [hout]
    simp only [feed_cons, feed_nil, hskip, decodeChar_c past (thirdValue_lt c 0),
      complete_thirdValue]
    rfl

/-- What one pass over the whole code of some bytes emits. -/
theorem feed_code (plaintext : List UInt8) :
    (feed (decodeChar past) initDecodeState
      ((feed encodeByte initEncodeState plaintext).2 ++
        encodeBlockEnd (feed encodeByte initEncodeState plaintext).1)).2 = plaintext := by
  have hstart : Between initEncodeState [] initDecodeState := .group 0 0 0
  obtain ⟨pending, hpending, hbetween⟩ := (follows_encodeByte past).feed hstart plaintext
  rw [feed_append, feed_encodeBlockEnd past hbetween, ← hpending, List.nil_append]

end Follows

/-! ## The block interface -/

/-- The code of some blocks of bytes, encoded one after the other and closed. -/
def encodeBlocks (blocks : List (List UInt8)) : List UInt8 :=
  let code := feedBlocks encodeByte initEncodeState blocks
  code.2 ++ encodeBlockEnd code.1

/-- The bytes of some blocks of characters, decoded one after the other. -/
def decodeBlocks (past : Int8) (blocks : List (List UInt8)) : List UInt8 :=
  (feedBlocks (decodeChar past) initDecodeState blocks).2

/-- **Whatever the blocks, the decoder returns the encoded bytes.**  The bytes are encoded in any
blocks.  Their code is decoded in any other blocks, and characters that carry no bits may have been
put in between or left out. -/
theorem decodeBlocks_encodeBlocks (past : Int8) (plaintext code : List (List UInt8))
    (hcode : code.flatten.filter (carries past) =
      (encodeBlocks plaintext).filter (carries past)) :
    decodeBlocks past code = plaintext.flatten := by
  have hskip : ∀ t c, carries past c = false → decodeChar past t c = (t, []) :=
    fun t c hc => decodeChar_skip past hc t
  rw [decodeBlocks, feedBlocks_eq_feed, ← feed_filter hskip, hcode, feed_filter hskip,
    encodeBlocks, feedBlocks_eq_feed]
  exact feed_code past plaintext.flatten

/-- `Man` is `TWFu`, here with a line break in it. -/
theorem decodeBlocks_encodeBlocks_man :
    decodeBlocks 0 [[84, 87, 10], [70, 117]] = [77, 97, 110] :=
  decodeBlocks_encodeBlocks 0 [[77, 97], [110]] [[84, 87, 10], [70, 117]] (by decide)

/-- The characters of one block fit a buffer of twice its size. -/
lemma length_encodeBlock_le (s : EncodeState) (plaintext : List UInt8) :
    (encodeBlock s plaintext).2.length ≤ 2 * plaintext.length := by
  refine length_feed_le (fun s fragment => ?_) s plaintext
  rcases s with ⟨_ | _ | _, _, _⟩ <;> simp [encodeByte]

/-- The characters that close the code are at most three. -/
lemma length_encodeBlockEnd_le (s : EncodeState) : (encodeBlockEnd s).length ≤ 3 := by
  rcases s with ⟨_ | _ | _, _, _⟩ <;> simp [encodeBlockEnd]

/-- The buffer of `Encoder::encode` takes no part in the code. -/
lemma encodeLoop_eq (bufferSize : ℕ) [NeZero bufferSize] (s : EncodeState)
    (plaintext : List UInt8) :
    encodeLoop bufferSize s plaintext = feed encodeByte s plaintext := by
  fun_induction encodeLoop bufferSize s plaintext with
  | case1 s => rfl
  | case2 s plaintext _ block rest ih =>
    have happend : feed encodeByte s (plaintext.take bufferSize ++ plaintext.drop bufferSize) = _ :=
      feed_append s _ _
    rw [List.take_append_drop] at happend
    have hrest : rest = feed encodeByte block.1 (plaintext.drop bufferSize) := ih
    rw [happend, hrest]
    rfl

/-- `Encoder::encode` writes the code of its bytes as one block. -/
lemma encode_eq (bufferSize : ℕ) [NeZero bufferSize] (plaintext : List UInt8) :
    encode bufferSize plaintext = encodeBlocks [plaintext] := by
  rw [encode, encodeBlocks, encodeLoop_eq, feedBlocks_eq_feed]
  simp

end Base64

end NaoSoccer
