import NaoSoccer.SimSpark.Base64

/-!
# What the base64 decoder writes

`base64_decode_block` keeps the byte that is not complete yet in the output itself: it ors the next
bits into `*plainchar`, moves the pointer on and stores the bits that are left over in the byte
behind.  `Decoder::decode` calls it with blocks that are no longer than the space that is left.

The output is a block of memory here, and an access outside of it fails.  `Decoder::decode` agrees
with the decoder that takes one character after the other until the space is used up
(`decodeLoop_eq_decodeWithin`), and from that it follows which bytes it writes: the decoded ones,
and up to one byte behind them, which is the byte behind the buffer if the buffer is filled in the
middle of a group (`decode_eq_none_iff`).
-/

namespace NaoSoccer

namespace Base64

open Transducer

/-- The registers of `base64_decode_block` and the memory behind its output pointer, which is an
offset here. -/
structure DecodeRegisters where
  step : DecodeStep
  plainchar : ℕ
  plaintext : List UInt8
  deriving DecidableEq, Repr

/-- `*plainchar = value` -/
def store (plaintext : List UInt8) (plainchar : ℕ) (value : UInt8) : Option (List UInt8) :=
  if plainchar < plaintext.length then some (plaintext.set plainchar value) else none

/-- `*plainchar |= value` -/
def orInto (plaintext : List UInt8) (plainchar : ℕ) (value : UInt8) : Option (List UInt8) :=
  plaintext[plainchar]?.map fun old => plaintext.set plainchar (old ||| value)

/-- `*plainchar++ |= low; *plainchar = high;` -/
def completeAndKeep (plaintext : List UInt8) (plainchar : ℕ) (low high : UInt8) :
    Option (List UInt8) :=
  (orInto plaintext plainchar low).bind fun text => store text (plainchar + 1) high

/-- One character of the loop of `base64_decode_block`. -/
def decodeCharInto (past : Int8) (r : DecodeRegisters) (c : UInt8) : Option DecodeRegisters :=
  if carries past c then
    let fragment := fragmentOf past c
    match r.step with
    | .step_a =>
      (store r.plaintext r.plainchar ((fragment &&& 0x3f) <<< 2)).map fun text =>
        ⟨.step_b, r.plainchar, text⟩
    | .step_b =>
      (completeAndKeep r.plaintext r.plainchar ((fragment &&& 0x30) >>> 4)
        ((fragment &&& 0x0f) <<< 4)).map fun text => ⟨.step_c, r.plainchar + 1, text⟩
    | .step_c =>
      (completeAndKeep r.plaintext r.plainchar ((fragment &&& 0x3c) >>> 2)
        ((fragment &&& 0x03) <<< 6)).map fun text => ⟨.step_d, r.plainchar + 1, text⟩
    | .step_d =>
      (orInto r.plaintext r.plainchar (fragment &&& 0x3f)).map fun text =>
        ⟨.step_a, r.plainchar + 1, text⟩
  else some r

/-- The loop of `base64_decode_block`. -/
def decodeCharsInto (past : Int8) : DecodeRegisters → List UInt8 → Option DecodeRegisters
  | r, [] => some r
  | r, c :: cs => (decodeCharInto past r c).bind fun r' => decodeCharsInto past r' cs

/-- `base64_decode_block`: the number of bytes that it completes, the state that it leaves and the
memory.  Its last access reads the byte under the pointer; behind the memory it finds `stray`. -/
def decodeBlockInto (past : Int8) (stray : UInt8) (code : List UInt8) (plaintext : List UInt8)
    (plainchar : ℕ) (t : DecodeState) : Option (ℕ × DecodeState × List UInt8) :=
  (store plaintext plainchar t.plainchar).bind fun text =>
    (decodeCharsInto past ⟨t.step, plainchar, text⟩ code).map fun r =>
      (r.plainchar - plainchar, ⟨r.step, r.plaintext.getD r.plainchar stray⟩, r.plaintext)

/-- The loop of `Decoder::decode(in, out, out_len)`. -/
def decodeLoop (past : Int8) (stray : UInt8) (code : List UInt8) (outLen totalLen : ℕ)
    (t : DecodeState) (out : List UInt8) : Option (ℕ × List UInt8) :=
  if _h : 0 < code.length ∧ 0 < outLen then
    let codelength := if code.length > outLen then outLen else code.length
    (decodeBlockInto past stray (code.take codelength) out totalLen t).bind fun block =>
      decodeLoop past stray (code.drop codelength) (outLen - block.1) (totalLen + block.1)
        block.2.1 block.2.2
  else some (totalLen, out)
termination_by code.length
decreasing_by
  rw [List.length_drop]
  split <;> omega

/-- `Decoder::decode(in, out, out_len)`, where `out` is the memory that `out` points to: the value
that it returns and the memory. -/
def decode (past : Int8) (stray : UInt8) (code : List UInt8) (out : List UInt8) (outLen : ℕ) :
    Option (ℕ × List UInt8) :=
  decodeLoop past stray code outLen 0 initDecodeState out

/-! ## Blocks do not matter -/

/-- The decoder that takes one character after the other until `limit` bytes are complete. -/
def decodeWithin (past : Int8) (limit : ℕ) : DecodeRegisters → List UInt8 → Option DecodeRegisters
  | r, [] => some r
  | r, c :: cs =>
    if r.plainchar < limit then
      (decodeCharInto past r c).bind fun r' => decodeWithin past limit r' cs
    else some r

/-- A character completes at most one byte. -/
lemma plainchar_decodeCharInto {past : Int8} {r r' : DecodeRegisters} {c : UInt8}
    (h : decodeCharInto past r c = some r') :
    r.plainchar ≤ r'.plainchar ∧ r'.plainchar ≤ r.plainchar + 1 := by
  unfold decodeCharInto at h
  split at h
  · rcases r with ⟨_ | _ | _ | _, plainchar, text⟩
    all_goals
      simp only [Option.map_eq_some_iff] at h
      obtain ⟨_, -, rfl⟩ := h
      simp
  · simp only [Option.some.injEq] at h
    subst h
    omega

/-- Some characters complete at most as many bytes. -/
lemma plainchar_decodeCharsInto {past : Int8} {code : List UInt8} {r r' : DecodeRegisters}
    (h : decodeCharsInto past r code = some r') :
    r.plainchar ≤ r'.plainchar ∧ r'.plainchar ≤ r.plainchar + code.length := by
  induction code generalizing r with
  | nil =>
    simp only [decodeCharsInto, Option.some.injEq] at h
    subst h
    simp
  | cons c cs ih =>
    obtain ⟨mid, hmid, hrest⟩ := Option.bind_eq_some_iff.mp h
    have hfirst := plainchar_decodeCharInto hmid
    have hlast := ih hrest
    rw [List.length_cons]
    omega

/-- As long as there is space for a byte for each character, the limit is not noticed. -/
lemma decodeWithin_append {past : Int8} {limit : ℕ} {code : List UInt8} {r : DecodeRegisters}
    (h : r.plainchar + code.length ≤ limit) (rest : List UInt8) :
    decodeWithin past limit r (code ++ rest) =
      (decodeCharsInto past r code).bind fun r' => decodeWithin past limit r' rest := by
  induction code generalizing r with
  | nil => rfl
  | cons c cs ih =>
    rw [List.length_cons] at h
    rw [List.cons_append, decodeWithin, if_pos (by omega), decodeCharsInto, Option.bind_assoc]
    refine Option.bind_congr fun r' hr' => ih ?_
    have := (plainchar_decodeCharInto hr').2
    omega

/-- A store keeps the size of the memory. -/
lemma length_of_store {text text' : List UInt8} {i : ℕ} {value : UInt8}
    (h : store text i value = some text') : text'.length = text.length := by
  unfold store at h
  split at h
  · simp only [Option.some.injEq] at h
    rw [← h, List.length_set]
  · exact nomatch h

/-- An update keeps the size of the memory. -/
lemma length_of_orInto {text text' : List UInt8} {i : ℕ} {value : UInt8}
    (h : orInto text i value = some text') : text'.length = text.length := by
  obtain ⟨old, -, rfl⟩ := Option.map_eq_some_iff.mp h
  exact List.length_set

/-- Completing a byte keeps the size of the memory. -/
lemma length_of_completeAndKeep {text text' : List UInt8} {i : ℕ} {low high : UInt8}
    (h : completeAndKeep text i low high = some text') : text'.length = text.length := by
  obtain ⟨mid, hmid, hstore⟩ := Option.bind_eq_some_iff.mp h
  rw [length_of_store hstore, length_of_orInto hmid]

/-- A character keeps the size of the memory. -/
lemma length_decodeCharInto {past : Int8} {r r' : DecodeRegisters} {c : UInt8}
    (h : decodeCharInto past r c = some r') : r'.plaintext.length = r.plaintext.length := by
  unfold decodeCharInto at h
  split at h
  · rcases r with ⟨_ | _ | _ | _, plainchar, text⟩
    all_goals
      simp only [Option.map_eq_some_iff] at h
      obtain ⟨text', htext', rfl⟩ := h
    · exact length_of_store htext'
    · exact length_of_completeAndKeep htext'
    · exact length_of_completeAndKeep htext'
    · exact length_of_orInto htext'
  · simp only [Option.some.injEq] at h
    rw [h]

/-- Some characters keep the size of the memory. -/
lemma length_decodeCharsInto {past : Int8} {code : List UInt8} {r r' : DecodeRegisters}
    (h : decodeCharsInto past r code = some r') :
    r'.plaintext.length = r.plaintext.length := by
  induction code generalizing r with
  | nil =>
    simp only [decodeCharsInto, Option.some.injEq] at h
    rw [h]
  | cons c cs ih =>
    obtain ⟨mid, hmid, hrest⟩ := Option.bind_eq_some_iff.mp h
    rw [ih hrest, length_decodeCharInto hmid]

/-- The first statement of a block stores the byte that the last block has read there. -/
lemma store_getD {text : List UInt8} {i : ℕ} (h : i < text.length) (stray : UInt8) :
    store text i (text.getD i stray) = some text := by
  rw [store, if_pos h, List.getD_eq_getElem _ _ h, List.set_getElem_self]

/-- The blocks of `Decoder::decode` take one character after the other until the space is used
up. -/
theorem decodeLoop_eq_decodeWithin (past : Int8) (stray : UInt8) (limit : ℕ) :
    ∀ (code : List UInt8) (r : DecodeRegisters), r.plainchar ≤ limit →
      limit ≤ r.plaintext.length →
      decodeLoop past stray code (limit - r.plainchar) r.plainchar
          ⟨r.step, r.plaintext.getD r.plainchar stray⟩ r.plaintext =
        (decodeWithin past limit r code).map fun r' => (r'.plainchar, r'.plaintext) := by
  intro code
  induction hn : code.length using Nat.strong_induction_on generalizing code with
  | _ n ih =>
    intro r hr hlimit
    rw [decodeLoop]
    split
    next hloop =>
      obtain ⟨hcode, hspace⟩ := hloop
      dsimp only
      -- the block is no longer than the space that is left
      generalize hk : (if code.length > limit - r.plainchar then limit - r.plainchar
        else code.length) = k
      have hkpos : 0 < k := by rw [← hk]; split <;> omega
      have hkcode : k ≤ code.length := by rw [← hk]; split <;> omega
      have hkspace : r.plainchar + k ≤ limit := by
        have : k ≤ limit - r.plainchar := by rw [← hk]; split <;> omega
        omega
      have hinside : r.plainchar < r.plaintext.length := by omega
      have htake : (code.take k).length = k := by rw [List.length_take]; omega
      have hblocks : decodeWithin past limit r code =
          (decodeCharsInto past r (code.take k)).bind fun r' =>
            decodeWithin past limit r' (code.drop k) := by
        rw [← decodeWithin_append (by omega), List.take_append_drop]
      rw [hblocks, decodeBlockInto, store_getD hinside]
      simp only [Option.bind_some, Option.map_bind, Option.bind_map]
      refine Option.bind_congr fun r' hr' => ?_
      have hpointer := plainchar_decodeCharsInto (r := r) hr'
      have hlength := length_decodeCharsInto (r := r) hr'
      have hrest := ih (code.drop k).length (by rw [List.length_drop]; omega) (code.drop k) rfl r'
        (by omega) (by omega)
      simp only [Function.comp]
      rw [← hrest]
      congr 1 <;> omega
    next hloop =>
      cases code with
      | nil => rfl
      | cons c cs =>
        have hfull : ¬ r.plainchar < limit := by
          rw [List.length_cons] at hloop
          omega
        rw [decodeWithin, if_neg hfull]
        rfl

/-! ## What the memory holds -/

/-- A store behind the bytes `out`. -/
lemma store_append (out rest : List UInt8) (old value : UInt8) :
    store (out ++ old :: rest) out.length value = some (out ++ value :: rest) := by
  rw [store, if_pos (by simp)]
  simp

/-- An update behind the bytes `out`. -/
lemma orInto_append (out rest : List UInt8) (old value : UInt8) :
    orInto (out ++ old :: rest) out.length value = some (out ++ (old ||| value) :: rest) := by
  simp [orInto]

/-- Completing a byte that has another one behind it. -/
lemma completeAndKeep_append (out rest : List UInt8) (old next low high : UInt8) :
    completeAndKeep (out ++ old :: next :: rest) out.length low high =
      some (out ++ (old ||| low) :: high :: rest) := by
  have hstore := store_append (out ++ [old ||| low]) rest next high
  simp only [List.length_append, List.length_singleton, List.append_assoc,
    List.singleton_append] at hstore
  rw [completeAndKeep, orInto_append, Option.bind_some, hstore]

/-- Completing the last byte of the memory leaves no room for the bits that are left over. -/
lemma completeAndKeep_last (out : List UInt8) (old low high : UInt8) :
    completeAndKeep (out ++ [old]) out.length low high = none := by
  rw [completeAndKeep, orInto_append, Option.bind_some, store, if_neg (by simp)]

/-- The byte that is not complete, if there is one. -/
def kept (t : DecodeState) : List UInt8 :=
  match t.step with
  | .step_a => []
  | _ => [t.plainchar]

/-- How many bytes of its group are complete. -/
def completeInGroup : DecodeStep → ℕ
  | .step_a => 0
  | .step_b => 0
  | .step_c => 1
  | .step_d => 2

/-- The registers after the bytes `out` were decoded into `memory`: the memory holds them and the
byte that is not complete, and is untouched behind it. -/
structure Holds (memory out : List UInt8) (t : DecodeState) (r : DecodeRegisters) : Prop where
  step : r.step = t.step
  plainchar : r.plainchar = out.length
  plaintext : r.plaintext = out ++ kept t ++ memory.drop (out.length + (kept t).length)
  fits : out.length + (kept t).length ≤ memory.length
  group : out.length % 3 = completeInGroup t.step

/-- A character in the middle of a group completes a byte and keeps the bits that are left over in
the byte behind, if the memory has one. -/
lemma completeAndKeep_of_holds {memory out : List UInt8} {next : DecodeStep} {p low high : UInt8}
    (hroom : out.length < memory.length) (hgroup : (out.length + 1) % 3 = completeInGroup next)
    (hpos : completeInGroup next ≠ 0) (hkept : kept ⟨next, high⟩ = [high]) :
    match (completeAndKeep (out ++ [p] ++ memory.drop (out.length + 1)) out.length low high).map
      fun text => (⟨next, out.length + 1, text⟩ : DecodeRegisters) with
    | none => memory.length = out.length + 1 ∧ memory.length % 3 ≠ 0 ∧ [p ||| low].length = 1
    | some r' => Holds memory (out ++ [p ||| low]) ⟨next, high⟩ r' := by
  rw [List.append_assoc, List.singleton_append]
  by_cases hspace : out.length + 1 < memory.length
  · rw [List.drop_eq_getElem_cons hspace, completeAndKeep_append, Option.map_some]
    refine ⟨rfl, by simp, ?_, ?_, by simpa using hgroup⟩
    · simp [hkept]
    · simpa [hkept] using Nat.succ_le_of_lt hspace
  · have hlength : memory.length = out.length + 1 := by omega
    rw [List.drop_eq_nil_of_le hlength.le, completeAndKeep_last, Option.map_none]
    exact ⟨hlength, by rwa [hlength, hgroup], rfl⟩

/-- A character, if the memory has room for what it stores. -/
lemma decodeCharInto_of_holds (past : Int8) {memory out : List UInt8} {t : DecodeState}
    {r : DecodeRegisters} (h : Holds memory out t r) (hroom : out.length < memory.length)
    (c : UInt8) :
    match decodeCharInto past r c with
    | none => memory.length = out.length + 1 ∧ memory.length % 3 ≠ 0 ∧
        (decodeChar past t c).2.length = 1
    | some r' => Holds memory (out ++ (decodeChar past t c).2) (decodeChar past t c).1 r' := by
  obtain ⟨step, plainchar, text⟩ := r
  obtain ⟨tstep, p⟩ := t
  obtain ⟨hstep, hplainchar, htext, hfits, hgroup⟩ := h
  dsimp only at hstep hplainchar htext hfits hgroup
  subst hstep hplainchar
  cases hc : carries past c with
  | false =>
    simp only [decodeCharInto, decodeChar, hc, Bool.false_eq_true, if_false, List.append_nil]
    exact ⟨rfl, rfl, htext, hfits, hgroup⟩
  | true =>
    -- in the second and third place of a group the bits that are left over need a byte of their own
    cases step with
    | step_a =>
      have hnext := List.drop_eq_getElem_cons hroom
      simp only [kept, List.append_nil, List.length_nil, Nat.add_zero] at htext
      rw [htext, hnext]
      simp only [decodeCharInto, decodeChar, hc, if_true, store_append, Option.map_some,
        List.append_nil]
      refine ⟨rfl, rfl, ?_, hroom, hgroup⟩
      simp [kept]
    | step_b =>
      rw [htext]
      simp only [decodeCharInto, decodeChar, hc, if_true]
      refine completeAndKeep_of_holds hroom ?_ (by decide) rfl
      rw [Nat.add_mod, hgroup]
      rfl
    | step_c =>
      rw [htext]
      simp only [decodeCharInto, decodeChar, hc, if_true]
      refine completeAndKeep_of_holds hroom ?_ (by decide) rfl
      rw [Nat.add_mod, hgroup]
      rfl
    | step_d =>
      simp only [kept, List.length_singleton, List.append_assoc, List.singleton_append] at htext
      rw [htext]
      simp only [decodeCharInto, decodeChar, hc, if_true, orInto_append, Option.map_some]
      refine ⟨rfl, by simp, ?_, ?_, ?_⟩
      · simp [kept]
      · simpa [kept] using Nat.succ_le_of_lt hroom
      · simp only [completeInGroup] at hgroup ⊢
        rw [List.length_append, List.length_singleton]
        omega

/-- A character completes at most one byte. -/
lemma length_decodeChar_le (past : Int8) (t : DecodeState) (c : UInt8) :
    (decodeChar past t c).2.length ≤ 1 := by
  unfold decodeChar
  split
  · rcases t with ⟨_ | _ | _ | _, _⟩ <;> simp
  · simp

/-- The first character of a group completes no byte. -/
lemma decodeChar_step_b {past : Int8} {t : DecodeState} {c : UInt8}
    (h : (decodeChar past t c).1.step = .step_b) : (decodeChar past t c).2 = [] := by
  unfold decodeChar at h ⊢
  split at h
  next hc =>
    rw [if_pos hc]
    rcases t with ⟨_ | _ | _ | _, _⟩
    · rfl
    all_goals exact nomatch h
  next hc => rw [if_neg hc]

/-- Before the first byte of a group is complete and after it, one byte is kept. -/
lemma kept_eq_nil_or (t : DecodeState) :
    (t.step = .step_a ∧ kept t = []) ∨ (t.step ≠ .step_a ∧ kept t = [t.plainchar]) := by
  rcases t with ⟨_ | _ | _ | _, _⟩ <;> simp [kept]

/-- The memory in the registers: the decoded bytes, one byte more at most, and what was there. -/
lemma Holds.memory {memory out : List UInt8} {t : DecodeState} {r : DecodeRegisters}
    (h : Holds memory out t r) :
    r.plaintext.length = memory.length ∧ r.plaintext.take out.length = out ∧
      r.plaintext.drop (out.length + 1) = memory.drop (out.length + 1) ∧
      (t.step = .step_a → r.plaintext.drop out.length = memory.drop out.length) := by
  have hfits := h.fits
  rw [h.plaintext]
  obtain ⟨hstep, hkept⟩ | ⟨hstep, hkept⟩ := kept_eq_nil_or t
  all_goals rw [hkept] at hfits ⊢
  · simp only [List.append_nil, List.length_nil, Nat.add_zero] at hfits ⊢
    refine ⟨?_, List.take_left, ?_, fun _ => List.drop_left⟩
    · rw [List.length_append, List.length_drop]
      omega
    · rw [← List.drop_drop, List.drop_left, List.drop_drop]
  · rw [List.length_singleton] at hfits ⊢
    refine ⟨?_, ?_, ?_, fun ha => absurd ha hstep⟩
    · simp only [List.length_append, List.length_singleton, List.length_drop]
      omega
    · rw [List.append_assoc, List.take_left]
    · have hlength : (out ++ [t.plainchar]).length = out.length + 1 := by simp
      rw [← hlength, List.drop_left, hlength]

/-- What the decoder leaves that stops when `limit` bytes are complete. -/
lemma decodeWithin_of_holds (past : Int8) {memory : List UInt8} {limit : ℕ}
    (hlimit : limit ≤ memory.length) (code : List UInt8) {out : List UInt8} {t : DecodeState}
    {r : DecodeRegisters} (h : Holds memory out t r) (hout : out.length ≤ limit)
    (hfirst : t.step = .step_b → out.length < limit) :
    match decodeWithin past limit r code with
    | none => limit = memory.length ∧ limit % 3 ≠ 0 ∧
        limit ≤ (out ++ (feed (decodeChar past) t code).2).length
    | some r' => ∃ t',
        Holds memory ((out ++ (feed (decodeChar past) t code).2).take limit) t' r' ∧
        (t'.step = .step_b →
          ((out ++ (feed (decodeChar past) t code).2).take limit).length < limit) := by
  induction code generalizing out t r with
  | nil =>
    refine ⟨t, ?_⟩
    rw [feed_nil, List.append_nil, List.take_of_length_le hout]
    exact ⟨h, hfirst⟩
  | cons c cs ih =>
    rw [decodeWithin]
    by_cases hroom : r.plainchar < limit
    · rw [if_pos hroom]
      rw [h.plainchar] at hroom
      have hchar := decodeCharInto_of_holds past h (by omega) c
      have hle := length_decodeChar_le past t c
      rw [feed_cons, ← List.append_assoc]
      cases hr : decodeCharInto past r c with
      | none =>
        rw [hr] at hchar
        obtain ⟨hlast, hgroup, hlength⟩ := hchar
        have hfull : limit = memory.length := by omega
        refine ⟨hfull, by rwa [hfull], ?_⟩
        simp only [List.length_append, hlength]
        omega
      | some r' =>
        rw [hr] at hchar
        refine ih hchar (by rw [List.length_append]; omega) fun hb => ?_
        rwa [decodeChar_step_b hb, List.append_nil]
    · rw [if_neg hroom]
      rw [h.plainchar] at hroom
      refine ⟨t, ?_⟩
      rw [List.take_append_of_le_length (by omega), List.take_of_length_le hout]
      exact ⟨h, hfirst⟩

/-- The loop of `Decoder::decode` clears the first byte of its output. -/
lemma decode_eq (past : Int8) (stray : UInt8) {code out : List UInt8} {outLen : ℕ}
    (hcode : 0 < code.length) (hspace : 0 < outLen) (hout : outLen ≤ out.length) :
    decode past stray code out outLen =
      (decodeWithin past outLen ⟨.step_a, 0, out.set 0 0⟩ code).map fun r' =>
        (r'.plainchar, r'.plaintext) := by
  have hloop := decodeLoop_eq_decodeWithin past stray outLen code
    ⟨.step_a, 0, out.set 0 0⟩ (Nat.zero_le _) (by simpa using hout)
  rw [← hloop, decode]
  have hfirst : (out.set 0 0).getD 0 stray = 0 := by
    rw [List.getD_eq_getElem _ _ (by simp; omega)]
    simp
  have hstore : store (out.set 0 0) 0 0 = store out 0 0 := by simp [store]
  simp only [hfirst, Nat.sub_zero]
  rw [decodeLoop, decodeLoop, dif_pos ⟨hcode, hspace⟩, dif_pos ⟨hcode, hspace⟩]
  simp only [decodeBlockInto, initDecodeState, hstore]

/-- **What `Decoder::decode` writes.**  It decodes the characters in one pass until `outLen` bytes
are complete.  It leaves the memory behind the byte after them alone, and that byte too if it fills
the buffer with whole groups.  If it fills a buffer that ends where the memory ends in the middle
of a group, it stores one byte behind it. -/
theorem decode_memory (past : Int8) (stray : UInt8) (code out : List UInt8) (outLen : ℕ)
    (hout : outLen ≤ out.length) :
    (decode past stray code out outLen = none ↔
      outLen = out.length ∧ outLen % 3 ≠ 0 ∧ outLen ≤ (decodeBlocks past [code]).length) ∧
    ∀ n out', decode past stray code out outLen = some (n, out') →
      n = min outLen (decodeBlocks past [code]).length ∧
      out'.length = out.length ∧
      out'.take n = (decodeBlocks past [code]).take n ∧
      out'.drop (n + 1) = out.drop (n + 1) ∧
      (n = outLen → n % 3 = 0 → out'.drop n = out.drop n) := by
  have hbytes : decodeBlocks past [code] = (feed (decodeChar past) initDecodeState code).2 := by
    simp [decodeBlocks, feedBlocks_eq_feed]
  rw [hbytes]
  by_cases hloop : 0 < code.length ∧ 0 < outLen
  · rw [decode_eq past stray hloop.1 hloop.2 hout]
    have hmemory : (out.set 0 0).length = out.length := List.length_set
    have hdrop : ∀ k, 0 < k → (out.set 0 0).drop k = out.drop k := fun k hk =>
      List.drop_set_of_lt hk
    have hstart : Holds (out.set 0 0) [] initDecodeState ⟨.step_a, 0, out.set 0 0⟩ :=
      ⟨rfl, rfl, rfl, Nat.zero_le _, rfl⟩
    have hwithin := decodeWithin_of_holds past (hmemory.symm ▸ hout) code hstart (Nat.zero_le _)
      (fun _ => hloop.2)
    rw [List.nil_append] at hwithin
    generalize (feed (decodeChar past) initDecodeState code).2 = bytes at hwithin ⊢
    cases hr : decodeWithin past outLen ⟨.step_a, 0, out.set 0 0⟩ code with
    | none =>
      rw [hr] at hwithin
      refine ⟨⟨fun _ => hmemory ▸ hwithin, fun _ => rfl⟩, ?_⟩
      intro n out' h
      cases h
    | some r' =>
      rw [hr] at hwithin
      obtain ⟨t', hholds, hb⟩ := hwithin
      have hlength : (bytes.take outLen).length = min outLen bytes.length := List.length_take
      constructor
      · -- a full buffer has no room for the byte that the middle of a group needs
        refine ⟨fun h => (by cases h), ?_⟩
        rintro ⟨hfull, hgroup, hbytes⟩
        have hfits := hholds.fits
        have hmod := hholds.group
        rw [hlength, Nat.min_eq_left hbytes] at hfits hmod
        obtain ⟨hstep, -⟩ | ⟨-, hkept⟩ := kept_eq_nil_or t'
        · rw [hstep] at hmod
          exact absurd hmod hgroup
        · rw [hkept, List.length_singleton] at hfits
          omega
      · intro n out' h
        simp only [Option.map_some, Option.some.injEq, Prod.mk.injEq] at h
        obtain ⟨rfl, rfl⟩ := h
        obtain ⟨hsize, htake, hdrop1, hdrop0⟩ := hholds.memory
        have hn : r'.plainchar = (bytes.take outLen).length := hholds.plainchar
        refine ⟨by rw [hn, hlength], by rw [hsize, hmemory], ?_, ?_, ?_⟩
        · rw [hn, htake, hlength, List.take_eq_take_min]
        · rw [hn, hdrop1, hdrop _ (Nat.succ_pos _)]
        · intro hfull hgroup
          have hcomplete : completeInGroup t'.step = 0 := by
            rw [← hholds.group, ← hn, hgroup]
          have hnotb : t'.step ≠ .step_b := fun h => by
            have := hb h
            omega
          have ha : t'.step = .step_a := by
            cases ht : t'.step <;> simp_all [completeInGroup]
          rw [hn, hdrop0 ha, hdrop _ (by omega)]
  · have hdecode : decode past stray code out outLen = some (0, out) := by
      rw [decode, decodeLoop, dif_neg hloop]
    rw [hdecode]
    have hempty : code.length = 0 ∨ outLen = 0 := by omega
    have hmin : min outLen (feed (decodeChar past) initDecodeState code).2.length = 0 := by
      obtain hcode | hlen := hempty
      · rw [List.length_eq_zero_iff.mp hcode]
        exact Nat.min_zero _
      · rw [hlen]
        exact Nat.zero_min _
    refine ⟨⟨fun h => (by cases h), ?_⟩, fun n out' h => ?_⟩
    · rintro ⟨-, hgroup, hle⟩
      rw [Nat.min_eq_left hle] at hmin
      exact absurd (by rw [hmin]) hgroup
    · simp only [Option.some.injEq, Prod.mk.injEq] at h
      obtain ⟨rfl, rfl⟩ := h
      exact ⟨hmin.symm, rfl, rfl, rfl, fun _ _ => rfl⟩

/-- Two characters complete one byte, and the bits that are left over are stored behind it. -/
theorem decode_memory_one : decode 0 0 [65, 65] [7] 1 = none :=
  (decode_memory 0 0 [65, 65] [7] 1 (by decide)).1.mpr ⟨rfl, by decide, by decide⟩

end Base64

end NaoSoccer
