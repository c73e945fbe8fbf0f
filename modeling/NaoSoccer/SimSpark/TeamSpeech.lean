import NaoSoccer.SimSpark.Base64Memory
import NaoSoccer.SimSpark.MessageSegments

/-!
# Team packets that are said and heard

A simulated robot says its team packet: `composeAction` writes it in base64 into a `say` action.
The server passes what is said on to the team mates in a `hear` message, and `parseHear` takes the
packet out of it: it cuts the message into words, decodes the last one into a buffer of the size of
a packet and copies the packet from there.

The words survive, and so do the bytes of the packet.  But the decoder needs a byte behind the
buffer whenever the packet does not consist of whole groups of three bytes
(`parseHear_hearMessage`).
-/

namespace NaoSoccer

namespace TeamSpeech

open PerceptorParser Base64 Transducer Brackets

/-- The characters `hear`. -/
def hear : List UInt8 := [104, 101, 97, 114]

/-- The characters `self`. -/
def self : List UInt8 := [115, 101, 108, 102]

/-- The characters `say`. -/
def say : List UInt8 := [115, 97, 121]

/-- The `say` action of `RobotBehavior::composeAction`, with an encoder of the default buffer
size. -/
def sayAction (packet : List UInt8) : List UInt8 :=
  openBracket :: (say ++ blank :: (encode 128 packet ++ [closeBracket]))

/-- The message that reports what another robot has said: the time, the direction that it comes
from and the text. -/
def hearMessage (time direction text : List UInt8) : List UInt8 :=
  openBracket :: (hear ++ blank :: (time ++ blank :: (direction ++ blank :: (text ++
    [closeBracket]))))

/-- What `parseHear` finds in a message. -/
inductive Heard where
  /-- The robot hears itself. -/
  | self
  /-- The length of what is decoded, and the bytes of the packet. -/
  | packet (dl : ℕ) (tp : List UInt8)
  deriving DecidableEq, Repr

/-- `Parser::parseHear` up to the packet that it copies from `temp`: whether the message is valid,
and what it finds.  It fails if there are too few words, or if the decoder leaves `temp`. -/
def parseHear (past : Int8) (stray : UInt8) (temp str : List UInt8) : Option (Bool × Heard) :=
  let tokens := tokenise str
  let valid := tokens.length = 4
  tokens[1]?.bind fun _hearTime =>
    tokens[2]?.bind fun direction =>
      if direction = self then some (true, .self)
      else
        tokens[3]?.bind fun message =>
          (decode past stray message temp temp.length).map fun (dl, temp) =>
            (valid, .packet dl temp)

/-! ## The words of a message -/

/-- A word is read up to the delimiter behind it. -/
lemma tokeniseLoop_word {word : List UInt8} (hword : ∀ c ∈ word, isDelimiter c = false)
    (currentString : List UInt8) {c : UInt8} (hc : isDelimiter c = true)
    (hne : currentString ++ word ≠ []) (s : List UInt8) :
    tokeniseLoop currentString (word ++ c :: s) = (currentString ++ word) :: tokenise s := by
  induction word generalizing currentString with
  | nil =>
    rw [List.append_nil] at hne ⊢
    rw [List.nil_append, tokeniseLoop, hc, if_neg (by simp),
      if_pos (List.length_pos_of_ne_nil hne)]
    rfl
  | cons d word ih =>
    rw [List.forall_mem_cons] at hword
    rw [List.cons_append, tokeniseLoop, hword.1, Bool.not_false, if_pos rfl,
      ih hword.2 _ (by simp)]
    simp

/-- The first word of a string. -/
lemma tokenise_word {word : List UInt8} (hword : ∀ c ∈ word, isDelimiter c = false)
    (hne : word ≠ []) {c : UInt8} (hc : isDelimiter c = true) (s : List UInt8) :
    tokenise (word ++ c :: s) = word :: tokenise s :=
  tokeniseLoop_word hword [] hc (by simpa using hne) s

/-- A delimiter in front of a word is passed over. -/
lemma tokenise_delimiter {c : UInt8} (hc : isDelimiter c = true) (s : List UInt8) :
    tokenise (c :: s) = tokenise s := by
  rw [tokenise, tokeniseLoop, hc]
  rfl

/-- The word `hear` is not cut. -/
lemma not_isDelimiter_hear : ∀ c ∈ hear, isDelimiter c = false :=
  List.forall_mem_cons.mpr ⟨rfl, List.forall_mem_cons.mpr ⟨rfl, List.forall_mem_cons.mpr ⟨rfl,
    List.forall_mem_singleton.mpr rfl⟩⟩⟩

/-- The words of a message from another robot. -/
lemma tokenise_hearMessage {time direction text : List UInt8}
    (htime : ∀ c ∈ time, isDelimiter c = false) (hdirection : ∀ c ∈ direction, isDelimiter c = false)
    (htext : ∀ c ∈ text, isDelimiter c = false) (htime₀ : time ≠ []) (hdirection₀ : direction ≠ [])
    (htext₀ : text ≠ []) :
    tokenise (hearMessage time direction text) = [hear, time, direction, text] := by
  have hhear := not_isDelimiter_hear
  rw [hearMessage, tokenise_delimiter (by decide), tokenise_word hhear (by decide) (by decide),
    tokenise_word htime htime₀ (by decide), tokenise_word hdirection hdirection₀ (by decide),
    tokenise_word htext htext₀ (by decide)]
  rfl

/-- Characters that are no delimiters are balanced. -/
lemma balanced_append {word s : List UInt8} (hword : ∀ c ∈ word, isDelimiter c = false)
    (hs : Balanced bracketKind s) : Balanced bracketKind (word ++ s) := by
  induction word with
  | nil => exact hs
  | cons c word ih =>
    rw [List.forall_mem_cons] at hword
    refine .plain ?_ (ih hword.2)
    have hc := hword.1
    simp only [isDelimiter, Bool.or_eq_false_iff, decide_eq_false_iff_not] at hc
    rw [bracketKind, if_neg hc.1.1, if_neg hc.1.2]

/-- A bracketed text of words is one segment. -/
lemma segment_bracketed {inner : List UInt8} (h : Balanced bracketKind inner) :
    segment (openBracket :: (inner ++ [closeBracket])) false =
      [openBracket :: (inner ++ [closeBracket])] := by
  have hsegments : Segments ([] ++ openBracket :: (inner ++ closeBracket :: []))
      [openBracket :: (inner ++ [closeBracket])] :=
    .segment List.not_mem_nil h (.done List.not_mem_nil)
  exact segmentLoop_of_segments hsegments

/-! ## The text of a packet -/

/-- The characters of the code are no delimiters. -/
lemma isDelimiter_encodeValue (v : UInt8) : isDelimiter (encodeValue v) = false := by
  have htable : (encoding.all fun c => !isDelimiter c) = true := by decide
  unfold encodeValue
  split
  · rfl
  · rw [List.getD_eq_getElem?_getD]
    cases hget : encoding[v.toNat]? with
    | none => rfl
    | some c =>
      have hc := List.all_eq_true.mp htable c (List.mem_of_getElem? hget)
      simpa using hc

/-- The text of a packet has no delimiters in it. -/
lemma isDelimiter_encode (bufferSize : ℕ) [NeZero bufferSize] (packet : List UInt8) :
    ∀ c ∈ encode bufferSize packet, isDelimiter c = false := by
  rw [encode_eq, encodeBlocks]
  refine List.forall_mem_append.mpr ⟨?_, ?_⟩
  · rw [feedBlocks_eq_feed]
    refine feed_forall (fun s fragment => ?_) _ _
    rcases s with ⟨_ | _ | _, _, _⟩ <;> simp [encodeByte, isDelimiter_encodeValue]
  · generalize (feedBlocks encodeByte initEncodeState [packet]).1 = s
    have hpadding : isDelimiter padding = false := by decide
    rcases s with ⟨_ | _ | _, _, _⟩ <;>
      simp [encodeBlockEnd, isDelimiter_encodeValue, hpadding]

/-- What the text of a packet decodes to. -/
lemma decodeBlocks_encode (past : Int8) (bufferSize : ℕ) [NeZero bufferSize]
    (packet : List UInt8) : decodeBlocks past [encode bufferSize packet] = packet := by
  have hcode := decodeBlocks_encodeBlocks past [packet] [encode bufferSize packet]
    (by simp [encode_eq])
  simpa using hcode

/-- The text of a packet is not empty. -/
lemma encode_ne_nil (bufferSize : ℕ) [NeZero bufferSize] {packet : List UInt8}
    (hpacket : packet ≠ []) : encode bufferSize packet ≠ [] := fun h => by
  have hdecode := decodeBlocks_encode 0 bufferSize packet
  rw [h] at hdecode
  exact hpacket hdecode.symm

/-! ## What is heard -/

/-- **A packet is heard as it is said.**  The last word of the `say` action is the text of the packet.
The message that reports this text is one segment.  If the packet consists of groups of three
bytes, `parseHear` finds its bytes in it.  Otherwise the decoder stores a byte behind `temp`. -/
theorem parseHear_hearMessage (past : Int8) (stray : UInt8) {packet temp : List UInt8}
    (hpacket : packet ≠ []) (htemp : temp.length = packet.length) {time direction : List UInt8}
    (htime : ∀ c ∈ time, isDelimiter c = false) (hdirection : ∀ c ∈ direction, isDelimiter c = false)
    (htime₀ : time ≠ []) (hdirection₀ : direction ≠ []) (hself : direction ≠ self) :
    tokenise (sayAction packet) = [say, encode 128 packet] ∧
      segment (hearMessage time direction (encode 128 packet)) false =
        [hearMessage time direction (encode 128 packet)] ∧
      parseHear past stray temp (hearMessage time direction (encode 128 packet)) =
        if packet.length % 3 = 0 then some (true, .packet packet.length packet) else none := by
  have htext := isDelimiter_encode 128 packet
  refine ⟨?_, ?_, ?_⟩
  · have hsay : ∀ c ∈ say, isDelimiter c = false := by
      simp only [say, List.forall_mem_cons]
      exact ⟨rfl, rfl, rfl, fun _ h => nomatch h⟩
    rw [sayAction, tokenise_delimiter (by decide), tokenise_word hsay (by decide) (by decide),
      tokenise_word htext (encode_ne_nil 128 hpacket) (by decide)]
    rfl
  · have hinner : Balanced bracketKind (hear ++ blank :: (time ++ blank :: (direction ++
        blank :: encode 128 packet))) := by
      have hblank : bracketKind blank = .plain := by decide
      have hhear := not_isDelimiter_hear
      have hend := balanced_append htext Balanced.nil
      rw [List.append_nil] at hend
      exact balanced_append hhear (.plain hblank (balanced_append htime (.plain hblank
        (balanced_append hdirection (.plain hblank hend)))))
    have hsegment := segment_bracketed hinner
    simpa [hearMessage] using hsegment
  · obtain ⟨hnone, hsome⟩ := decode_memory past stray (encode 128 packet) temp temp.length le_rfl
    rw [decodeBlocks_encode, htemp] at hnone hsome
    have hparse : parseHear past stray temp (hearMessage time direction (encode 128 packet)) =
        (decode past stray (encode 128 packet) temp temp.length).map fun (dl, temp) =>
          (true, .packet dl temp) := by
      rw [parseHear, tokenise_hearMessage htime hdirection htext htime₀ hdirection₀
        (encode_ne_nil 128 hpacket)]
      simp [hself]
    rw [hparse, htemp]
    by_cases hgroups : packet.length % 3 = 0
    · rw [if_pos hgroups]
      cases hdecode : decode past stray (encode 128 packet) temp packet.length with
      | none => exact absurd hgroups (hnone.mp hdecode).2.1
      | some found =>
        obtain ⟨n, temp'⟩ := found
        obtain ⟨hn, hlength, htake, -⟩ := hsome n temp' hdecode
        rw [Nat.min_self] at hn
        subst hn
        rw [List.take_length, List.take_of_length_le hlength.le] at htake
        rw [Option.map_some, htake]
    · rw [if_neg hgroups, hnone.mpr ⟨rfl, hgroups, le_rfl⟩]
      rfl

/-- A packet of three bytes that is heard from the direction 0. -/
theorem parseHear_hearMessage_three :
    parseHear 0 0 [9, 9, 9] (hearMessage [49] [48] (encode 128 [1, 2, 3])) =
      some (true, .packet 3 [1, 2, 3]) :=
  have hword : ∀ d : UInt8, d = 48 ∨ d = 49 → ∀ c ∈ [d], isDelimiter c = false := by
    rintro d (rfl | rfl) <;> simp only [List.forall_mem_singleton] <;> rfl
  have hself : [48] ≠ self := by decide
  have htemp : ([9, 9, 9] : List UInt8).length = ([1, 2, 3] : List UInt8).length := rfl
  (parseHear_hearMessage 0 0 (List.cons_ne_nil 1 [2, 3]) htemp (hword 49 (.inr rfl))
    (hword 48 (.inl rfl)) (List.cons_ne_nil 49 []) (List.cons_ne_nil 48 []) hself).2.2

end TeamSpeech

end NaoSoccer
