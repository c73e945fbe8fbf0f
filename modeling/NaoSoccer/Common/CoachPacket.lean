import Mathlib.Data.Rat.Floor
import Mathlib.LinearAlgebra.Matrix.Notation
import NaoSoccer.Foundation.Text
import NaoSoccer.Foundation.UniformGrid

/-!
# Coach packets

The coach tells its robots in words where the ball is: one phrase for the cell across the length of
the field, one for the cell across its width and a sign for the number of the message, which is
counted modulo four.

The encoder has no phrase for a ball on or behind the upper end of the field, so the packet carries
the cell exactly of the balls in front of both upper ends.  The decoder looks only for a comma with
something behind it: `decodeMessage_rejects_iff` says which texts it treats as it should.
-/

namespace NaoSoccer

/-! ## The packet -/

/-- The field, with the constants `FIELD_X` and `FIELD_Y` of the chosen `common/Field.h`. -/
structure FieldSize where
  fieldX : ℚ
  fieldY : ℚ
  fieldX_pos : 0 < fieldX
  fieldY_pos : 0 < fieldY

/-- `Point2D` -/
structure Point2D where
  x : ℚ
  y : ℚ
  deriving DecidableEq

/-- What `CoachPacket` sends and receives. -/
structure CoachPacket where
  /-- The number of the last message. -/
  id : ℤ
  ballPos : Point2D
  ballCov : Matrix (Fin 2) (Fin 2) ℚ

namespace CoachPacket

/-- `XMESSAGES` -/
def xMessages : List Text :=
  ["ball at our goal".toList, "ball on our end".toList, "ball on our side".toList,
    "ball near middle".toList, "ball on their side".toList, "ball on their end".toList,
    "ball at their goal".toList]

/-- `YMESSAGES` -/
def yMessages : List Text :=
  ["so close".toList, "close".toList, "center".toList, "far side".toList, "very far".toList]

/-- `IDENTIFIERS` -/
def identifiers : List Text := [['.'], ['!'], ['?'], [';']]

variable (f : FieldSize)

/-- `XINC` -/
def xInc : ℚ := f.fieldX / xMessages.length

/-- `YINC` -/
def yInc : ℚ := f.fieldY / yMessages.length

/-- `XSTART` -/
def xStart : ℚ := -f.fieldX / 2

/-- `YSTART` -/
def yStart : ℚ := -f.fieldY / 2

/-- The two loops of `encodeMessage`: the phrase of the first cell whose upper end lies above the
coordinate. -/
def partFor (messages : List Text) (start inc v : ℚ) : Text :=
  match (List.range messages.length).find? fun i : ℕ => v < start + inc * (i + 1) with
  | none => []
  | some i => messages.getD i []

/-- `CoachPacket::encodeMessage`: the packet with its new number, and the message.  The sum is
converted to `size_t`, which does not change its remainder. -/
def encodeMessage (p : CoachPacket) : CoachPacket × Text :=
  let xpart := partFor xMessages (xStart f) (xInc f) p.ballPos.x
  let ypart := partFor yMessages (yStart f) (yInc f) p.ballPos.y
  let id := (p.id + 1) % identifiers.length
  let idpart := identifiers.getD id.toNat []
  ({ p with id := id }, xpart ++ ',' :: (ypart ++ idpart))

/-- The first two loops of `decodeMessage`: the middle of the cell with this phrase. -/
def coordinate (messages : List Text) (start inc : ℚ) (part : Text) (old : ℚ) : ℚ :=
  match messages.findIdx? (part = ·) with
  | none => old
  | some i => start + i * inc + inc / 2

/-- The last loop of `decodeMessage`. -/
def identifier (idpart : Text) (old : ℤ) : ℤ :=
  match identifiers.findIdx? (idpart = ·) with
  | none => old
  | some i => i

/-- The covariance that `decodeMessage` squares. -/
def cellCov : Matrix (Fin 2) (Fin 2) ℚ := !![xInc f, 0; 0, yInc f]

/-- `CoachPacket::decodeMessage`, which splits with `util::split`: the value that it returns and the
packet that it leaves; `none` where it reads a character that is not there. -/
def decodeMessage (p : CoachPacket) (message : Text) : Option (Bool × CoachPacket) :=
  match split message ',' with
  | xpart :: ypart :: _ =>
    match ypart.getLast? with
    -- `ypart[ypart.size() - 1]` of an empty string
    | none => none
    | some c =>
      some (true,
        { id := identifier [c] p.id
          ballPos :=
            { x := coordinate xMessages (xStart f) (xInc f) xpart p.ballPos.x
              y := coordinate yMessages (yStart f) (yInc f) (ypart.take (ypart.length - 1))
                p.ballPos.y }
          ballCov := cellCov f * cellCov f })
  | _ => some (false, p)

/-! ## Phrases and cells -/

/-- The phrases and signs are distinct and not empty, without commas; a sign is one character. -/
lemma messages_distinct :
    (xMessages.Nodup ∧ ∀ m ∈ xMessages, m ≠ [] ∧ ',' ∉ m) ∧
    (yMessages.Nodup ∧ ∀ m ∈ yMessages, m ≠ [] ∧ ',' ∉ m) ∧
    identifiers.Nodup ∧ ∀ m ∈ identifiers, m.length = 1 ∧ ',' ∉ m := by
  decide +kernel

/-- The cells along the length of the field. -/
def xGrid : UniformGrid ℚ where
  start := xStart f
  width := xInc f
  count := xMessages.length
  width_pos := div_pos f.fieldX_pos (by decide)
  count_pos := by decide

/-- The cells along the width of the field. -/
def yGrid : UniformGrid ℚ where
  start := yStart f
  width := yInc f
  count := yMessages.length
  width_pos := div_pos f.fieldY_pos (by decide)
  count_pos := by decide

/-- The cells reach to the upper end of the length. -/
lemma xGrid_finish : (xGrid f).finish = f.fieldX / 2 := by
  unfold UniformGrid.finish
  change -f.fieldX / 2 + f.fieldX / (7 : ℕ) * (7 : ℕ) = f.fieldX / 2
  push_cast
  ring

/-- The cells reach to the upper end of the width. -/
lemma yGrid_finish : (yGrid f).finish = f.fieldY / 2 := by
  unfold UniformGrid.finish
  change -f.fieldY / 2 + f.fieldY / (5 : ℕ) * (5 : ℕ) = f.fieldY / 2
  push_cast
  ring

variable {f}

section Coordinate

variable {messages : List Text} {g : UniformGrid ℚ} {v : ℚ}

/-- There is a phrase for a coordinate in front of the end of the grid. -/
lemma partFor_of_lt (hcount : g.count = messages.length) (h : v < g.finish) :
    partFor messages g.start g.width v = messages.getD (g.cell v) [] := by
  have hsearch := g.search_eq_cell h
  unfold UniformGrid.search at hsearch
  unfold partFor
  rw [← hcount, hsearch]

/-- There is no phrase for a coordinate behind the grid. -/
lemma partFor_of_le (hcount : g.count = messages.length) (h : g.finish ≤ v) :
    partFor messages g.start g.width v = [] := by
  have hsearch := g.search_eq_none h
  unfold UniformGrid.search at hsearch
  unfold partFor
  rw [← hcount, hsearch]

/-- A phrase is decoded as the middle of its cell. -/
lemma coordinate_of_getD (hnodup : messages.Nodup) (start inc old : ℚ) {i : ℕ}
    (hi : i < messages.length) :
    coordinate messages start inc (messages.getD i []) old = start + i * inc + inc / 2 := by
  have hfind : messages.findIdx? (messages.getD i [] = ·) = some i := by
    rw [List.findIdx?_eq_some_iff_getElem, List.getD_eq_getElem?_getD, List.getElem?_eq_getElem hi]
    refine ⟨hi, decide_eq_true rfl, fun j hj => ?_⟩
    have hne : messages[i] ≠ messages[j] := fun heq =>
      absurd ((hnodup.getElem_inj_iff).mp heq) (Nat.ne_of_gt hj)
    simpa using hne
  unfold coordinate
  rw [hfind]

/-- What is no phrase leaves the coordinate. -/
lemma coordinate_of_notMem (start inc old : ℚ) {part : Text} (h : part ∉ messages) :
    coordinate messages start inc part old = old := by
  have hfind : messages.findIdx? (part = ·) = none := by
    rw [List.findIdx?_eq_none_iff]
    intro m hm
    exact decide_eq_false fun heq => h (heq ▸ hm)
  unfold coordinate
  rw [hfind]

end Coordinate

/-- What is written for a coordinate has no comma. -/
lemma comma_notMem_partFor {messages : List Text} (h : ∀ m ∈ messages, m ≠ [] ∧ ',' ∉ m)
    (start inc v : ℚ) : ',' ∉ partFor messages start inc v := by
  unfold partFor
  split
  · exact List.not_mem_nil
  · next i hi =>
    have hlt : i < messages.length := List.mem_range.mp (List.mem_of_find?_eq_some hi)
    rw [List.getD_eq_getElem?_getD, List.getElem?_eq_getElem hlt]
    exact (h _ (List.getElem_mem hlt)).2

/-- A sign is one character, and it is decoded as the number it stands for. -/
lemma identifier_of_getD {i : ℕ} (hi : i < identifiers.length) :
    ∃ c, identifiers.getD i [] = [c] ∧ c ≠ ',' ∧ ∀ old, identifier [c] old = i := by
  obtain ⟨-, -, hnodup, hsigns⟩ := messages_distinct
  have hget : identifiers.getD i [] = identifiers[i] := by
    rw [List.getD_eq_getElem?_getD, List.getElem?_eq_getElem hi]
    rfl
  obtain ⟨hlength, hcomma⟩ := hsigns _ (List.getElem_mem hi)
  obtain ⟨c, hc⟩ := List.length_eq_one_iff.mp hlength
  have hfind : identifiers.findIdx? ([c] = ·) = some i := by
    rw [List.findIdx?_eq_some_iff_getElem]
    refine ⟨hi, decide_eq_true hc.symm, fun j hj => ?_⟩
    have hne : [c] ≠ identifiers[j] := fun heq =>
      absurd ((hnodup.getElem_inj_iff).mp (hc.trans heq)) (Nat.ne_of_gt hj)
    simpa using hne
  refine ⟨c, hget.trans hc, fun heq => hcomma ?_, fun old => ?_⟩
  · rw [hc, heq]
    exact List.mem_singleton_self _
  · unfold identifier
    rw [hfind]

/-! ## Decoding -/

/-- **What is decoded** of a message with a sign behind its comma. -/
lemma decodeMessage_append (q : CoachPacket) {xpart ypart : Text} {c : Char} (hx : ',' ∉ xpart)
    (hy : ',' ∉ ypart) (hc : c ≠ ',') :
    decodeMessage f q (xpart ++ ',' :: (ypart ++ [c])) = some (true,
      { id := identifier [c] q.id
        ballPos :=
          { x := coordinate xMessages (xStart f) (xInc f) xpart q.ballPos.x
            y := coordinate yMessages (yStart f) (yInc f) ypart q.ballPos.y }
        ballCov := cellCov f * cellCov f }) := by
  have hlast : ',' ∉ ypart ++ [c] := by simp [hy, Ne.symm hc]
  unfold decodeMessage
  rw [split_append hx, split_of_notMem hlast, if_neg (by simp)]
  simp

/-- The text is a phrase for the length, a comma, a phrase for the width and a sign. -/
def IsMessage (s : Text) : Prop :=
  ∃ x ∈ xMessages, ∃ y ∈ yMessages, ∃ sign ∈ identifiers, s = x ++ ',' :: (y ++ sign)

/-- A decoding as it should be: no character is read that is not there, the message is accepted
exactly if it is one, and a message that is refused changes nothing. -/
def RejectsGarbage (f : FieldSize) (q : CoachPacket) (s : Text) : Prop :=
  ∃ accepted q', decodeMessage f q s = some (accepted, q') ∧
    (accepted = true ↔ IsMessage s) ∧ (accepted = false → q' = q)

/-- A message has a comma with something behind it. -/
lemma IsMessage.comma_mem {s : Text} (h : IsMessage s) : ',' ∈ s.dropLast := by
  obtain ⟨x, -, y, -, sign, hsign, rfl⟩ := h
  obtain ⟨-, -, -, hsigns⟩ := messages_distinct
  have hne : sign ≠ [] := fun hnil => by simpa [hnil] using (hsigns sign hsign).1
  have hne' : y ++ sign ≠ [] := by simp [hne]
  rw [List.dropLast_append_of_ne_nil (List.cons_ne_nil _ _), List.dropLast_cons_of_ne_nil hne']
  simp

/-- A text whose commas have nothing behind them is refused. -/
lemma decodeMessage_of_notMem (q : CoachPacket) {s : Text} (h : ',' ∉ s.dropLast) :
    decodeMessage f q s = some (false, q) := by
  unfold decodeMessage
  by_cases hcomma : ',' ∈ s
  · have hs : s = s.dropLast ++ [','] := by
      have hne : s ≠ [] := List.ne_nil_of_mem hcomma
      have hlast := List.dropLast_append_getLast hne
      rw [← hlast, List.mem_append, List.mem_singleton] at hcomma
      rw [hcomma.resolve_left h]
      exact hlast.symm
    rw [hs, split_append h, split_of_notMem List.not_mem_nil, if_pos rfl]
  · rw [split_of_notMem hcomma]
    by_cases hnil : s = []
    · rw [if_pos hnil]
    · rw [if_neg hnil]

/-- A text with something behind a comma has two parts. -/
lemma split_of_comma {s : Text} (h : ',' ∈ s.dropLast) :
    ∃ xpart ypart parts, split s ',' = xpart :: ypart :: parts := by
  obtain ⟨pre, rest, hs, hpre⟩ := List.eq_append_cons_of_mem (List.mem_of_mem_dropLast h)
  rw [hs] at h ⊢
  rw [split_append hpre]
  have hrest : rest ≠ [] := by
    rintro rfl
    rw [List.dropLast_concat] at h
    exact hpre h
  have hne : split rest ',' ≠ [] := split_ne_nil hrest
  obtain ⟨ypart, parts, hsplit⟩ := List.exists_cons_of_ne_nil hne
  exact ⟨pre, ypart, parts, by rw [hsplit]⟩

/-- A text with something behind a comma is not refused. -/
lemma accepted_of_comma {q q' : CoachPacket} {s : Text} {accepted : Bool}
    (h : decodeMessage f q s = some (accepted, q')) (hcomma : ',' ∈ s.dropLast) :
    accepted = true := by
  obtain ⟨xpart, ypart, parts, hsplit⟩ := split_of_comma hcomma
  unfold decodeMessage at h
  rw [hsplit] at h
  cases hlast : ypart.getLast? with
  | none => simp [hlast] at h
  | some c =>
    simp only [hlast, Option.some.injEq, Prod.mk.injEq] at h
    exact h.1.symm

/-- **Decoding rejects garbage** exactly if there is no garbage to be rejected by its words: only
texts whose commas have nothing behind them are refused, and all others are accepted, or read out
of range. -/
theorem decodeMessage_rejects_iff (f : FieldSize) (q : CoachPacket) (s : Text) :
    RejectsGarbage f q s ↔ ',' ∉ s.dropLast ∨ IsMessage s := by
  constructor
  · rintro ⟨accepted, q', hdecode, haccepted, -⟩
    refine or_iff_not_imp_left.mpr fun hcomma => haccepted.mp ?_
    exact accepted_of_comma hdecode (not_not.mp hcomma)
  · rintro (hcomma | hmessage)
    · refine ⟨false, q, decodeMessage_of_notMem q hcomma, ?_, fun _ => rfl⟩
      exact ⟨fun h => absurd h Bool.false_ne_true, fun h => absurd h.comma_mem hcomma⟩
    · have hparts := hmessage
      obtain ⟨x, hx, y, hy, sign, hsign, rfl⟩ := hparts
      obtain ⟨⟨-, hxs⟩, ⟨-, hys⟩, -⟩ := messages_distinct
      obtain ⟨i, hi, rfl⟩ := List.getElem_of_mem hsign
      obtain ⟨c, hc, hcomma, -⟩ := identifier_of_getD hi
      rw [List.getD_eq_getElem?_getD, List.getElem?_eq_getElem hi] at hc
      have hdecode := decodeMessage_append (f := f) q (hxs x hx).2 (hys y hy).2 hcomma
      rw [← show identifiers[i] = [c] from hc] at hdecode
      exact ⟨true, _, hdecode, iff_of_true rfl hmessage, fun h => absurd h.symm Bool.false_ne_true⟩

/-- The field of `fields/JapanField.cpp`. -/
def japanField : FieldSize where
  fieldX := 9000
  fieldY := 6000
  fieldX_pos := by norm_num
  fieldY_pos := by norm_num

/-- Nothing behind the first comma but another one is read out of range, and other words with a
comma are taken for a message. -/
theorem not_rejectsGarbage :
    decodeMessage japanField ⟨-1, ⟨0, 0⟩, 0⟩ "center,,".toList = none ∧
      (decodeMessage japanField ⟨-1, ⟨0, 0⟩, 0⟩ "good luck, have fun".toList).map Prod.fst =
        some true ∧
      ¬ ∀ f q s, RejectsGarbage f q s := by
  have hrange : decodeMessage japanField ⟨-1, ⟨0, 0⟩, 0⟩ "center,,".toList = none := rfl
  refine ⟨hrange, rfl, fun h => ?_⟩
  obtain ⟨accepted, q', hdecode, -⟩ := h japanField ⟨-1, ⟨0, 0⟩, 0⟩ "center,,".toList
  exact absurd (hrange.symm.trans hdecode) (Option.some_ne_none _).symm

/-! ## The cell of the ball -/

/-- The middle of the cell nearest to a position. -/
def cellCentre (f : FieldSize) (pos : Point2D) : Point2D where
  x := (xGrid f).centre ((xGrid f).cell pos.x)
  y := (yGrid f).centre ((yGrid f).cell pos.y)

/-- Whatever a receiver knew before, it accepts the message of the packet and has the middle of the
ball's cell and the new number then. -/
def CarriesCell (f : FieldSize) (p : CoachPacket) : Prop :=
  ∀ q : CoachPacket, ∃ q', decodeMessage f q (encodeMessage f p).2 = some (true, q') ∧
    q'.ballPos = cellCentre f p.ballPos ∧ q'.id = (encodeMessage f p).1.id

/-- The position that `q` has after decoding the message of `p`. -/
def decodedBall (f : FieldSize) (p q : CoachPacket) : Point2D where
  x := coordinate xMessages (xStart f) (xInc f)
    (partFor xMessages (xStart f) (xInc f) p.ballPos.x) q.ballPos.x
  y := coordinate yMessages (yStart f) (yInc f)
    (partFor yMessages (yStart f) (yInc f) p.ballPos.y) q.ballPos.y

/-- **Every encoded message is accepted** with its number and the cells that its phrases stand
for. -/
lemma decodeMessage_encodeMessage (p q : CoachPacket) :
    decodeMessage f q (encodeMessage f p).2 =
      some (true, ⟨(encodeMessage f p).1.id, decodedBall f p q, cellCov f * cellCov f⟩) := by
  obtain ⟨⟨-, hx⟩, ⟨-, hy⟩, -⟩ := messages_distinct
  set id : ℤ := (p.id + 1) % identifiers.length with hid
  have hnonneg : 0 ≤ id := Int.emod_nonneg _ (by decide)
  have hlt : id < identifiers.length := Int.emod_lt_of_pos _ (by decide)
  have hnat : id.toNat < identifiers.length := by omega
  obtain ⟨c, hc, hcomma, hnumber⟩ := identifier_of_getD hnat
  have hdecode := decodeMessage_append (f := f) q
    (comma_notMem_partFor hx (xStart f) (xInc f) p.ballPos.x)
    (comma_notMem_partFor hy (yStart f) (yInc f) p.ballPos.y) hcomma
  rw [hnumber, Int.toNat_of_nonneg hnonneg] at hdecode
  unfold encodeMessage
  simp only [← hid, hc]
  exact hdecode

/-- A packet carries the cell if both coordinates are decoded as the middles of their cells,
whatever they were before. -/
lemma carriesCell_iff_coordinates (p : CoachPacket) :
    CarriesCell f p ↔ ∀ q, decodedBall f p q = cellCentre f p.ballPos := by
  constructor
  · intro h q
    obtain ⟨q', hdecode, hpos, -⟩ := h q
    rw [decodeMessage_encodeMessage] at hdecode
    rw [← (Prod.mk.inj (Option.some.inj hdecode)).2] at hpos
    exact hpos
  · exact fun h q => ⟨_, decodeMessage_encodeMessage p q, h q, rfl⟩

/-- A coordinate is decoded as the middle of its cell, whatever it was before, exactly if it lies in
front of the end of the grid. -/
lemma coordinate_partFor_iff {messages : List Text} {g : UniformGrid ℚ}
    (hcount : g.count = messages.length) (hnodup : messages.Nodup) (hnil : [] ∉ messages) (v : ℚ) :
    (∀ old, coordinate messages g.start g.width (partFor messages g.start g.width v) old =
      g.centre (g.cell v)) ↔ v < g.finish := by
  constructor
  · intro h
    by_contra hle
    have hcoordinate := h (g.centre (g.cell v) + 1)
    rw [partFor_of_le hcount (not_lt.mp hle), coordinate_of_notMem _ _ _ hnil] at hcoordinate
    linarith
  · intro h old
    rw [partFor_of_lt hcount h]
    exact coordinate_of_getD hnodup _ _ old (hcount ▸ g.cell_lt_count v)

/-- **A coach packet carries the ball's cell** exactly if the ball lies in front of the upper ends
of the field, in both directions. -/
theorem coachPacket_carriesCell_iff (f : FieldSize) (p : CoachPacket) :
    CarriesCell f p ↔ p.ballPos.x < f.fieldX / 2 ∧ p.ballPos.y < f.fieldY / 2 := by
  obtain ⟨⟨hxnodup, hx⟩, ⟨hynodup, hy⟩, -⟩ := messages_distinct
  have hxiff := coordinate_partFor_iff (g := xGrid f) rfl hxnodup (fun h => (hx _ h).1 rfl)
    p.ballPos.x
  have hyiff := coordinate_partFor_iff (g := yGrid f) rfl hynodup (fun h => (hy _ h).1 rfl)
    p.ballPos.y
  rw [xGrid_finish] at hxiff
  rw [yGrid_finish] at hyiff
  rw [← hxiff, ← hyiff, carriesCell_iff_coordinates]
  constructor
  · intro h
    exact ⟨fun old => congrArg Point2D.x (h ⟨0, ⟨old, 0⟩, 0⟩),
      fun old => congrArg Point2D.y (h ⟨0, ⟨0, old⟩, 0⟩)⟩
  · rintro ⟨hxs, hys⟩ q
    exact congrArg₂ Point2D.mk (hxs _) (hys _)

/-- A ball on the goal line has no phrase, and a robot keeps what it knew. -/
theorem not_carriesCell :
    (encodeMessage japanField ⟨-1, ⟨4500, 0⟩, 0⟩).2 = ",center.".toList ∧
      ¬ CarriesCell japanField ⟨-1, ⟨4500, 0⟩, 0⟩ := by
  refine ⟨by decide +kernel, fun h => ?_⟩
  have hball := (carriesCell_iff_coordinates _).mp h ⟨-1, ⟨0, 0⟩, 0⟩
  revert hball
  decide +kernel

end CoachPacket

end NaoSoccer
