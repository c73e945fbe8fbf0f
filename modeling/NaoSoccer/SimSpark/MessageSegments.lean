import NaoSoccer.Foundation.Brackets
import Mathlib.Algebra.Order.Ring.Int
import Mathlib.Data.List.TakeWhile

/-!
# The segments of a perceptor message

The server describes what the simulated robot perceives by a sequence of bracketed expressions.
`Parser::segment` cuts a message into its outermost brackets and `Parser::tokenise` cuts one of them
into words.

`segment` counts brackets while it copies characters.  Its result is exactly what the grammar of
balanced brackets says (`segment_eq_iff`): the outermost groups in their order, without anything
that lies between them and without an outermost bracket that is never closed.
-/

namespace NaoSoccer

namespace PerceptorParser

open Brackets

/-! ## Cutting a message into segments -/

/-- The character `(`. -/
def openBracket : UInt8 := 40

/-- The character `)`. -/
def closeBracket : UInt8 := 41

/-- The character ` `. -/
def blank : UInt8 := 32

/-- The count of open brackets after a character. -/
def countBracket (bracCount : ℤ) (c : UInt8) : ℤ :=
  if c = openBracket then bracCount + 1
  else if c = closeBracket then bracCount - 1
  else bracCount

/-- The inner loop of `segment`: characters are appended to `currentString` until the brackets are
even or the string ends. -/
def readSegment (bracCount : ℤ) (currentString : List UInt8) :
    List UInt8 → List UInt8 × ℤ × List UInt8
  | [] => (currentString, bracCount, [])
  | c :: str =>
    if countBracket bracCount c ≠ 0 then
      readSegment (countBracket bracCount c) (currentString ++ [c]) str
    else (currentString ++ [c], countBracket bracCount c, str)

/-- The inner loop reads at least one character. -/
lemma length_readSegment_le (bracCount : ℤ) (currentString str : List UInt8) :
    (readSegment bracCount currentString str).2.2.length ≤ str.length - 1 := by
  induction str generalizing bracCount currentString with
  | nil => rfl
  | cons c str ih =>
    rw [readSegment]
    split
    · refine (ih _ _).trans ?_
      rw [List.length_cons]
      omega
    · simp

/-- The outer loop of `segment`. -/
def segmentLoop (bracCount : ℤ) (str : List UInt8) : List (List UInt8) :=
  match _h : str.dropWhile (· ≠ openBracket) with
  | [] => []
  | c :: rest =>
    let read := readSegment bracCount [] (c :: rest)
    if read.2.1 = 0 then read.1 :: segmentLoop read.2.1 read.2.2
    else segmentLoop read.2.1 read.2.2
termination_by str.length
decreasing_by
  all_goals
    have hread := length_readSegment_le bracCount [] (c :: rest)
    have hskip := (List.dropWhile_suffix (· ≠ openBracket) : str.dropWhile (· ≠ openBracket) <:+ str).length_le
    rw [_h, List.length_cons] at hskip
    rw [List.length_cons] at hread
    omega

/-- `Parser::segment` -/
def segment (str : List UInt8) (omitEnds : Bool) : List (List UInt8) :=
  segmentLoop 0 (if omitEnds then (str.take (str.length - 1)).drop 1 else str)

/-- What the characters of a message do. -/
def bracketKind (c : UInt8) : Kind :=
  if c = openBracket then .opening else if c = closeBracket then .closing else .plain

/-- Only `)` closes a bracket. -/
lemma bracketKind_eq_closing {c : UInt8} : bracketKind c = .closing ↔ c = closeBracket := by
  unfold bracketKind
  split
  next h => simp [h, openBracket, closeBracket]
  next => split <;> simp_all

/-- The count follows the kinds. -/
lemma countBracket_eq (bracCount : ℤ) (c : UInt8) :
    countBracket bracCount c = match bracketKind c with
      | .opening => bracCount + 1
      | .closing => bracCount - 1
      | .plain => bracCount := by
  unfold countBracket bracketKind
  split
  · rfl
  · split <;> rfl

/-- The inner loop is the scan for the bracket that closes what is open. -/
lemma readSegment_eq (d : ℕ) (currentString str : List UInt8) :
    match closing bracketKind (d + 1) str with
    | some (found, rest) =>
      readSegment (d + 1) currentString str = (currentString ++ found, 0, rest)
    | none => (readSegment (d + 1) currentString str).2.1 ≠ 0 ∧
        (readSegment (d + 1) currentString str).2.2 = [] := by
  induction str generalizing d currentString with
  | nil =>
    refine ⟨?_, rfl⟩
    dsimp only [readSegment]
    omega
  | cons c str ih =>
    rw [closing, readSegment, countBracket_eq]
    cases hc : bracketKind c with
    | opening =>
      have hnext := ih (d + 1) (currentString ++ [c])
      push_cast at hnext
      simp only [if_pos (show (d : ℤ) + 1 + 1 ≠ 0 by omega)]
      cases hfound : closing bracketKind (d + 1 + 1) str with
      | none => simpa [hfound] using hnext
      | some found => simpa [hfound] using hnext
    | plain =>
      have hnext := ih d (currentString ++ [c])
      simp only [if_pos (show (d : ℤ) + 1 ≠ 0 by omega)]
      cases hfound : closing bracketKind (d + 1) str with
      | none => simpa [hfound] using hnext
      | some found => simpa [hfound] using hnext
    | closing =>
      cases d with
      | zero => simp [closing]
      | succ d =>
        have hnext := ih d (currentString ++ [c])
        have hcount : ((d + 1 : ℕ) : ℤ) + 1 - 1 = d + 1 := by push_cast; omega
        simp only [hcount, if_pos (show (d : ℤ) + 1 ≠ 0 by omega)]
        cases hfound : closing bracketKind (d + 1) str with
        | none => simpa [hfound] using hnext
        | some found => simpa [hfound] using hnext

/-- A string without opening brackets has no segments. -/
lemma segmentLoop_of_notMem {str : List UInt8} (h : openBracket ∉ str) (bracCount : ℤ) :
    segmentLoop bracCount str = [] := by
  have hpass : ∀ c ∈ str, decide (c ≠ openBracket) = true := fun c hc =>
    decide_eq_true fun heq => h (heq ▸ hc)
  have hskip : str.dropWhile (· ≠ openBracket) = [] := List.dropWhile_eq_nil_iff.mpr hpass
  rw [segmentLoop]
  split
  next => rfl
  next c rest heq => rw [hskip] at heq; exact nomatch heq

/-- The first opening bracket begins a segment, if it is closed. -/
lemma segmentLoop_append {gap : List UInt8} (hgap : openBracket ∉ gap) (str : List UInt8) :
    segmentLoop 0 (gap ++ openBracket :: str) = match closing bracketKind 1 str with
      | some (found, rest) => (openBracket :: found) :: segmentLoop 0 rest
      | none => [] := by
  have hpass : ∀ c ∈ gap, decide (c ≠ openBracket) = true := fun c hc =>
    decide_eq_true fun heq => hgap (heq ▸ hc)
  have hskip : (gap ++ openBracket :: str).dropWhile (· ≠ openBracket) = openBracket :: str := by
    rw [List.dropWhile_append_of_pos hpass]
    exact List.dropWhile_cons_of_neg (by simp)
  have hread : readSegment 0 [] (openBracket :: str) = readSegment 1 [openBracket] str := rfl
  have hscan := readSegment_eq 0 [openBracket] str
  simp only [Nat.cast_zero, zero_add] at hscan
  rw [segmentLoop]
  split
  next h => rw [hskip] at h; exact nomatch h
  next c rest h =>
    rw [hskip, List.cons.injEq] at h
    obtain ⟨rfl, rfl⟩ := h
    rw [hread]
    cases hfound : closing bracketKind 1 str with
    | none =>
      rw [hfound] at hscan
      simp only [hscan.2, if_neg hscan.1]
      exact segmentLoop_of_notMem (by simp) _
    | some found =>
      rw [hfound] at hscan
      dsimp only at hscan
      simp only [hscan, if_true]
      rfl

/-- What the segments of a string are, by the grammar of balanced brackets: outermost groups, what
lies between them is passed over, and an outermost bracket that is not closed ends them. -/
inductive Segments : List UInt8 → List (List UInt8) → Prop
  | done {str : List UInt8} (h : openBracket ∉ str) : Segments str []
  | unclosed {gap str : List UInt8} (hgap : openBracket ∉ gap)
      (h : ∀ inner rest, Balanced bracketKind inner → str ≠ inner ++ closeBracket :: rest) :
      Segments (gap ++ openBracket :: str) []
  | segment {gap inner rest : List UInt8} {segments : List (List UInt8)}
      (hgap : openBracket ∉ gap) (hinner : Balanced bracketKind inner)
      (hrest : Segments rest segments) :
      Segments (gap ++ openBracket :: (inner ++ closeBracket :: rest))
        ((openBracket :: (inner ++ [closeBracket])) :: segments)

/-- The scan for one closing bracket in terms of the grammar. -/
lemma closing_one {str found rest : List UInt8} :
    closing bracketKind 1 str = some (found, rest) ↔
      ∃ inner, Balanced bracketKind inner ∧ found = inner ++ [closeBracket] ∧
        str = inner ++ closeBracket :: rest := by
  rw [closing_eq_some_iff]
  constructor
  · rintro ⟨rfl, hcloses⟩
    obtain - | ⟨hinner, hb, hnil⟩ := hcloses
    obtain rfl := bracketKind_eq_closing.mp hb
    obtain - | - := hnil
    exact ⟨_, hinner, rfl, by simp⟩
  · rintro ⟨inner, hinner, rfl, rfl⟩
    exact ⟨by simp, .succ hinner (bracketKind_eq_closing.mpr rfl) .nil⟩

/-- The loop finds what the grammar says. -/
lemma segments_segmentLoop (str : List UInt8) : Segments str (segmentLoop 0 str) := by
  induction hn : str.length using Nat.strong_induction_on generalizing str with
  | _ n ih =>
    by_cases hmem : openBracket ∈ str
    · obtain ⟨gap, rest, rfl, hgap⟩ := List.eq_append_cons_of_mem hmem
      rw [segmentLoop_append hgap]
      cases hfound : closing bracketKind 1 rest with
      | none =>
        refine .unclosed hgap fun inner rest' hinner heq => ?_
        rw [closing_one.mpr ⟨inner, hinner, rfl, heq⟩] at hfound
        exact nomatch hfound
      | some found =>
        obtain ⟨inner, hinner, hsegment, rfl⟩ := closing_one.mp hfound
        dsimp only
        rw [hsegment]
        refine .segment hgap hinner (ih _ ?_ _ rfl)
        simp only [List.length_append, List.length_cons] at hn
        omega
    · rw [segmentLoop_of_notMem hmem]
      exact .done hmem

/-- The grammar determines the segments. -/
lemma segmentLoop_of_segments {str : List UInt8} {segments : List (List UInt8)}
    (h : Segments str segments) : segmentLoop 0 str = segments := by
  induction h with
  | done h => exact segmentLoop_of_notMem h 0
  | unclosed hgap h =>
    rename_i gap str
    rw [segmentLoop_append hgap]
    cases hfound : closing bracketKind 1 str with
    | none => rfl
    | some found =>
      obtain ⟨inner, hinner, -, heq⟩ := closing_one.mp hfound
      exact absurd heq (h inner _ hinner)
  | segment hgap hinner _ ih =>
    rw [segmentLoop_append hgap, closing_one.mpr ⟨_, hinner, rfl, rfl⟩]
    dsimp only
    rw [ih]

/-! ## Cutting a segment into words -/

/-- The characters that end a word. -/
def isDelimiter (c : UInt8) : Bool := c = openBracket || c = closeBracket || c = blank

/-- The loop of `tokenise`. -/
def tokeniseLoop (currentString : List UInt8) : List UInt8 → List (List UInt8)
  | [] => []
  | c :: s =>
    if !isDelimiter c then tokeniseLoop (currentString ++ [c]) s
    else if currentString.length > 0 then currentString :: tokeniseLoop [] s
    else tokeniseLoop [] s

/-- `Parser::tokenise`: what stands behind the last delimiter is no token. -/
def tokenise (s : List UInt8) : List (List UInt8) := tokeniseLoop [] s

/-- The words of a string: what is left between its delimiters. -/
def words (s : List UInt8) : List (List UInt8) := (s.splitOnP isDelimiter).filter (! ·.isEmpty)

/-- The loop of `tokenise` in terms of the pieces between the delimiters. -/
lemma tokeniseLoop_eq (currentString s : List UInt8) :
    tokeniseLoop currentString s =
      (((s.splitOnP isDelimiter).modifyHead (currentString ++ ·)).dropLast).filter
        (! ·.isEmpty) := by
  induction s generalizing currentString with
  | nil => simp [tokeniseLoop]
  | cons c s ih =>
    have hne : s.splitOnP isDelimiter ≠ [] := List.splitOnP_ne_nil _ _
    rw [tokeniseLoop, List.splitOnP_cons_eq_if_modifyHead]
    cases hc : isDelimiter c with
    | false =>
      rw [ih]
      simp [List.modifyHead_modifyHead, Function.comp_def]
    | true =>
      have hrest : (s.splitOnP isDelimiter).modifyHead ([] ++ ·) = s.splitOnP isDelimiter := by
        cases s.splitOnP isDelimiter <;> simp
      simp only [ih, hrest, Bool.not_true, Bool.false_eq_true, if_false, if_true,
        List.modifyHead_cons, List.append_nil, List.dropLast_cons_of_ne_nil hne]
      cases currentString <;> simp

/-- A string that ends with a bracket loses no word. -/
lemma tokenise_append_closeBracket (s : List UInt8) :
    tokenise (s ++ [closeBracket]) = words (s ++ [closeBracket]) := by
  have hsplit : (s ++ [closeBracket]).splitOnP isDelimiter = s.splitOnP isDelimiter ++ [[]] :=
    List.splitOnP_append_cons s [] rfl
  have hhead : (s.splitOnP isDelimiter ++ [[]]).modifyHead ([] ++ ·) =
      s.splitOnP isDelimiter ++ [[]] := by
    cases s.splitOnP isDelimiter <;> simp
  rw [tokenise, tokeniseLoop_eq, words, hsplit, hhead]
  simp

end PerceptorParser

end NaoSoccer
