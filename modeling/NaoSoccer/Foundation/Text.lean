import Mathlib.Data.List.Basic

/-!
# Texts

Strings are lists of characters.  A Python 2 string is a string of bytes, one character each, so
what is proved for all texts holds for all of them.

`split` reads the items of a text one after the other, as `getline` and the lines of a file are
read: a delimiter at the end has no item behind it.
-/

namespace NaoSoccer

/-- The characters of a string. -/
abbrev Text := List Char

/-- The items of a text that are left to read, with the part of the current one that has been read.
There is no item when the end comes without anything being read. -/
def getlines (delim : Char) : Text → Text → List Text
  | item, [] => if item = [] then [] else [item]
  | item, c :: s =>
    if c = delim then item :: getlines delim [] s else getlines delim (item ++ [c]) s

/-- The items of a text, each up to the next delimiter. -/
def split (s : Text) (delim : Char) : List Text := getlines delim [] s

/-- An item is read up to the delimiter. -/
lemma getlines_append {delim : Char} {pre : Text} (h : delim ∉ pre) (item s : Text) :
    getlines delim item (pre ++ s) = getlines delim (item ++ pre) s := by
  induction pre generalizing item with
  | nil => rw [List.nil_append, List.append_nil]
  | cons c pre ih =>
    rw [List.mem_cons, not_or] at h
    rw [List.cons_append, getlines, if_neg (Ne.symm h.1), ih h.2, List.append_assoc]
    rfl

/-- A text without the delimiter is one item, unless it is empty. -/
lemma split_of_notMem {delim : Char} {s : Text} (h : delim ∉ s) :
    split s delim = if s = [] then [] else [s] := by
  have hread := getlines_append h [] []
  rw [List.append_nil, List.nil_append] at hread
  rw [split, hread, getlines]

/-- The first item ends in front of the first delimiter. -/
lemma split_append {delim : Char} {pre : Text} (h : delim ∉ pre) (s : Text) :
    split (pre ++ delim :: s) delim = pre :: split s delim := by
  rw [split, getlines_append h, List.nil_append, getlines, if_pos rfl, split]

/-- A text that is not empty has an item. -/
lemma split_ne_nil {delim : Char} {s : Text} (h : s ≠ []) : split s delim ≠ [] := by
  by_cases hdelim : delim ∈ s
  · obtain ⟨pre, rest, rfl, hpre⟩ := List.eq_append_cons_of_mem hdelim
    rw [split_append hpre]
    exact List.cons_ne_nil _ _
  · rw [split_of_notMem hdelim, if_neg h]
    exact List.cons_ne_nil _ _

/-- No item has the delimiter. -/
lemma delim_notMem_of_mem_getlines {delim : Char} {item s : Text} (h : delim ∉ item) :
    ∀ line ∈ getlines delim item s, delim ∉ line := by
  induction s generalizing item with
  | nil =>
    rw [getlines]
    split
    · exact fun line hline => absurd hline List.not_mem_nil
    · intro line hline
      rw [List.mem_singleton.mp hline]
      exact h
  | cons c s ih =>
    rw [getlines]
    split
    · exact List.forall_mem_cons.mpr ⟨h, ih List.not_mem_nil⟩
    · next hne => exact ih (by simpa [h] using Ne.symm hne)

/-- No item of a text has the delimiter. -/
lemma delim_notMem_of_mem_split {delim : Char} {s : Text} :
    ∀ line ∈ split s delim, delim ∉ line := delim_notMem_of_mem_getlines List.not_mem_nil

end NaoSoccer
