import Mathlib.Data.List.Basic

/-!
# Balanced brackets

Texts over an alphabet some of whose symbols open and some of whose symbols close a bracket.
`Balanced` is the grammar of the texts in which all brackets match.  `closing d` is the scan that a
program makes: it counts the open brackets, `d` of them at its start, and stops as soon as all are
closed.

The scan finds exactly what the grammar says (`closing_eq_some_iff`): a text that closes `d`
brackets is `d` closing symbols with a balanced text in front of each.
-/

namespace Brackets

/-- What a symbol does. -/
inductive Kind where
  | opening
  | closing
  | plain
  deriving DecidableEq, Repr

variable {α : Type*} (kind : α → Kind)

/-- The texts in which all brackets match. -/
inductive Balanced : List α → Prop
  | nil : Balanced []
  | plain {a : α} {s : List α} (ha : kind a = .plain) (hs : Balanced s) : Balanced (a :: s)
  | group {a b : α} {s t : List α} (ha : kind a = .opening) (hs : Balanced s)
      (hb : kind b = .closing) (ht : Balanced t) : Balanced (a :: (s ++ b :: t))

/-- The texts that close `d` brackets and end with the last of them. -/
inductive Closes : ℕ → List α → Prop
  | nil : Closes 0 []
  | succ {d : ℕ} {b : α} {s t : List α} (hs : Balanced kind s) (hb : kind b = .closing)
      (ht : Closes d t) : Closes (d + 1) (s ++ b :: t)

/-- The scan with `d` open brackets: the text up to the symbol that closes the last one, and the
rest. -/
def closing : ℕ → List α → Option (List α × List α)
  | 0, s => some ([], s)
  | _ + 1, [] => none
  | d + 1, a :: s =>
    let next := match kind a with
      | .opening => closing (d + 2) s
      | .closing => closing d s
      | .plain => closing (d + 1) s
    next.map fun found => (a :: found.1, found.2)

variable {kind}

/-- A balanced text is passed over. -/
lemma closing_balanced {b : List α} (hb : Balanced kind b) (d : ℕ) (rest : List α) :
    closing kind (d + 1) (b ++ rest) =
      (closing kind (d + 1) rest).map fun found => (b ++ found.1, found.2) := by
  induction hb generalizing d rest with
  | nil => simp
  | plain ha _ ih =>
    rw [List.cons_append, closing, ha]
    simp only [ih, Option.map_map]
    rfl
  | group ha _ hb _ ihs iht =>
    rw [List.cons_append, List.append_assoc, closing, ha]
    simp only [ihs, List.cons_append]
    rw [closing, hb]
    simp only [iht, Option.map_map]
    congr 1
    funext found
    simp

/-- A text that closes the open brackets is found. -/
lemma closing_of_closes {d : ℕ} {g : List α} (hg : Closes kind d g) (rest : List α) :
    closing kind d (g ++ rest) = some (g, rest) := by
  induction hg with
  | nil => rw [List.nil_append, closing]
  | succ hs hb _ ih =>
    rw [List.append_assoc, List.cons_append, closing_balanced hs, closing, hb]
    simp [ih]

/-- What the scan finds closes the open brackets. -/
lemma closes_of_closing {d : ℕ} {s g rest : List α} (h : closing kind d s = some (g, rest)) :
    s = g ++ rest ∧ Closes kind d g := by
  induction s generalizing d g with
  | nil =>
    cases d with
    | zero =>
      obtain ⟨rfl, rfl⟩ := Prod.mk.inj (Option.some.inj h)
      exact ⟨rfl, .nil⟩
    | succ d => exact nomatch h
  | cons a s ih =>
    cases d with
    | zero =>
      obtain ⟨rfl, rfl⟩ := Prod.mk.inj (Option.some.inj h)
      exact ⟨rfl, .nil⟩
    | succ d =>
      rw [closing] at h
      obtain ⟨⟨g', rest'⟩, hnext, hfound⟩ := Option.map_eq_some_iff.mp h
      obtain ⟨rfl, rfl⟩ := Prod.mk.inj hfound
      cases ha : kind a with
      | plain =>
        rw [ha] at hnext
        obtain ⟨rfl, hg⟩ := ih hnext
        refine ⟨rfl, ?_⟩
        obtain - | ⟨hs, hb, ht⟩ := hg
        exact .succ (.plain ha hs) hb ht
      | closing =>
        rw [ha] at hnext
        obtain ⟨rfl, hg⟩ := ih hnext
        exact ⟨rfl, .succ .nil ha hg⟩
      | opening =>
        rw [ha] at hnext
        obtain ⟨rfl, hg⟩ := ih hnext
        refine ⟨rfl, ?_⟩
        -- the bracket that is opened here is the first one to be closed
        obtain - | ⟨hs, hb, hg⟩ := hg
        obtain - | ⟨ht, hc, hg⟩ := hg
        have happend := Closes.succ (.group ha hs hb ht) hc hg
        simpa using happend

/-- The scan finds exactly the texts that close the open brackets. -/
theorem closing_eq_some_iff {d : ℕ} {s g rest : List α} :
    closing kind d s = some (g, rest) ↔ s = g ++ rest ∧ Closes kind d g :=
  ⟨closes_of_closing, fun ⟨hs, hg⟩ => hs ▸ closing_of_closes hg rest⟩

end Brackets
