import Mathlib.Data.Finset.Card
import Mathlib.Data.List.Nodup
import Mathlib.Data.Sym.Sym2

/-!
# Lists of the unordered pairs of a set

A list with one entry for every unordered pair of different elements of a finite set.  The list
stays so if an element leaves the set and all pairs with it are taken out, and if an element comes
into the set and a pair of it with every other element is added.
-/

namespace UnorderedPairs

variable {P : Type*} {s : Finset P} {zs : List (Sym2 P)} {x y : P}

/-- The list has each pair of two different elements of the set, and nothing else, once. -/
structure OnePerPair (s : Finset P) (zs : List (Sym2 P)) : Prop where
  /-- No pair is listed twice. -/
  nodup : zs.Nodup
  /-- The pairs that are listed. -/
  mem_iff : ∀ x y, s(x, y) ∈ zs ↔ x ≠ y ∧ x ∈ s ∧ y ∈ s

/-- The set without elements has no pairs. -/
lemma onePerPair_empty : OnePerPair (∅ : Finset P) [] :=
  ⟨List.nodup_nil, fun x y => by simp⟩

namespace OnePerPair

/-- The order of the list does not matter. -/
lemma perm {ws : List (Sym2 P)} (h : OnePerPair s zs) (hperm : ws.Perm zs) : OnePerPair s ws :=
  ⟨hperm.nodup_iff.mpr h.nodup, fun x y => hperm.mem_iff.trans (h.mem_iff x y)⟩

/-- The ends of a pair are different elements. -/
lemma ends (h : OnePerPair s zs) (hmem : s(x, y) ∈ zs) : x ≠ y ∧ x ∈ s ∧ y ∈ s :=
  (h.mem_iff x y).mp hmem

/-- A set with two elements has a pair. -/
lemma ne_nil (h : OnePerPair s zs) (hcard : 1 < s.card) : zs ≠ [] := by
  obtain ⟨x, hx, y, hy, hne⟩ := Finset.one_lt_card.mp hcard
  have hmem : s(x, y) ∈ zs := (h.mem_iff x y).mpr ⟨hne, hx, hy⟩
  exact List.ne_nil_of_mem hmem

variable [DecidableEq P]

/-- An element leaves, and every pair with it. -/
lemma erase (h : OnePerPair s zs) (x : P) :
    OnePerPair (s.erase x) (zs.filter fun z => decide (x ∉ z)) := by
  refine ⟨h.nodup.filter _, fun a b => ?_⟩
  rw [List.mem_filter, h.mem_iff, decide_eq_true_eq, Sym2.mem_iff, not_or, Finset.mem_erase,
    Finset.mem_erase]
  constructor
  · rintro ⟨⟨hne, ha, hb⟩, hxa, hxb⟩
    exact ⟨hne, ⟨Ne.symm hxa, ha⟩, Ne.symm hxb, hb⟩
  · rintro ⟨hne, ⟨hxa, ha⟩, hxb, hb⟩
    exact ⟨⟨hne, ha, hb⟩, Ne.symm hxa, Ne.symm hxb⟩

/-- An element comes in, with a pair for every element that is there. -/
lemma insert (h : OnePerPair s zs) (hx : x ∉ s) {ys : List P} (hys : ys.Nodup)
    (hmem : ∀ y, y ∈ ys ↔ y ∈ s) :
    OnePerPair (insert x s) (zs ++ ys.map fun y => s(y, x)) := by
  have hnew (a b : P) : s(a, b) ∈ ys.map (fun y => s(y, x)) ↔ a ∈ s ∧ b = x ∨ b ∈ s ∧ a = x := by
    rw [List.mem_map]
    constructor
    · rintro ⟨y, hy, heq⟩
      have hin := (hmem y).mp hy
      rcases Sym2.eq_iff.mp heq with ⟨rfl, rfl⟩ | ⟨rfl, rfl⟩
      · exact Or.inl ⟨hin, rfl⟩
      · exact Or.inr ⟨hin, rfl⟩
    · rintro (⟨ha, rfl⟩ | ⟨hb, rfl⟩)
      · exact ⟨a, (hmem a).mpr ha, rfl⟩
      · exact ⟨b, (hmem b).mpr hb, Sym2.eq_swap⟩
  refine ⟨?_, fun a b => ?_⟩
  · refine h.nodup.append (hys.map fun a b heq => Sym2.congr_left.mp heq) ?_
    intro z hold hz
    induction z with
    | h a b =>
      -- a pair that was listed does not have the new element
      obtain ⟨-, ha, hb⟩ := h.ends hold
      rcases (hnew a b).mp hz with ⟨-, rfl⟩ | ⟨-, rfl⟩
      · exact hx hb
      · exact hx ha
  · rw [List.mem_append, h.mem_iff, hnew, Finset.mem_insert, Finset.mem_insert]
    constructor
    · rintro (⟨hne, ha, hb⟩ | ⟨ha, rfl⟩ | ⟨hb, rfl⟩)
      · exact ⟨hne, Or.inr ha, Or.inr hb⟩
      · exact ⟨fun heq => hx (heq ▸ ha), Or.inr ha, Or.inl rfl⟩
      · exact ⟨fun heq => hx (heq ▸ hb), Or.inl rfl, Or.inr hb⟩
    · rintro ⟨hne, rfl | ha, rfl | hb⟩
      · exact absurd rfl hne
      · exact Or.inr (Or.inr ⟨hb, rfl⟩)
      · exact Or.inr (Or.inl ⟨ha, rfl⟩)
      · exact Or.inl ⟨hne, ha, hb⟩

end OnePerPair

/-! ## The pairs of a list -/

/-- Each element of the list with every later one. -/
def laterPairs : List P → List (P × P)
  | [] => []
  | x :: xs => xs.map (x, ·) ++ laterPairs xs

/-- The two ends of a later pair are in the list. -/
lemma mem_of_mem_laterPairs {xs : List P} (h : (x, y) ∈ laterPairs xs) : x ∈ xs ∧ y ∈ xs := by
  induction xs with
  | nil => exact absurd h List.not_mem_nil
  | cons a xs ih =>
    rcases List.mem_append.mp h with hfirst | hlater
    · obtain ⟨b, hb, heq⟩ := List.mem_map.mp hfirst
      obtain ⟨rfl, rfl⟩ := Prod.mk.inj heq
      exact ⟨List.mem_cons_self, List.mem_cons_of_mem _ hb⟩
    · exact ⟨List.mem_cons_of_mem _ (ih hlater).1, List.mem_cons_of_mem _ (ih hlater).2⟩

/-- **A list without duplicates**: the later pairs are all pairs of its elements. -/
lemma onePerPair_laterPairs [DecidableEq P] {xs : List P} (h : xs.Nodup) :
    OnePerPair xs.toFinset ((laterPairs xs).map fun e => s(e.1, e.2)) := by
  induction xs with
  | nil => exact onePerPair_empty
  | cons x xs ih =>
    obtain ⟨hx, hxs⟩ := List.nodup_cons.mp h
    rw [List.toFinset_cons]
    refine ((ih hxs).insert (fun hmem => hx (List.mem_toFinset.mp hmem)) hxs
      fun y => List.mem_toFinset.symm).perm ?_
    rw [laterPairs, List.map_append, List.map_map]
    refine List.perm_append_comm.trans (List.Perm.append_left _ (List.Perm.of_eq ?_))
    exact List.map_congr_left fun y _ => Sym2.eq_swap

end UnorderedPairs
