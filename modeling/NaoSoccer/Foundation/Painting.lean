import Mathlib.Data.List.Nodup
import Mathlib.Data.Set.Basic
import Mathlib.Logic.Function.Basic

/-!
# Painting cells

A table gives a color to every cell.  `paint` gives one color to the cells of a list, and `Lists`
says that a list has exactly the cells of a color, each once.

Painting a part of such a list takes it out of the list of the old color (`Lists.paint_take`) and
leaves the lists of third colors alone (`Lists.paint_of_ne`).  Painting it back restores the table
(`paint_paint`) and the list (`Lists.append_paint`).
-/

namespace Painting

variable {κ β : Type*} [DecidableEq κ]

/-- Give a color to the cells of a list. -/
def paint (ks : List κ) (b : β) (t : κ → β) : κ → β :=
  ks.foldl (fun t k => Function.update t k b) t

/-- The list has exactly the cells of a color, each once. -/
structure Lists (cells : Set κ) (t : κ → β) (b : β) (ks : List κ) : Prop where
  nodup : ks.Nodup
  mem_iff : ∀ k, k ∈ ks ↔ k ∈ cells ∧ t k = b

variable {cells : Set κ} {t : κ → β} {b c : β} {ks : List κ}

/-- The colors after painting. -/
lemma paint_apply (ks : List κ) (b : β) (t : κ → β) (k : κ) :
    paint ks b t k = if k ∈ ks then b else t k := by
  induction ks generalizing t with
  | nil => rw [if_neg List.not_mem_nil, paint, List.foldl_nil]
  | cons k' ks ih =>
    have hcons : paint (k' :: ks) b t = paint ks b (Function.update t k' b) := rfl
    rw [hcons, ih]
    by_cases hk : k ∈ ks
    · rw [if_pos hk, if_pos (List.mem_cons_of_mem k' hk)]
    · rw [if_neg hk]
      by_cases heq : k = k'
      · rw [heq, Function.update_self, if_pos List.mem_cons_self]
      · rw [Function.update_of_ne heq, if_neg]
        exact fun hmem => (List.mem_cons.mp hmem).elim heq hk

/-- Cells of the list have the new color. -/
lemma paint_of_mem {k : κ} (h : k ∈ ks) : paint ks b t k = b := by
  rw [paint_apply, if_pos h]

/-- Other cells keep theirs. -/
lemma paint_of_notMem {k : κ} (h : k ∉ ks) : paint ks b t k = t k := by
  rw [paint_apply, if_neg h]

/-- Painting one more cell. -/
lemma update_paint (k : κ) (ks : List κ) (b : β) (t : κ → β) :
    Function.update (paint ks b t) k b = paint (k :: ks) b t := by
  funext k'
  rw [paint_apply (k :: ks)]
  by_cases hk : k' = k
  · rw [hk, Function.update_self, if_pos List.mem_cons_self]
  · rw [Function.update_of_ne hk, paint_apply]
    simp [hk]

/-- **Painting back**: cells of one color get it again. -/
lemma paint_paint (h : ∀ k ∈ ks, t k = b) (c : β) : paint ks b (paint ks c t) = t := by
  funext k
  by_cases hk : k ∈ ks
  · rw [paint_of_mem hk, h k hk]
  · rw [paint_of_notMem hk, paint_of_notMem hk]

omit [DecidableEq κ] in
/-- The order of the list does not matter. -/
lemma Lists.perm {ks' : List κ} (h : Lists cells t b ks) (hperm : ks'.Perm ks) :
    Lists cells t b ks' :=
  ⟨hperm.nodup_iff.mpr h.nodup, fun k => hperm.mem_iff.trans (h.mem_iff k)⟩

/-- **Painting the first cells of the list** takes them out of it. -/
lemma Lists.paint_take (h : Lists cells t b ks) (hne : c ≠ b) (n : ℕ) :
    Lists cells (paint (ks.take n) c t) b (ks.drop n) := by
  refine ⟨h.nodup.sublist (List.drop_sublist n ks), fun k => ?_⟩
  have hsplit : k ∈ ks ↔ k ∈ ks.take n ∨ k ∈ ks.drop n := by
    rw [← List.mem_append, List.take_append_drop]
  have hdisjoint : k ∈ ks.take n → k ∉ ks.drop n := by
    have hnodup := h.nodup
    rw [← List.take_append_drop n ks] at hnodup
    exact fun htake hdrop => (List.nodup_append.mp hnodup).2.2 k htake k hdrop rfl
  by_cases hk : k ∈ ks.take n
  · rw [paint_of_mem hk]
    exact iff_of_false (hdisjoint hk) fun hc => hne hc.2
  · rw [paint_of_notMem hk, ← h.mem_iff, hsplit, or_iff_right hk]

/-- Painting cells of other colors with another one leaves the list alone. -/
lemma Lists.paint_of_ne {ks' : List κ} (h : Lists cells t b ks) (hold : ∀ k ∈ ks', t k ≠ b)
    (hne : c ≠ b) : Lists cells (paint ks' c t) b ks := by
  refine ⟨h.nodup, fun k => ?_⟩
  rw [h.mem_iff]
  by_cases hk : k ∈ ks'
  · rw [paint_of_mem hk]
    exact iff_of_false (fun hb => hold k hk hb.2) fun hb => hne hb.2
  · rw [paint_of_notMem hk]

/-- **Painting cells of other colors with the color of the list** adds them to it. -/
lemma Lists.append_paint {ks' : List κ} (h : Lists cells t b ks) (hnodup : ks'.Nodup)
    (hcells : ∀ k ∈ ks', k ∈ cells) (hold : ∀ k ∈ ks', t k ≠ b) :
    Lists cells (paint ks' b t) b (ks' ++ ks) := by
  refine ⟨List.nodup_append.mpr ⟨hnodup, h.nodup, fun k hk k' hk' heq => ?_⟩, fun k => ?_⟩
  · exact hold k hk ((h.mem_iff k).mp (heq ▸ hk')).2
  · rw [List.mem_append, h.mem_iff]
    by_cases hk : k ∈ ks'
    · rw [paint_of_mem hk]
      exact iff_of_true (Or.inl hk) ⟨hcells k hk, rfl⟩
    · rw [paint_of_notMem hk, or_iff_right hk]

end Painting
