import Mathlib.Data.List.Flatten
import Mathlib.Data.List.Perm.Subperm
import Mathlib.Data.List.TakeDrop
import Mathlib.Data.Set.Card

/-!
# Loops with a narrow count

A loop over a list whose length is put in a number of `w` bits before it begins.  The loop ends, but
it visits only as many elements, from the first one on, as the number says (`counted`).

`flatMap_counted_eq_iff` is about two such loops, one in the other, that concatenate: what is lost.
-/

namespace CountedLoop

variable {α β : Type*}

/-- The elements that a loop visits when the length is counted in `w` bits. -/
def counted (w : ℕ) (as : List α) : List α := as.take (as.length % 2 ^ w)

variable {w : ℕ}

/-- All elements are visited exactly if their number has `w` bits. -/
lemma counted_eq_self_iff {as : List α} : counted w as = as ↔ as.length < 2 ^ w := by
  rw [counted, List.take_eq_self_iff]
  constructor
  · intro h
    exact Nat.lt_of_le_of_lt h (Nat.mod_lt _ (Nat.two_pow_pos w))
  · intro h
    exact Nat.le_of_eq (Nat.mod_eq_of_lt h).symm

/-- What is visited is in the list. -/
lemma mem_of_mem_counted {as : List α} {a : α} (h : a ∈ counted w as) : a ∈ as :=
  List.mem_of_mem_take h

/-- No element is visited twice if none is twice in the list. -/
lemma nodup_counted {as : List α} (h : as.Nodup) : (counted w as).Nodup :=
  h.sublist (List.take_sublist _ as)

/-- **A list without duplicates** has lost nothing exactly if it has no more elements than can be
counted. -/
lemma subset_counted_iff {as : List α} (h : as.Nodup) :
    as ⊆ counted w as ↔ as.length < 2 ^ w := by
  rw [← counted_eq_self_iff]
  constructor
  · intro hsub
    have hle := (h.subperm hsub).length_le
    exact (List.take_sublist _ as).eq_of_length_le hle
  · intro heq
    rw [heq]
    exact List.Subset.refl as

/-- A loop in a loop visits no more than there is. -/
lemma flatMap_counted_sublist (f : α → List β) (as : List α) (n : ℕ) :
    ((as.take n).flatMap fun a => counted w (f a)).Sublist (as.flatMap f) :=
  (List.Sublist.flatMap_right _ fun a _ => List.take_sublist _ (f a)).trans
    ((List.take_sublist n as).flatMap f)

/-- **What a loop in a loop loses**: nothing exactly if what the visited elements have can be
counted and the other elements have nothing. -/
lemma flatMap_counted_eq_iff {f : α → List β} {as : List α} {n : ℕ} :
    (as.take n).flatMap (fun a => counted w (f a)) = as.flatMap f ↔
      (∀ a ∈ as.take n, (f a).length < 2 ^ w) ∧ ∀ a ∈ as.drop n, f a = [] := by
  induction as generalizing n with
  | nil => simp
  | cons a as ih =>
    cases n with
    | zero =>
      rw [List.take_zero, List.drop_zero, List.flatMap_nil, eq_comm, List.flatMap_eq_nil_iff,
        and_iff_right fun _ h => absurd h List.not_mem_nil]
    | succ n =>
      rw [List.take_succ_cons, List.drop_succ_cons, List.flatMap_cons, List.flatMap_cons,
        List.forall_mem_cons, and_assoc, ← ih, ← counted_eq_self_iff]
      constructor
      · intro h
        have hhead : (counted w (f a)).length ≤ (f a).length := (List.take_sublist _ _).length_le
        have hrest := (flatMap_counted_sublist (w := w) f as n).length_le
        have hlen := congrArg List.length h
        rw [List.length_append, List.length_append] at hlen
        exact List.append_inj h (by omega)
      · rintro ⟨hhead, hrest⟩
        rw [hhead, hrest]

/-- What two such loops lose if the outer one visits everything. -/
lemma flatMap_counted_eq_iff_forall {f : α → List β} {as : List α} :
    as.flatMap (fun a => counted w (f a)) = as.flatMap f ↔ ∀ a ∈ as, (f a).length < 2 ^ w := by
  have hall : (as.take as.length).flatMap (fun a => counted w (f a)) = as.flatMap f ↔ _ :=
    flatMap_counted_eq_iff
  rw [List.take_length, List.drop_length] at hall
  exact hall.trans (and_iff_left fun _ h => absurd h List.not_mem_nil)

/-- The length of a list without duplicates, as the size of the set of its elements. -/
lemma length_eq_ncard {as : List α} (hnodup : as.Nodup) {s : Set α} (hmem : ∀ a, a ∈ as ↔ a ∈ s) :
    as.length = s.ncard := by
  classical
  have hset : s = ↑as.toFinset := by
    ext a
    rw [List.coe_toFinset]
    exact (hmem a).symm
  rw [hset, Set.ncard_coe_finset, List.toFinset_card_of_nodup hnodup]

end CountedLoop
