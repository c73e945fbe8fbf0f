import Mathlib.Data.List.Nodup
import Mathlib.Data.List.Pairwise
import Mathlib.Data.List.Perm.Basic

/-!
# Greedy merging

The elements of a list are merged from the left: an element that has not been merged yet takes in
every later one that is close to what it has become, until it is full.  Which elements have been
merged is kept in a list of flags.

`merge_map` says that merging commutes with what keeps the rule, so that elements can carry a trace
along, and `flatMap_merge_perm` that nothing is lost and nothing is doubled.
-/

namespace GreedyMerge

/-- How to merge two elements, which ones to merge and when to stop. -/
structure Rule (α : Type*) where
  join : α → α → α
  close : α → α → Bool
  full : α → Bool

variable {α β ι : Type*} (rule : Rule α)

/-- What an element becomes by taking in later ones, and the flags after that. -/
def absorb (m : α) : List α → List Bool → α × List Bool
  | a :: rest, flag :: flags =>
    if flag then ((absorb m rest flags).1, true :: (absorb m rest flags).2)
    else
      let merged := rule.close m a
      let m := if merged then rule.join m a else m
      if rule.full m then (m, merged :: flags)
      else ((absorb m rest flags).1, merged :: (absorb m rest flags).2)
  | _, flags => (m, flags)

/-- The elements that are not merged into an earlier one, with what they take in. -/
def merge : List α → List Bool → List α
  | a :: rest, flag :: flags =>
    if flag then merge rest flags
    else (absorb rule a rest flags).1 :: merge rest (absorb rule a rest flags).2
  | _, _ => []

/-- The elements whose flag is not set. -/
def unmerged : List α → List Bool → List α
  | a :: rest, flag :: flags => if flag then unmerged rest flags else a :: unmerged rest flags
  | _, _ => []

/-- Without any flag set, these are all of them. -/
lemma unmerged_replicate (l : List α) : unmerged l (List.replicate l.length false) = l := by
  induction l with
  | nil => rfl
  | cons a l ih =>
    rw [List.length_cons, List.replicate_succ, unmerged, if_neg Bool.false_ne_true, ih]

variable {rule}

/-! ## Traces -/

section Map

variable {rule' : Rule β} (f : α → β)

/-- What keeps the rule commutes with one pass. -/
lemma absorb_map (hjoin : ∀ a b, f (rule.join a b) = rule'.join (f a) (f b))
    (hclose : ∀ a b, rule.close a b = rule'.close (f a) (f b))
    (hfull : ∀ a, rule.full a = rule'.full (f a)) (m : α) (l : List α) (flags : List Bool) :
    absorb rule' (f m) (l.map f) flags = (f (absorb rule m l flags).1, (absorb rule m l flags).2) := by
  induction l generalizing m flags with
  | nil => cases flags <;> rfl
  | cons a l ih =>
    cases flags with
    | nil => rfl
    | cons flag flags =>
      cases flag with
      | true =>
        simp only [List.map_cons, absorb, if_true, ih]
      | false =>
        have hclose' : rule'.close (f m) (f a) = rule.close m a := (hclose m a).symm
        cases hmerged : rule.close m a <;> rw [hmerged] at hclose' <;>
          simp only [List.map_cons, absorb, hclose', hmerged, Bool.false_eq_true, if_false, if_true,
            ← hjoin, ← hfull, ih] <;>
          split <;> rfl

/-- **What keeps the rule commutes with merging.** -/
lemma merge_map (hjoin : ∀ a b, f (rule.join a b) = rule'.join (f a) (f b))
    (hclose : ∀ a b, rule.close a b = rule'.close (f a) (f b))
    (hfull : ∀ a, rule.full a = rule'.full (f a)) (l : List α) (flags : List Bool) :
    merge rule' (l.map f) flags = (merge rule l flags).map f := by
  induction l generalizing flags with
  | nil => cases flags <;> rfl
  | cons a l ih =>
    cases flags with
    | nil => rfl
    | cons flag flags =>
      cases flag with
      | true => simp only [List.map_cons, merge, if_true, ih]
      | false =>
        simp only [List.map_cons, merge, Bool.false_eq_true, if_false,
          absorb_map f hjoin hclose hfull, ih]

end Map

/-! ## Accounts -/

section Members

variable (members : α → List ι)

/-- One pass moves members from the elements that are not merged into the one that takes them in. -/
lemma absorb_perm (hjoin : ∀ a b, members (rule.join a b) = members a ++ members b) (m : α)
    (l : List α) (flags : List Bool) :
    (members (absorb rule m l flags).1 ++
      (unmerged l (absorb rule m l flags).2).flatMap members).Perm
        (members m ++ (unmerged l flags).flatMap members) := by
  induction l generalizing m flags with
  | nil => cases flags <;> exact List.Perm.refl _
  | cons a l ih =>
    cases flags with
    | nil => exact List.Perm.refl _
    | cons flag flags =>
      cases flag with
      | true => simpa only [absorb, unmerged, if_true] using ih m flags
      | false =>
        cases hclose : rule.close m a with
        | true =>
          simp only [absorb, unmerged, hclose, Bool.false_eq_true, if_false, if_true,
            List.flatMap_cons]
          split
          · simp only [unmerged, if_true, hjoin, List.append_assoc]
            exact List.Perm.refl _
          · simp only [unmerged, if_true]
            refine (ih _ flags).trans ?_
            rw [hjoin, List.append_assoc]
        | false =>
          simp only [absorb, unmerged, hclose, Bool.false_eq_true, if_false, List.flatMap_cons]
          split
          · simp only [unmerged, Bool.false_eq_true, if_false, List.flatMap_cons]
            exact List.Perm.refl _
          · simp only [unmerged, Bool.false_eq_true, if_false, List.flatMap_cons]
            have hmove := (ih m flags).append_left (members a)
            refine List.Perm.trans ?_ (hmove.trans ?_)
            · rw [← List.append_assoc, ← List.append_assoc]
              exact List.perm_append_comm.append_right _
            · rw [← List.append_assoc, ← List.append_assoc]
              exact List.perm_append_comm.append_right _

/-- **Nothing is lost and nothing is doubled**: the members of the merged elements are those of the
elements. -/
lemma flatMap_merge_perm (hjoin : ∀ a b, members (rule.join a b) = members a ++ members b)
    (l : List α) (flags : List Bool) :
    ((merge rule l flags).flatMap members).Perm ((unmerged l flags).flatMap members) := by
  induction l generalizing flags with
  | nil => cases flags <;> exact List.Perm.refl _
  | cons a l ih =>
    cases flags with
    | nil => exact List.Perm.refl _
    | cons flag flags =>
      cases flag with
      | true => simpa only [merge, unmerged, if_true] using ih flags
      | false =>
        simp only [merge, unmerged, Bool.false_eq_true, if_false, List.flatMap_cons]
        exact ((ih _).append_left _).trans (absorb_perm members hjoin a l flags)

/-- Lists without duplicates have nothing in common exactly if every element stands at one place
only. -/
lemma nodup_flatMap_iff {l : List α} (h : ∀ a ∈ l, (members a).Nodup) :
    (l.flatMap members).Nodup ↔ ∀ (i : ι) (k k' : ℕ) (a a' : α), l[k]? = some a →
      l[k']? = some a' → i ∈ members a → i ∈ members a' → k = k' := by
  rw [List.nodup_flatMap, and_iff_right h, List.pairwise_iff_getElem]
  constructor
  · intro hdisjoint i k k' a a' hk hk' hi hi'
    obtain ⟨hlt, rfl⟩ := List.getElem?_eq_some_iff.mp hk
    obtain ⟨hlt', rfl⟩ := List.getElem?_eq_some_iff.mp hk'
    rcases Nat.lt_trichotomy k k' with hless | heq | hless
    · exact absurd hi' (List.disjoint_left.mp (hdisjoint k k' hlt hlt' hless) hi)
    · exact heq
    · exact absurd hi (List.disjoint_left.mp (hdisjoint k' k hlt' hlt hless) hi')
  · intro hunique k k' hlt hlt' hless
    refine List.disjoint_left.mpr fun i hi hi' => ?_
    have heq := hunique i k k' _ _ (List.getElem?_eq_getElem hlt) (List.getElem?_eq_getElem hlt')
      hi hi'
    exact absurd heq (Nat.ne_of_lt hless)

/-- The same for different elements. -/
lemma nodup_flatMap_iff_of_nodup {l : List α} (hl : l.Nodup) (h : ∀ a ∈ l, (members a).Nodup) :
    (l.flatMap members).Nodup ↔
      ∀ a ∈ l, ∀ a' ∈ l, ∀ i, i ∈ members a → i ∈ members a' → a = a' := by
  rw [List.nodup_flatMap, and_iff_right h]
  constructor
  · intro hdisjoint a ha a' ha' i hi hi'
    by_contra hne
    have hsymm : Std.Symm (Function.onFun List.Disjoint members) :=
      ⟨fun _ _ hd => List.disjoint_symm hd⟩
    exact List.disjoint_left.mp (hdisjoint.forall ha ha' hne) hi hi'
  · intro hunique
    refine hl.pairwise_of_forall_ne fun a ha a' ha' hne => ?_
    exact List.disjoint_left.mpr fun i hi hi' => hne (hunique a ha a' ha' i hi hi')

end Members

/-! ## Invariants -/

section Invariant

variable {P : α → Prop}

/-- What joining keeps holds of what an element becomes. -/
lemma absorb_invariant (hjoin : ∀ a b, P a → P b → P (rule.join a b)) {m : α} (hm : P m)
    {l : List α} (hl : ∀ a ∈ l, P a) (flags : List Bool) : P (absorb rule m l flags).1 := by
  induction l generalizing m flags with
  | nil => cases flags <;> exact hm
  | cons a l ih =>
    have hrest : ∀ b ∈ l, P b := fun b hb => hl b (List.mem_cons_of_mem a hb)
    cases flags with
    | nil => exact hm
    | cons flag flags =>
      cases flag with
      | true => exact ih hm hrest flags
      | false =>
        cases hmerged : rule.close m a with
        | true =>
          have hnext := hjoin m a hm (hl a List.mem_cons_self)
          simp only [absorb, hmerged, Bool.false_eq_true, if_false, if_true]
          split
          · exact hnext
          · exact ih hnext hrest flags
        | false =>
          simp only [absorb, hmerged, Bool.false_eq_true, if_false]
          split
          · exact hm
          · exact ih hm hrest flags

/-- What joining keeps holds of the merged elements. -/
lemma merge_invariant (hjoin : ∀ a b, P a → P b → P (rule.join a b)) {l : List α}
    (hl : ∀ a ∈ l, P a) (flags : List Bool) : ∀ m ∈ merge rule l flags, P m := by
  induction l generalizing flags with
  | nil => cases flags <;> exact fun m hm => absurd hm List.not_mem_nil
  | cons a l ih =>
    have hrest : ∀ b ∈ l, P b := fun b hb => hl b (List.mem_cons_of_mem a hb)
    cases flags with
    | nil => exact fun m hm => absurd hm List.not_mem_nil
    | cons flag flags =>
      cases flag with
      | true => exact ih hrest flags
      | false =>
        intro m hm
        simp only [merge, Bool.false_eq_true, if_false] at hm
        rcases List.mem_cons.mp hm with rfl | htail
        · exact absorb_invariant hjoin (hl a List.mem_cons_self) hrest flags
        · exact ih hrest _ m htail

end Invariant

end GreedyMerge
