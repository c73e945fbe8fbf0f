import NaoSoccer.Foundation.UnorderedPairs
import Mathlib.Algebra.BigOperators.Group.Finset.Basic
import Mathlib.Algebra.Order.Ring.Int
import Mathlib.Data.Finset.Lattice.Fold
import Mathlib.Data.Finset.Sort
import Mathlib.Data.List.Sort
import Mathlib.Order.Lattice.Nat

/-!
# Merging the closest objects

`PairwiseCostMergeUtility::merge_items` merges the two objects of a list that are cheapest to merge,
as long as there are more than `count` of them and the price is not above a threshold.  It keeps the
addresses of the objects in the set `object_set_`, and a pair with its cost for any two of them in
the vector `pairs_`.

An object is its address and its contents, and the heap says which objects are alive.  To read or to
delete an object that has been deleted is an error, and so is `back` of an empty vector.  A new
object may get the address of one that has been deleted.  What `std::sort` does with equal costs and
the order of a hash set are parameters, and so are the functions that are passed in.
-/

namespace NaoSoccer

open Relation UnorderedPairs

variable {P V C : Type}

namespace PairwiseCostMergeUtility

/-! ## Objects -/

/-- The objects that are alive, with their contents. -/
structure Heap (P V : Type) where
  live : Finset P
  contents : P → V

/-- An object as the functions that are passed in see it. -/
abbrev Object (P V : Type) := P × V

namespace Heap

/-- The object at an address. -/
def object (heap : Heap P V) (o : P) : Object P V := (o, heap.contents o)

variable [DecidableEq P]

/-- Reading an object. -/
def read (heap : Heap P V) (o : P) : Option (Object P V) :=
  if o ∈ heap.live then some (heap.object o) else none

/-- `delete` -/
def delete (heap : Heap P V) (o : P) : Option (Heap P V) :=
  if o ∈ heap.live then some { heap with live := heap.live.erase o } else none

/-- `new` at an address that is free. -/
def alloc (heap : Heap P V) (o : P) (v : V) : Heap P V :=
  { live := insert o heap.live, contents := Function.update heap.contents o v }

variable {heap : Heap P V} {o : P}

/-- An object that is alive can be read. -/
lemma read_of_mem (h : o ∈ heap.live) : heap.read o = some (heap.object o) := if_pos h

/-- An object that is alive can be deleted. -/
lemma delete_of_mem (h : o ∈ heap.live) :
    heap.delete o = some { heap with live := heap.live.erase o } := if_pos h

/-- The new object. -/
lemma object_alloc_self (heap : Heap P V) (o : P) (v : V) : (heap.alloc o v).object o = (o, v) := by
  unfold object alloc
  dsimp only
  rw [Function.update_self]

/-- The other objects stay as they are. -/
lemma object_alloc_of_ne {m : P} (h : o ≠ m) (v : V) :
    (heap.alloc m v).object o = heap.object o := by
  unfold object alloc
  dsimp only
  rw [Function.update_of_ne h]

end Heap

/-- `merge_pair`: the contents of the new object, and the address it gets.  Every call of a run sees
a smaller heap, so the address is any one that is free. -/
structure MergePair (P V : Type) where
  contents : Object P V → Object P V → V
  address : Finset P → P
  /-- The new object is nowhere where there is one. -/
  address_notMem : ∀ live, address live ∉ live

/-- The object is what `merge_pair` makes of some objects, with what they are made of, one after the
other. -/
inductive MergedFrom (mergePair : MergePair P V) : Multiset (Object P V) → Object P V → Prop
  | object (o : Object P V) : MergedFrom mergePair {o} o
  | merged (address : P) {os ps : Multiset (Object P V)} {left right : Object P V}
      (hleft : MergedFrom mergePair os left) (hright : MergedFrom mergePair ps right) :
      MergedFrom mergePair (os + ps) (address, mergePair.contents left right)

/-! ## The members -/

/-- `PairwiseCostMergeUtility::Pair` -/
structure Pair (P C : Type) where
  left : P
  right : P
  cost : C

/-- The two objects of a pair, in any order. -/
def Pair.ends (e : Pair P C) : Sym2 P := s(e.left, e.right)

/-- What the standard library leaves open: the order of equal costs after `std::sort`, and the order
in which a set is walked. -/
structure StdLib (P C : Type) [LinearOrder C] where
  sort : List (Pair P C) → List (Pair P C)
  order : Finset P → List P
  sort_perm : ∀ pairs, (sort pairs).Perm pairs
  /-- Decreasing cost. -/
  sort_sorted : ∀ pairs, (sort pairs).Pairwise fun e f => f.cost ≤ e.cost
  order_nodup : ∀ s, (order s).Nodup
  mem_order : ∀ s o, o ∈ order s ↔ o ∈ s

/-- The members `pairs_` and `object_set_`, and the heap. -/
structure MergeState (P V C : Type) where
  pairs : List (Pair P C)
  objectSet : Finset P
  heap : Heap P V

namespace MergeState

/-- Pairs are put at the end of `pairs_`. -/
def append (s : MergeState P V C) (pairs : List (Pair P C)) : MergeState P V C :=
  { s with pairs := s.pairs ++ pairs }

/-- Nothing is put at the end. -/
lemma append_nil (s : MergeState P V C) : s.append [] = s := by
  unfold append
  rw [List.append_nil]

/-- Pairs are put at the end one list after the other. -/
lemma append_append (s : MergeState P V C) (es fs : List (Pair P C)) :
    (s.append es).append fs = s.append (es ++ fs) := by
  unfold append
  dsimp only
  rw [List.append_assoc]

variable [DecidableEq P]

/-- `PairwiseCostMergeUtility::is_object_merged` -/
def isObjectMerged (s : MergeState P V C) (o : P) : Bool := decide (o ∉ s.objectSet)

/-- `PairwiseCostMergeUtility::initialize_object_set` -/
def initializeObjectSet (s : MergeState P V C) (objects : List P) : MergeState P V C :=
  { s with objectSet := objects.foldl (fun set o => insert o set) s.objectSet }

section Code

variable (pairCost : Object P V → Object P V → C)

/-- `pairs_.push_back(Pair(left, right, pair_cost(left, right)))` -/
def pushPair (s : MergeState P V C) (left right : P) : Option (MergeState P V C) := do
  let cost := pairCost (← s.heap.read left) (← s.heap.read right)
  return s.append [⟨left, right, cost⟩]

/-- `PairwiseCostMergeUtility::initialize_pairs` -/
def initializePairs (s : MergeState P V C) : List P → Option (MergeState P V C)
  | [] => some s
  | lobject :: objects => do
    let s ← objects.foldlM (fun s robject => s.pushPair pairCost lobject robject) s
    s.initializePairs objects

/-- The inner loop, which takes pairs from the back until one has no object that is merged already,
and is left with that pair. -/
def popMerged (s : MergeState P V C) : Option (Pair P C × MergeState P V C) :=
  match _hlast : s.pairs.getLast? with
  | none => none
  | some best =>
    if s.isObjectMerged best.left || s.isObjectMerged best.right then
      popMerged { s with pairs := s.pairs.dropLast }
    else some (best, s)
termination_by s.pairs.length
decreasing_by
  have hpos : 0 < s.pairs.length := List.length_pos_iff.mpr fun hnil => by simp [hnil] at _hlast
  rw [List.length_dropLast]
  exact Nat.sub_lt hpos Nat.one_pos

variable [LinearOrder C] (mergePair : MergePair P V) (std : StdLib P C)

/-- The rest of an iteration: the objects of the pair are merged and deleted, their pairs are taken
out, and the pairs of the new object are put in. -/
def mergeBest (s : MergeState P V C) (best : Pair P C) :
    Option (MergeState P V C) := do
  let merged := mergePair.address s.heap.live
  let contents := mergePair.contents (← s.heap.read best.left) (← s.heap.read best.right)
  let heap := s.heap.alloc merged contents
  let objectSet := (s.objectSet.erase best.left).erase best.right
  let heap ← heap.delete best.left
  let heap ← heap.delete best.right
  let pairs := s.pairs.filter fun e =>
    e.left ≠ best.left && e.right ≠ best.left && e.left ≠ best.right && e.right ≠ best.right
  let s ← (std.order objectSet).foldlM (fun s o => pushPair pairCost s o merged)
    ({ pairs, objectSet, heap } : MergeState P V C)
  return { s with objectSet := insert merged s.objectSet }

/-- `std::sort` -/
def sortPairs (s : MergeState P V C) : MergeState P V C := { s with pairs := std.sort s.pairs }

/-- One iteration of the loop, and whether there is a next one (not after a `break`). -/
def iteration (threshold : C) (s : MergeState P V C) : Option (MergeState P V C × Bool) :=
  if s.objectSet.card ≤ 1 then some (s, false)
  else
    let s := s.sortPairs std
    match s.pairs.getLast? with
    | none => none
    | some best =>
      if threshold < best.cost then some (s, false)
      else do
        let (best, s) ← s.popMerged
        return (← s.mergeBest pairCost mergePair std best, true)

/-- The loop. -/
def mergeLoop (count : ℤ) (threshold : C) : ℕ → MergeState P V C → Option (MergeState P V C)
  | 0, _ => none
  | passes + 1, s =>
    if count < s.objectSet.card then do
      let (s, again) ← s.iteration pairCost mergePair std threshold
      if again then s.mergeLoop count threshold passes else return s
    else some s

/-- The state in which the loop begins. -/
def started (s : MergeState P V C) (objects : List P) : Option (MergeState P V C) :=
  (s.initializeObjectSet objects).initializePairs pairCost objects

/-- `PairwiseCostMergeUtility::merge_items` -/
def mergeItems (count : ℤ) (threshold : C) (passes : ℕ) (objects : List P) (s : MergeState P V C) :
    Option (List P × MergeState P V C) :=
  if objects.length ≤ count then some (objects, s)
  else do
    let s ← s.started pairCost objects
    let s ← s.mergeLoop pairCost mergePair std count threshold passes
    return (std.order s.objectSet, { s with objectSet := ∅, pairs := [] })

end Code

/-! ## What the loop keeps -/

section Pushing

variable {pairCost} {s : MergeState P V C}

/-- A pair with its cost. -/
def pairOf (pairCost : Object P V → Object P V → C) (heap : Heap P V) (left right : P) : Pair P C :=
  ⟨left, right, pairCost (heap.object left) (heap.object right)⟩

/-- The pair of two objects that are alive is put at the end. -/
lemma pushPair_of_live {left right : P} (hleft : left ∈ s.heap.live) (hright : right ∈ s.heap.live) :
    s.pushPair pairCost left right = some (s.append [pairOf pairCost s.heap left right]) := by
  unfold pushPair
  rw [Heap.read_of_mem hleft, Heap.read_of_mem hright]
  rfl

/-- Pairs of objects that are alive are put at the end one after the other. -/
lemma foldlM_pushPair {α : Type} {left right : α → P} {as : List α}
    (h : ∀ a ∈ as, left a ∈ s.heap.live ∧ right a ∈ s.heap.live) :
    as.foldlM (fun s a => s.pushPair pairCost (left a) (right a)) s =
      some (s.append (as.map fun a => pairOf pairCost s.heap (left a) (right a))) := by
  induction as generalizing s with
  | nil => rw [List.foldlM_nil, List.map_nil, append_nil]; rfl
  | cons a as ih =>
    obtain ⟨ha, has⟩ := List.forall_mem_cons.mp h
    rw [List.foldlM_cons, pushPair_of_live ha.1 ha.2, Option.bind_eq_bind, Option.bind_some,
      ih (s := s.append _) has, append_append]
    rfl

/-- All pairs of objects that are alive are put at the end. -/
lemma initializePairs_of_live {objects : List P} (h : ∀ o ∈ objects, o ∈ s.heap.live) :
    s.initializePairs pairCost objects =
      some (s.append ((laterPairs objects).map fun e => pairOf pairCost s.heap e.1 e.2)) := by
  induction objects generalizing s with
  | nil => rw [initializePairs, laterPairs, List.map_nil, append_nil]
  | cons o objects ih =>
    obtain ⟨ho, hos⟩ := List.forall_mem_cons.mp h
    unfold initializePairs laterPairs
    rw [foldlM_pushPair fun a ha => ⟨ho, hos a ha⟩, Option.bind_eq_bind, Option.bind_some,
      ih (s := s.append _) hos, append_append, List.map_append, List.map_map]
    rfl

end Pushing


/-- The set of the objects. -/
lemma objectSet_initializeObjectSet (s : MergeState P V C) (objects : List P) :
    (s.initializeObjectSet objects).objectSet = s.objectSet ∪ objects.toFinset := by
  unfold initializeObjectSet
  dsimp only
  generalize s.objectSet = set
  induction objects generalizing set with
  | nil => simp
  | cons o objects ih =>
    rw [List.foldl_cons, ih, List.toFinset_cons, Finset.insert_union, Finset.union_insert]

section Consistent

variable {pairCost : Object P V → Object P V → C} {mergePair : MergePair P V} {s : MergeState P V C}
  {objects : List P}

/-- The state in which the loop begins, if no object is deleted and the members are empty. -/
lemma started_eq (pairCost : Object P V → Object P V → C) (hlive : ∀ o ∈ objects, o ∈ s.heap.live)
    (hpairs : s.pairs = []) (hset : s.objectSet = ∅) :
    s.started pairCost objects = some
      { pairs := (laterPairs objects).map fun e => pairOf pairCost s.heap e.1 e.2
        objectSet := objects.toFinset
        heap := s.heap } := by
  have hobjects := objectSet_initializeObjectSet s objects
  rw [hset, Finset.empty_union] at hobjects
  unfold started
  rw [initializePairs_of_live (s := s.initializeObjectSet objects) hlive]
  unfold append
  rw [hobjects]
  unfold initializeObjectSet
  dsimp only
  rw [hpairs, List.nil_append]

/-- There is one entry for any two objects of the set, with its cost, and all of them are alive.
What they are made of is, together, the objects of the beginning. -/
structure Consistent (pairCost : Object P V → Object P V → C) (mergePair : MergePair P V)
    (objects : Multiset (Object P V)) (s : MergeState P V C) : Prop where
  onePerPair : OnePerPair s.objectSet (s.pairs.map Pair.ends)
  live : s.objectSet ⊆ s.heap.live
  cost : ∀ e ∈ s.pairs, e.cost = pairCost (s.heap.object e.left) (s.heap.object e.right)
  classes : ∃ cls : P → Multiset (Object P V), ∑ o ∈ s.objectSet, cls o = objects ∧
    ∀ o ∈ s.objectSet, MergedFrom mergePair (cls o) (s.heap.object o)

/-- Classes of one object each. -/
lemma sum_map_singleton {α β : Type} (f : α → β) (as : List α) :
    (as.map fun a => ({f a} : Multiset β)).sum = ↑(as.map f) := by
  induction as with
  | nil => rfl
  | cons a as ih =>
    rw [List.map_cons, List.sum_cons, ih, List.map_cons, ← Multiset.cons_coe,
      Multiset.singleton_add]

/-- **The loop begins** in a consistent state. -/
lemma consistent_started {heap : Heap P V} (hnodup : objects.Nodup)
    (hlive : ∀ o ∈ objects, o ∈ heap.live) :
    Consistent pairCost mergePair ↑(objects.map heap.object)
      { pairs := (laterPairs objects).map fun e => pairOf pairCost heap e.1 e.2
        objectSet := objects.toFinset
        heap := heap } := by
  refine ⟨?_, ?_, ?_, fun o => {heap.object o}, ?_, fun o _ => MergedFrom.object _⟩
  · have hends := onePerPair_laterPairs hnodup
    rw [List.map_map]
    exact hends
  · exact fun o ho => hlive o (List.mem_toFinset.mp ho)
  · intro e he
    obtain ⟨ends, -, rfl⟩ := List.mem_map.mp he
    rfl
  · rw [List.sum_toFinset _ hnodup, sum_map_singleton]

namespace Consistent

variable {initial : Multiset (Object P V)} {best : Pair P C}

omit [DecidableEq P] in
/-- The objects of a pair are two, and alive. -/
lemma ends (h : Consistent pairCost mergePair initial s) (hbest : best ∈ s.pairs) :
    best.left ≠ best.right ∧ best.left ∈ s.objectSet ∧ best.right ∈ s.objectSet :=
  h.onePerPair.ends (List.mem_map_of_mem hbest)

omit [DecidableEq P] in
/-- The pairs can be put into any order. -/
lemma perm (h : Consistent pairCost mergePair initial s) {pairs : List (Pair P C)}
    (hperm : pairs.Perm s.pairs) :
    Consistent pairCost mergePair initial { s with pairs := pairs } :=
  ⟨h.onePerPair.perm (hperm.map Pair.ends), h.live, fun e he => h.cost e (hperm.mem_iff.mp he),
    h.classes⟩

/-- **The inner loop does nothing**: no object of a pair has been merged. -/
lemma popMerged_eq (h : Consistent pairCost mergePair initial s)
    (hbest : s.pairs.getLast? = some best) : s.popMerged = some (best, s) := by
  obtain ⟨-, hleft, hright⟩ := h.ends (List.mem_of_getLast? hbest)
  unfold popMerged
  split
  · next hnone => exact absurd (hbest.symm.trans hnone) (by simp)
  · next last hlast =>
    obtain rfl : last = best := Option.some_inj.mp (hlast.symm.trans hbest)
    rw [isObjectMerged, isObjectMerged, decide_eq_false (not_not.mpr hleft),
      decide_eq_false (not_not.mpr hright)]
    rfl

omit [DecidableEq P] in
/-- The new object is none of those that are there. -/
lemma ne_address (h : Consistent pairCost mergePair initial s) {o : P}
    (ho : o ∈ s.objectSet) : o ≠ mergePair.address s.heap.live :=
  fun heq => mergePair.address_notMem _ (heq ▸ h.live ho)

/-- The new object is alive after the merge. -/
lemma address_mem_live (h : Consistent pairCost mergePair initial s)
    (hbest : best ∈ s.pairs) (v : V) :
    mergePair.address s.heap.live ∈ ((s.heap.alloc (mergePair.address s.heap.live)
      v).live.erase best.left).erase best.right := by
  obtain ⟨-, hleft, hright⟩ := h.ends hbest
  refine Finset.mem_erase.mpr ⟨(h.ne_address hright).symm, Finset.mem_erase.mpr
    ⟨(h.ne_address hleft).symm, Finset.mem_insert_self _ _⟩⟩

/-- The other objects are alive after the merge. -/
lemma mem_live_of_ne (h : Consistent pairCost mergePair initial s) {o : P} {v : V} {m : P}
    (ho : o ∈ s.objectSet) (hleft : o ≠ best.left) (hright : o ≠ best.right) :
    o ∈ ((s.heap.alloc m v).live.erase best.left).erase best.right :=
  Finset.mem_erase.mpr ⟨hright, Finset.mem_erase.mpr
    ⟨hleft, Finset.mem_insert_of_mem (h.live ho)⟩⟩

end Consistent

end Consistent

/-! ## One merge -/

/-- The pairs that are kept are those without the two objects. -/
lemma map_ends_filter (pairs : List (Pair P C)) (best : Pair P C) :
    (pairs.filter fun e => e.left ≠ best.left && e.right ≠ best.left && e.left ≠ best.right &&
        e.right ≠ best.right).map Pair.ends =
      ((pairs.map Pair.ends).filter fun z => decide (best.left ∉ z)).filter
        fun z => decide (best.right ∉ z) := by
  rw [List.filter_map, List.filter_map, List.filter_filter]
  congr 1
  refine List.filter_congr fun e _ => ?_
  rw [Bool.eq_iff_iff]
  simp only [Function.comp_apply, Pair.ends, Sym2.mem_iff, Bool.and_eq_true, decide_eq_true_eq,
    not_or, ne_eq, @eq_comm P best.left, @eq_comm P best.right]
  tauto

section MergeBest

variable [LinearOrder C] (pairCost : Object P V → Object P V → C) (mergePair : MergePair P V)
  (std : StdLib P C)

/-- The state after two objects have been merged. -/
def merged (s : MergeState P V C) (best : Pair P C) : MergeState P V C :=
  let m := mergePair.address s.heap.live
  let heap := s.heap.alloc m
    (mergePair.contents (s.heap.object best.left) (s.heap.object best.right))
  let rest := (s.objectSet.erase best.left).erase best.right
  { pairs := (s.pairs.filter fun e =>
        e.left ≠ best.left && e.right ≠ best.left && e.left ≠ best.right && e.right ≠ best.right) ++
      (std.order rest).map fun o => pairOf pairCost heap o m
    objectSet := insert m rest
    heap := { heap with live := (heap.live.erase best.left).erase best.right } }

variable {pairCost} {mergePair} {std} {s : MergeState P V C} {initial : Multiset (Object P V)}
  {best : Pair P C}

/-- The iteration ends in that state, and no object is used that has been deleted. -/
lemma Consistent.mergeBest_eq (h : Consistent pairCost mergePair initial s)
    (hbest : best ∈ s.pairs) :
    s.mergeBest pairCost mergePair std best = some (s.merged pairCost mergePair std best) := by
  obtain ⟨hne, hleft, hright⟩ := h.ends hbest
  unfold mergeBest
  rw [Heap.read_of_mem (h.live hleft), Heap.read_of_mem (h.live hright)]
  have hleft' : best.left ∈ (s.heap.alloc (mergePair.address s.heap.live)
      (mergePair.contents (s.heap.object best.left) (s.heap.object best.right))).live :=
    Finset.mem_insert_of_mem (h.live hleft)
  have hright' : best.right ∈ (s.heap.alloc (mergePair.address s.heap.live)
      (mergePair.contents (s.heap.object best.left) (s.heap.object best.right))).live.erase
        best.left :=
    Finset.mem_erase.mpr ⟨hne.symm, Finset.mem_insert_of_mem (h.live hright)⟩
  simp only [Option.bind_eq_bind, Option.bind_some, Heap.delete_of_mem hleft']
  rw [Heap.delete_of_mem hright', Option.bind_some, foldlM_pushPair]
  · rfl
  · intro o ho
    obtain ⟨hor, ho⟩ := Finset.mem_erase.mp ((std.mem_order _ _).mp ho)
    obtain ⟨hol, ho⟩ := Finset.mem_erase.mp ho
    exact ⟨h.mem_live_of_ne ho hol hor, h.address_mem_live hbest _⟩

/-- **A merge keeps the state consistent.** -/
lemma Consistent.merged (h : Consistent pairCost mergePair initial s) (hbest : best ∈ s.pairs) :
    Consistent pairCost mergePair initial (s.merged pairCost mergePair std best) := by
  obtain ⟨hne, hleft, hright⟩ := h.ends hbest
  have hrest (o : P) (ho : o ∈ (s.objectSet.erase best.left).erase best.right) :
      o ≠ mergePair.address s.heap.live :=
    h.ne_address (Finset.mem_of_mem_erase (Finset.mem_of_mem_erase ho))
  have hother (o : P) (ho : o ∈ s.objectSet) :
      (s.merged pairCost mergePair std best).heap.object o = s.heap.object o :=
    Heap.object_alloc_of_ne (h.ne_address ho) _
  refine ⟨?_, ?_, ?_, ?_⟩
  · have hpairs := ((h.onePerPair.erase best.left).erase best.right).insert
      (fun hmem => hrest _ hmem rfl) (std.order_nodup _) (std.mem_order _)
    rw [← map_ends_filter] at hpairs
    unfold MergeState.merged
    rw [List.map_append, List.map_map]
    exact hpairs
  · intro o ho
    rcases Finset.mem_insert.mp ho with rfl | ho
    · exact h.address_mem_live hbest _
    · obtain ⟨hor, ho⟩ := Finset.mem_erase.mp ho
      obtain ⟨hol, ho⟩ := Finset.mem_erase.mp ho
      exact h.mem_live_of_ne ho hol hor
  · intro e he
    rcases List.mem_append.mp he with hold | hnew
    · have hmem := (List.mem_filter.mp hold).1
      obtain ⟨-, hel, her⟩ := h.ends hmem
      rw [hother _ hel, hother _ her]
      exact h.cost e hmem
    · obtain ⟨o, -, rfl⟩ := List.mem_map.mp hnew
      rfl
  · obtain ⟨cls, hsum, hcls⟩ := h.classes
    refine ⟨Function.update cls (mergePair.address s.heap.live) (cls best.left + cls best.right),
      ?_, fun o ho => ?_⟩
    · have hsame : ∑ o ∈ (s.objectSet.erase best.left).erase best.right,
          Function.update cls (mergePair.address s.heap.live) (cls best.left + cls best.right) o =
          ∑ o ∈ (s.objectSet.erase best.left).erase best.right, cls o :=
        Finset.sum_congr rfl fun o ho => Function.update_of_ne (hrest o ho) _ _
      have hright' : best.right ∈ s.objectSet.erase best.left :=
        Finset.mem_erase.mpr ⟨hne.symm, hright⟩
      rw [← hsum, ← Finset.add_sum_erase _ _ hleft, ← Finset.add_sum_erase _ _ hright', ← add_assoc]
      unfold MergeState.merged
      rw [Finset.sum_insert fun hmem => hrest _ hmem rfl, Function.update_self, hsame]
    · rcases Finset.mem_insert.mp ho with rfl | ho
      · rw [Function.update_self]
        refine (congrArg _ (Heap.object_alloc_self s.heap _ _)).mpr ?_
        exact MergedFrom.merged _ (hcls _ hleft) (hcls _ hright)
      · have ho' := Finset.mem_of_mem_erase (Finset.mem_of_mem_erase ho)
        rw [Function.update_of_ne (h.ne_address ho'), hother o ho']
        exact hcls o ho'

/-- A merge makes one object of two. -/
lemma Consistent.card_merged (std : StdLib P C) (h : Consistent pairCost mergePair initial s)
    (hbest : best ∈ s.pairs) :
    (s.merged pairCost mergePair std best).objectSet.card + 1 = s.objectSet.card := by
  obtain ⟨hne, hleft, hright⟩ := h.ends hbest
  have hrest : mergePair.address s.heap.live ∉ (s.objectSet.erase best.left).erase best.right :=
    fun hmem => h.ne_address (Finset.mem_of_mem_erase (Finset.mem_of_mem_erase hmem)) rfl
  have hright' : best.right ∈ s.objectSet.erase best.left :=
    Finset.mem_erase.mpr ⟨hne.symm, hright⟩
  unfold MergeState.merged
  rw [Finset.card_insert_of_notMem hrest, Finset.card_erase_add_one hright',
    Finset.card_erase_add_one hleft]

end MergeBest

/-! ## The loop -/

section Loop

variable [LinearOrder C] (pairCost : Object P V → Object P V → C) (mergePair : MergePair P V)
  (std : StdLib P C) (count : ℤ) (threshold : C)

/-- An iteration behind which the next one begins. -/
def NextIteration (s s' : MergeState P V C) : Prop :=
  count < s.objectSet.card ∧ s.iteration pairCost mergePair std threshold = some (s', true)

/-- What is so when an iteration begins: there is one entry for any two objects of the set, these
are alive, the inner loop would not be entered, and the iteration uses no object that is deleted. -/
structure UsesLiveOnly (s : MergeState P V C) : Prop where
  onePerPair : OnePerPair s.objectSet (s.pairs.map Pair.ends)
  live : ∀ o ∈ s.objectSet, o ∈ s.heap.live
  notMerged : ∀ best, (s.sortPairs std).pairs.getLast? = some best →
    s.isObjectMerged best.left = false ∧ s.isObjectMerged best.right = false
  noFault : s.iteration pairCost mergePair std threshold ≠ none

/-- What the loop leaves is made of the classes of a partition of the objects, and there are no more
than `count` of them, or one, unless every remaining pair costs too much. -/
structure MergesClasses (objects : List P) (heap : Heap P V) (result : List P)
    (s : MergeState P V C) : Prop where
  nodup : result.Nodup
  live : ∀ o ∈ result, o ∈ s.heap.live
  classes : ∃ cls : P → Multiset (Object P V), (result.map cls).sum = ↑(objects.map heap.object) ∧
    ∀ o ∈ result, MergedFrom mergePair (cls o) (s.heap.object o)
  few : (result.length : ℤ) ≤ max count 1 ∨
    ∃ pairs : List (Pair P C), OnePerPair result.toFinset (pairs.map Pair.ends) ∧
      ∀ e ∈ pairs, e.cost = pairCost (s.heap.object e.left) (s.heap.object e.right) ∧
        threshold < e.cost
  pairs_eq : s.pairs = []
  objectSet_eq : s.objectSet = ∅

variable {pairCost} {mergePair} {std} {count} {threshold} {s : MergeState P V C}
  {initial : Multiset (Object P V)}

omit [DecidableEq P] in
/-- Sorting keeps the state consistent. -/
lemma Consistent.sortPairs (h : Consistent pairCost mergePair initial s) :
    Consistent pairCost mergePair initial (s.sortPairs std) := h.perm (std.sort_perm _)

omit [DecidableEq P] in
/-- The last pair after sorting is the cheapest. -/
lemma cost_getLast_le {best e : Pair P C} (hbest : (std.sort s.pairs).getLast? = some best)
    (he : e ∈ std.sort s.pairs) : best.cost ≤ e.cost := by
  obtain ⟨init, hinit⟩ := List.getLast?_eq_some_iff.mp hbest
  have hsorted := std.sort_sorted s.pairs
  rw [hinit] at he hsorted
  rcases List.mem_append.mp he with hmem | hmem
  · exact (List.pairwise_append.mp hsorted).2.2 e hmem best (List.mem_singleton_self best)
  · rw [List.mem_singleton.mp hmem]

/-- **What an iteration does**: it ends the loop with one object, or with pairs that all cost too
much, or it merges two objects. -/
lemma Consistent.iteration_cases (h : Consistent pairCost mergePair initial s) (std : StdLib P C)
    (threshold : C) :
    s.objectSet.card ≤ 1 ∧ s.iteration pairCost mergePair std threshold = some (s, false) ∨
      (∀ e ∈ (s.sortPairs std).pairs, threshold < e.cost) ∧
        s.iteration pairCost mergePair std threshold = some (s.sortPairs std, false) ∨
      ∃ best ∈ (s.sortPairs std).pairs, s.iteration pairCost mergePair std threshold =
        some ((s.sortPairs std).merged pairCost mergePair std best, true) := by
  have hsorted : Consistent pairCost mergePair initial (s.sortPairs std) := h.sortPairs
  unfold iteration
  by_cases hcard : s.objectSet.card ≤ 1
  · exact Or.inl ⟨hcard, if_pos hcard⟩
  · have hne : (s.sortPairs std).pairs ≠ [] :=
      fun hnil => hsorted.onePerPair.ne_nil (not_le.mp hcard) (by rw [hnil]; rfl)
    have hlast := List.getLast?_eq_some_getLast hne
    rw [if_neg hcard]
    dsimp only
    rw [hlast]
    dsimp only
    by_cases hcost : threshold < ((s.sortPairs std).pairs.getLast hne).cost
    · refine Or.inr (Or.inl ⟨fun e he => ?_, if_pos hcost⟩)
      exact lt_of_lt_of_le hcost (cost_getLast_le hlast he)
    · refine Or.inr (Or.inr ⟨_, List.getLast_mem hne, ?_⟩)
      rw [if_neg hcost, hsorted.popMerged_eq hlast, Option.bind_eq_bind, Option.bind_some]
      dsimp only
      rw [hsorted.mergeBest_eq (List.getLast_mem hne)]
      rfl

/-- The next iteration begins in a consistent state. -/
lemma Consistent.nextIteration (h : Consistent pairCost mergePair initial s) {s' : MergeState P V C}
    (hnext : NextIteration pairCost mergePair std count threshold s s') :
    Consistent pairCost mergePair initial s' := by
  obtain ⟨-, hnext⟩ := hnext
  rcases h.iteration_cases std threshold with ⟨-, heq⟩ | ⟨-, heq⟩ | ⟨best, hbest, heq⟩
  · simp [heq] at hnext
  · simp [heq] at hnext
  · rw [heq, Option.some_inj] at hnext
    exact (Prod.mk.inj hnext).1 ▸ h.sortPairs.merged hbest

/-- In a consistent state no object is used that is deleted. -/
lemma Consistent.usesLiveOnly (h : Consistent pairCost mergePair initial s) (threshold : C) :
    UsesLiveOnly pairCost mergePair std threshold s := by
  refine ⟨h.onePerPair, h.live, fun best hbest => ?_, fun hnone => ?_⟩
  · obtain ⟨-, hleft, hright⟩ := h.sortPairs.ends (List.mem_of_getLast? hbest)
    exact ⟨decide_eq_false (not_not.mpr hleft), decide_eq_false (not_not.mpr hright)⟩
  · rcases h.iteration_cases std threshold with ⟨-, heq⟩ | ⟨-, heq⟩ | ⟨best, -, heq⟩ <;>
      rw [heq] at hnone <;> exact Option.some_ne_none _ hnone

/-- **The loop ends**, after fewer passes than there are objects, in a consistent state. -/
lemma Consistent.exists_mergeLoop (h : Consistent pairCost mergePair initial s) (std : StdLib P C)
    (count : ℤ) (threshold : C) {passes : ℕ} (hpasses : s.objectSet.card < passes) :
    ∃ s', s.mergeLoop pairCost mergePair std count threshold passes = some s' ∧
      Consistent pairCost mergePair initial s' ∧
      ((s'.objectSet.card : ℤ) ≤ max count 1 ∨ ∀ e ∈ s'.pairs, threshold < e.cost) := by
  induction passes generalizing s with
  | zero => exact absurd hpasses (Nat.not_lt_zero _)
  | succ passes ih =>
    unfold mergeLoop
    by_cases hcount : count < s.objectSet.card
    · rw [if_pos hcount]
      rcases h.iteration_cases std threshold with
        ⟨hcard, heq⟩ | ⟨hcost, heq⟩ | ⟨best, hbest, heq⟩
      · rw [heq]
        exact ⟨s, rfl, h, Or.inl (le_max_of_le_right (by exact_mod_cast hcard))⟩
      · rw [heq]
        exact ⟨s.sortPairs std, rfl, h.sortPairs, Or.inr hcost⟩
      · rw [heq]
        have hless := h.sortPairs.card_merged std hbest
        have hsame : (s.sortPairs std).objectSet.card = s.objectSet.card := rfl
        exact ih (h.sortPairs.merged hbest) (by omega)
    · rw [if_neg hcount]
      exact ⟨s, rfl, h, Or.inl (le_max_of_le_left (not_lt.mp hcount))⟩

/-- If there are few objects, they are the result. -/
lemma mergesClasses_self {objects : List P} (hnodup : objects.Nodup)
    (hlive : ∀ o ∈ objects, o ∈ s.heap.live) (hpairs : s.pairs = []) (hset : s.objectSet = ∅)
    (hfew : (objects.length : ℤ) ≤ count) :
    MergesClasses pairCost mergePair count threshold objects s.heap objects s where
  nodup := hnodup
  live := hlive
  classes := ⟨fun o => {s.heap.object o}, sum_map_singleton _ _, fun _ _ => MergedFrom.object _⟩
  few := Or.inl (le_max_of_le_left hfew)
  pairs_eq := hpairs
  objectSet_eq := hset

/-- The objects of a consistent state in which the loop ends are the result. -/
lemma Consistent.mergesClasses {objects : List P} {heap : Heap P V}
    (h : Consistent pairCost mergePair ↑(objects.map heap.object) s)
    (hresult : (s.objectSet.card : ℤ) ≤ max count 1 ∨ ∀ e ∈ s.pairs, threshold < e.cost) :
    MergesClasses pairCost mergePair count threshold objects heap (std.order s.objectSet)
      { s with objectSet := ∅, pairs := [] } := by
  have hfinset : (std.order s.objectSet).toFinset = s.objectSet := by
    ext o
    rw [List.mem_toFinset, std.mem_order]
  refine ⟨std.order_nodup _, fun o ho => h.live ((std.mem_order _ _).mp ho), ?_, ?_, rfl, rfl⟩
  · obtain ⟨cls, hsum, hcls⟩ := h.classes
    refine ⟨cls, ?_, fun o ho => hcls o ((std.mem_order _ _).mp ho)⟩
    rw [← hsum, ← List.sum_toFinset cls (std.order_nodup _), hfinset]
  · rw [← List.toFinset_card_of_nodup (std.order_nodup _), hfinset]
    exact hresult.imp_right fun hcost =>
      ⟨s.pairs, h.onePerPair, fun e he => ⟨h.cost e he, hcost e he⟩⟩

/-- **Only objects that are alive are merged**, and the result consists of what the classes of a
partition of the objects are merged to. -/
theorem mergeItems_usesLiveOnly (pairCost : Object P V → Object P V → C) (mergePair : MergePair P V)
    (std : StdLib P C) (count : ℤ) (threshold : C) {objects : List P} (hnodup : objects.Nodup)
    (hlive : ∀ o ∈ objects, o ∈ s.heap.live) (hpairs : s.pairs = []) (hset : s.objectSet = ∅) :
    (∃ start, s.started pairCost objects = some start ∧
      ∀ turn, ReflTransGen (NextIteration pairCost mergePair std count threshold) start turn →
        UsesLiveOnly pairCost mergePair std threshold turn) ∧
    ∀ passes, objects.length < passes →
      ∃ result s', s.mergeItems pairCost mergePair std count threshold passes objects =
          some (result, s') ∧
        MergesClasses pairCost mergePair count threshold objects s.heap result s' := by
  have hstarted := started_eq pairCost hlive hpairs hset
  have hstart : Consistent pairCost mergePair _ _ := consistent_started hnodup hlive
  refine ⟨⟨_, hstarted, fun turn hturn => ?_⟩, fun passes hpasses => ?_⟩
  · have hconsistent : Consistent pairCost mergePair ↑(objects.map s.heap.object) turn := by
      induction hturn with
      | refl => exact hstart
      | tail _ hnext ih => exact ih.nextIteration hnext
    exact hconsistent.usesLiveOnly threshold
  · unfold mergeItems
    by_cases hfew : (objects.length : ℤ) ≤ count
    · exact ⟨objects, s, if_pos hfew, mergesClasses_self hnodup hlive hpairs hset hfew⟩
    · rw [← List.toFinset_card_of_nodup hnodup] at hpasses
      obtain ⟨s', hloop, hs', hresult⟩ :=
        hstart.exists_mergeLoop std count threshold hpasses
      refine ⟨std.order s'.objectSet, _, ?_, hs'.mergesClasses hresult⟩
      rw [if_neg hfew, hstarted, Option.bind_eq_bind, Option.bind_some, hloop]
      rfl

end Loop

end MergeState

/-! ## Numbers -/

/-- Sums of numbers, at the first address behind all that are taken. -/
def mergeNumbers : MergePair ℕ ℕ where
  contents left right := left.2 + right.2
  address live := live.sup id + 1
  address_notMem _ h := Nat.not_succ_le_self _ (Finset.le_sup (f := id) h)

/-- The dearer pair stands in front. -/
def costsMore (e f : Pair ℕ ℕ) : Bool := decide (f.cost ≤ e.cost)

/-- A stable sort, and sets in the order of the addresses. -/
def orderedLib : StdLib ℕ ℕ where
  sort pairs := pairs.mergeSort costsMore
  order s := s.sort (· ≤ ·)
  sort_perm pairs := pairs.mergeSort_perm _
  sort_sorted pairs := by
    have htrans (e f g : Pair ℕ ℕ) (hef : costsMore e f) (hfg : costsMore f g) : costsMore e g :=
      decide_eq_true ((of_decide_eq_true hfg).trans (of_decide_eq_true hef))
    have htotal (e f : Pair ℕ ℕ) : (costsMore e f || costsMore f e) = true := by
      rw [Bool.or_eq_true, costsMore, costsMore, decide_eq_true_eq, decide_eq_true_eq]
      exact le_total _ _
    exact (List.pairwise_mergeSort htrans htotal pairs).imp fun h => of_decide_eq_true h
  order_nodup s := s.sort_nodup _
  mem_order s _ := s.mem_sort _

/-- Three numbers are merged to two. -/
theorem mergeItems_usesLiveOnly_numbers :
    ∃ result s',
      MergeState.mergeItems (fun l r => l.2 + r.2) mergeNumbers orderedLib 2 100 4 [1, 2, 3]
          ⟨[], ∅, ⟨{1, 2, 3}, fun o => o * o⟩⟩ = some (result, s') ∧
        MergeState.MergesClasses (fun l r => l.2 + r.2) mergeNumbers 2 100 [1, 2, 3]
          ⟨{1, 2, 3}, fun o => o * o⟩ result s' :=
  (MergeState.mergeItems_usesLiveOnly (s := ⟨[], ∅, ⟨{1, 2, 3}, fun o => o * o⟩⟩)
    (fun l r => l.2 + r.2) mergeNumbers orderedLib 2 100 (by decide : [1, 2, 3].Nodup) (by decide)
    rfl rfl).2 4 (by decide)

end PairwiseCostMergeUtility

end NaoSoccer
