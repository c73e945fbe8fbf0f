import NaoSoccer.Foundation.SlidingWindow
import Mathlib.Algebra.BigOperators.Group.List.Basic
import Mathlib.Algebra.Order.Field.Basic
import Mathlib.Algebra.Order.Field.Rat
import Mathlib.Tactic.NormNum

/-!
# The ring buffer with a sum

`RingBufferWithSum<C, n>` keeps the last `n` values that were added, their sum, and answers for their
minimum, their average and their median.  The buffer is not initialized, and `getMedian` looks at all
of its cells: until `n` values have been added the old contents take part in the median.

Sums and averages are exact.
-/

namespace NaoSoccer

open CyclicStorage SlidingWindow

/-- `RingBufferWithSum<C, n>` -/
structure RingBufferWithSum (C : Type*) (n : ℕ) where
  current : ℕ
  numberOfEntries : ℕ
  buffer : Vector C n
  sum : C

namespace RingBufferWithSum

variable {C : Type*} [Field C] {n : ℕ}

/-- `RingBufferWithSum::init` -/
def init (buffer : Vector C n) : RingBufferWithSum C n := ⟨n - 1, 0, buffer, 0⟩

/-- The place of an entry that `getEntry` computes; `%` truncates. -/
def entryIndex (b : RingBufferWithSum C n) (i : ℕ) : ℕ :=
  let j := (b.current - i : ℤ).tmod n
  (if j < 0 then j + n else j).toNat

/-- `RingBufferWithSum::getEntry` -/
def getEntry (b : RingBufferWithSum C n) (i : ℕ) : Option C := b.buffer[b.entryIndex i]?

/-- The constant `RingBufferWithSum::operator[]` -/
def constEntry (b : RingBufferWithSum C n) (i : ℕ) : Option C :=
  b.buffer[if i > b.current then n + b.current - i else b.current - i]?

/-- `RingBufferWithSum::add` -/
def add (b : RingBufferWithSum C n) (value : C) : Option (RingBufferWithSum C n) :=
  let rest : Option C :=
    if b.numberOfEntries = n then (b.getEntry (b.numberOfEntries - 1)).map (b.sum - ·)
    else some b.sum
  let current := if b.current + 1 = n then 0 else b.current + 1
  let numberOfEntries := if b.numberOfEntries + 1 ≥ n then n else b.numberOfEntries + 1
  rest.bind fun sum =>
    if h : current < n then
      some ⟨current, numberOfEntries, b.buffer.set current value h, sum + value⟩
    else none

/-- `RingBufferWithSum::getSum` -/
def getSum (b : RingBufferWithSum C n) : C := b.sum

/-- `RingBufferWithSum::getMinimum` -/
def getMinimum [LinearOrder C] (b : RingBufferWithSum C n) : C :=
  match b.buffer.toList.take b.numberOfEntries with
  | [] => 0
  | first :: rest => (first :: rest).foldl (fun min v => if v < min then v else min) first

/-- `RingBufferWithSum::getAverage` -/
def getAverage (b : RingBufferWithSum C n) : C :=
  if b.numberOfEntries = 0 then 0 else b.sum / (b.numberOfEntries : ℕ)

/-- `RingBufferWithSum::getMedian`; `nth_element` puts the value of rank `mid` at its place. -/
def getMedian [LinearOrder C] (b : RingBufferWithSum C n) : Option C :=
  let mid := n / 2
  kth b.buffer.toList mid

/-- Values are added one after the other. -/
def addAll (b : RingBufferWithSum C n) : List C → Option (RingBufferWithSum C n)
  | [] => some b
  | v :: vs => (b.add v).bind fun next => next.addAll vs

/-! ## What the buffer holds -/

/-- The buffer holds the last of its old contents and of the values, and their sum. -/
structure Represents (b : RingBufferWithSum C n) (old vs : List C) : Prop where
  length_old : old.length = n
  current_lt : b.current < n
  current : (b.current + 1) % n = vs.length % n
  numberOfEntries : b.numberOfEntries = min vs.length n
  buffer : b.buffer.toList.rotate (vs.length % n) = keepLast n (old ++ vs)
  sum : b.sum = (keepLast n vs).sum

/-- A buffer that nothing has been added to. -/
lemma represents_init [NeZero n] (buffer : Vector C n) :
    (init buffer).Represents buffer.toList [] := by
  have hn : 0 < n := NeZero.pos n
  refine ⟨by simp, Nat.sub_lt hn Nat.one_pos, ?_, by simp [init], ?_, by simp [init, keepLast]⟩
  · simp [init, Nat.sub_add_cancel hn]
  · simp [init, keepLast]

variable {b : RingBufferWithSum C n} {old vs : List C}

omit [Field C] in
/-- The remainder is corrected by at most one round. -/
lemma entryIndex_eq_ite (hcurrent : b.current < n) {i : ℕ} (hi : i < n) :
    b.entryIndex i = if i > b.current then n + b.current - i else b.current - i := by
  rw [entryIndex]
  by_cases hlt : i > b.current
  · have hj : (b.current - i : ℤ).tmod n = b.current - i := by
      rw [← neg_sub, Int.neg_tmod, Int.tmod_eq_of_lt (by omega) (by omega)]
    rw [if_pos hlt, hj, if_pos (by omega)]
    omega
  · rw [if_neg hlt, Int.tmod_eq_of_lt (by omega) (by omega), if_neg (by omega)]
    omega

namespace Represents

/-- Read backwards from the current place, the buffer holds the newest values first. -/
lemma entryIndex_eq (h : b.Represents old vs) {i : ℕ} (hi : i < n) :
    b.entryIndex i = (n - 1 - i + vs.length % n) % n := by
  have hcurrent := h.current_lt
  rw [← h.current, Nat.add_mod_mod, entryIndex_eq_ite hcurrent hi]
  split
  next hlt => rw [Nat.mod_eq_of_lt (by omega)]; omega
  next hle =>
    have hsum : n - 1 - i + (b.current + 1) = b.current - i + n := by omega
    rw [hsum, Nat.add_mod_right, Nat.mod_eq_of_lt (by omega)]

/-- The entries are the newest values first. -/
lemma getEntry_eq (h : b.Represents old vs) {i : ℕ} (hi : i < n) :
    b.getEntry i = (old ++ vs).reverse[i]? := by
  have hlength : b.buffer.toList.length = n := by simp
  have hold := h.length_old
  have hbuffer : b.buffer.toList[(n - 1 - i + vs.length % n) % n]? =
      (b.buffer.toList.rotate (vs.length % n))[n - 1 - i]? := by
    rw [List.getElem?_rotate (by rw [hlength]; omega), hlength]
  rw [getEntry, h.entryIndex_eq hi, ← Vector.getElem?_toList, hbuffer, h.buffer, keepLast,
    List.getElem?_drop, List.getElem?_reverse (by rw [List.length_append]; omega)]
  congr 1
  rw [List.length_append]
  omega

/-- A full buffer reads the oldest of the values that it keeps. -/
lemma getEntry_oldest (h : b.Represents old vs) (hn : 0 < n) (hfull : n ≤ vs.length) :
    ∃ oldest, b.getEntry (n - 1) = some oldest ∧ keepLast n vs = oldest :: (keepLast n vs).tail := by
  have hne : keepLast n vs ≠ [] := by
    intro hnil
    have hlength := length_keepLast hfull
    rw [hnil] at hlength
    exact hn.ne hlength
  obtain ⟨oldest, rest, hcons⟩ := List.exists_cons_of_ne_nil hne
  refine ⟨oldest, ?_, by rw [hcons, List.tail_cons]⟩
  have hplace : (old ++ vs).length - 1 - (n - 1) = old.length + (vs.length - n) := by
    rw [List.length_append]
    omega
  rw [h.getEntry_eq (by omega), List.getElem?_reverse (by rw [List.length_append]; omega), hplace,
    List.getElem?_append_right (Nat.le_add_right _ _), Nat.add_sub_cancel_left,
    ← List.head?_drop]
  exact congrArg List.head? hcons

/-- What is left of the sum when a value is added to a buffer that may be full. -/
lemma rest_eq (h : b.Represents old vs) (hn : 0 < n) (v : C) :
    ∃ rest, (if b.numberOfEntries = n then (b.getEntry (b.numberOfEntries - 1)).map (b.sum - ·)
      else some b.sum) = some rest ∧ rest + v = (keepLast n (vs ++ [v])).sum := by
  have hnumber := h.numberOfEntries
  by_cases hfull : n ≤ vs.length
  · rw [Nat.min_eq_right hfull] at hnumber
    obtain ⟨oldest, hentry, hcons⟩ := h.getEntry_oldest hn hfull
    refine ⟨b.sum - oldest, by rw [if_pos hnumber, hnumber, hentry, Option.map_some], ?_⟩
    rw [keepLast_concat hn hfull, h.sum, hcons]
    simp
  · rw [Nat.min_eq_left (by omega)] at hnumber
    refine ⟨b.sum, if_neg (by omega), ?_⟩
    rw [h.sum, keepLast_of_length_le (by omega),
      keepLast_of_length_le (by rw [List.length_append, List.length_singleton]; omega)]
    simp

/-- The place that is written next. -/
lemma next_current (h : b.Represents old vs) :
    (if b.current + 1 = n then 0 else b.current + 1) = vs.length % n := by
  have hcurrent := h.current_lt
  rw [← h.current]
  split
  next hwrap => rw [hwrap, Nat.mod_self]
  next => rw [Nat.mod_eq_of_lt (by omega)]

/-- A value is added. -/
lemma add [NeZero n] (h : b.Represents old vs) (v : C) :
    ∃ b', b.add v = some b' ∧ b'.Represents old (vs ++ [v]) := by
  have hn : 0 < n := NeZero.pos n
  have hplace : vs.length % n < n := Nat.mod_lt _ hn
  obtain ⟨rest, hrest, hsum⟩ := h.rest_eq hn v
  have hnext := h.next_current
  refine ⟨⟨vs.length % n, if b.numberOfEntries + 1 ≥ n then n else b.numberOfEntries + 1,
    b.buffer.set (vs.length % n) v hplace, rest + v⟩, ?_, ?_⟩
  · rw [RingBufferWithSum.add, hrest, Option.bind_some, hnext, dif_pos hplace]
  · refine ⟨h.length_old, hplace, ?_, ?_, ?_, hsum⟩
    · rw [List.length_append, List.length_singleton, Nat.mod_add_mod]
    · dsimp only
      rw [h.numberOfEntries, List.length_append, List.length_singleton]
      split <;> omega
    · have hlength : b.buffer.toList.length = n := by simp
      have hset := rotate_set (hlength.symm ▸ hplace : vs.length % n < b.buffer.toList.length) v
      rw [hlength, Nat.mod_add_mod, h.buffer, ← keepLast_concat hn (by
        rw [List.length_append, h.length_old]
        omega), List.append_assoc] at hset
      rw [List.length_append, List.length_singleton, Vector.toList_set]
      exact hset

/-- The values of the buffer, in some order. -/
lemma perm (h : b.Represents old vs) : b.buffer.toList.Perm (keepLast n (old ++ vs)) := by
  rw [← h.buffer]
  exact (List.rotate_perm _ _).symm

/-- The cells that are in use hold the values that were added. -/
lemma take_perm (h : b.Represents old vs) :
    (b.buffer.toList.take b.numberOfEntries).Perm (keepLast n vs) := by
  have hlength : b.buffer.toList.length = n := by simp
  by_cases hfull : n ≤ vs.length
  · rw [h.numberOfEntries, Nat.min_eq_right hfull, List.take_of_length_le hlength.le,
      ← keepLast_append_of_le old hfull]
    exact h.perm
  · -- nothing has been overwritten, so that the values stand in front
    have hbuffer := h.buffer
    have hold := h.length_old
    have hdrop : (old ++ vs).length - n = vs.length := by
      rw [List.length_append]
      omega
    rw [Nat.mod_eq_of_lt (by omega), List.rotate_eq_drop_append_take (by omega), keepLast, hdrop,
      List.drop_append_of_le_length (by omega)] at hbuffer
    have htake := List.append_inj_right hbuffer (by
      rw [List.length_drop, List.length_drop, hlength, hold])
    rw [h.numberOfEntries, Nat.min_eq_left (by omega), htake, keepLast_of_length_le (by omega)]

end Represents

/-- Values can always be added. -/
lemma Represents.addAll [NeZero n] (h : b.Represents old vs) (ws : List C) :
    ∃ b', b.addAll ws = some b' ∧ b'.Represents old (vs ++ ws) := by
  induction ws generalizing b vs with
  | nil => exact ⟨b, rfl, by rwa [List.append_nil]⟩
  | cons w ws ih =>
    obtain ⟨next, hadd, hnext⟩ := h.add w
    obtain ⟨b', hall, hb'⟩ := ih hnext
    refine ⟨b', ?_, by rwa [List.append_cons]⟩
    rw [RingBufferWithSum.addAll, hadd, Option.bind_some, hall]

omit [Field C] in
/-- The constant operator reads the same entries. -/
lemma constEntry_eq (hcurrent : b.current < n) {i : ℕ} (hi : i < n) :
    b.constEntry i = b.getEntry i := by
  rw [constEntry, getEntry, entryIndex_eq_ite hcurrent hi]

section Answers

variable [LinearOrder C]

omit [Field C] in
/-- The loop of `getMinimum` -/
lemma foldl_least (l : List C) (a : C) :
    IsLeast {v | v ∈ a :: l} (l.foldl (fun min v => if v < min then v else min) a) := by
  induction l generalizing a with
  | nil => exact ⟨List.mem_singleton_self a, fun v hv => (List.mem_singleton.mp hv).ge⟩
  | cons w l ih =>
    rw [List.foldl_cons]
    obtain ⟨hmem, hle⟩ := ih (if w < a then w else a)
    refine ⟨?_, fun v hv => ?_⟩
    · rcases List.mem_cons.mp hmem with hmem | hmem
      · rw [hmem]
        split <;> simp
      · simp [hmem]
    · have hstart := hle List.mem_cons_self
      have hmin : (if w < a then w else a) ≤ a ∧ (if w < a then w else a) ≤ w := by
        split
        next hlt => exact ⟨hlt.le, le_rfl⟩
        next hlt => exact ⟨le_rfl, not_lt.mp hlt⟩
      rcases List.mem_cons.mp hv with rfl | hv
      · exact hstart.trans hmin.1
      · rcases List.mem_cons.mp hv with rfl | hv
        · exact hstart.trans hmin.2
        · exact hle (List.mem_cons_of_mem _ hv)

/-- The minimum is that of the values which the buffer keeps. -/
lemma Represents.getMinimum (h : b.Represents old vs) (hn : 0 < n) (hne : vs ≠ []) :
    IsLeast {v | v ∈ keepLast n vs} b.getMinimum := by
  have hperm := h.take_perm
  rw [RingBufferWithSum.getMinimum]
  cases htake : b.buffer.toList.take b.numberOfEntries with
  | nil =>
    rw [htake] at hperm
    have hlength := congrArg List.length (List.nil_perm.mp hperm)
    have hpos := List.length_pos_of_ne_nil hne
    rw [keepLast, List.length_drop, List.length_nil] at hlength
    omega
  | cons first rest =>
    rw [htake] at hperm
    have hset : {v | v ∈ keepLast n vs} = {v | v ∈ first :: first :: rest} := by
      ext v
      simp [← hperm.mem_iff]
    rw [hset]
    exact foldl_least (first :: rest) first

end Answers

end RingBufferWithSum

end NaoSoccer
