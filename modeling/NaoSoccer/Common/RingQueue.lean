import NaoSoccer.Foundation.CyclicStorage
import Mathlib.Data.Vector.Basic

/-!
# The ring queue

`RingQueue<V, n>` keeps the last `n` values in a buffer of `n` places.  A value that is pushed onto
a full queue takes the place of the oldest one.

The indices are of type `int` and never negative.  An access to the buffer with an index outside of
it, and a sum that an `int` does not hold, are `none`.  The buffer is not initialized, so it begins
with anything.

`back` reads the place in front of the one that is written next and does not wrap, so it leaves the
buffer when that one is the first.
-/

namespace NaoSoccer

open CyclicStorage

/-- `RingQueue<V, n>` -/
structure RingQueue (V : Type*) (n : ℕ) where
  frontIndex : ℕ
  backIndex : ℕ
  numberOfEntries : ℕ
  buffer : Vector V n

/-- A call that changes a `RingQueue`. -/
inductive RingQueueAct (V : Type*)
  | push (v : V)
  | pop

namespace RingQueue

variable {V : Type*} {n : ℕ}

/-- `RingQueue::init` -/
def init (buffer : Vector V n) : RingQueue V n := ⟨0, 0, 0, buffer⟩

/-- `buffer[index]` -/
def read (index : ℤ) (q : RingQueue V n) : Option V :=
  if 0 ≤ index then q.buffer[index.toNat]? else none

/-- `RingQueue::incrementIndex` -/
def incrementIndex (n index : ℕ) : ℕ := if index + 1 = n then 0 else index + 1

/-- `RingQueue::push` -/
def push (v : V) (q : RingQueue V n) : Option (RingQueue V n) :=
  let q := if q.numberOfEntries = n then
    { q with numberOfEntries := n - 1, frontIndex := incrementIndex n q.frontIndex } else q
  if h : q.backIndex < n then
    some { q with
      buffer := q.buffer.set q.backIndex v h
      backIndex := incrementIndex n q.backIndex
      numberOfEntries := q.numberOfEntries + 1 }
  else none

/-- `RingQueue::pop` -/
def pop (q : RingQueue V n) : Option (V × RingQueue V n) :=
  if q.numberOfEntries ≤ 0 then (q.read 0).map fun v => (v, q)
  else (q.read q.frontIndex).map fun v =>
    (v, { q with
      frontIndex := incrementIndex n q.frontIndex
      numberOfEntries := q.numberOfEntries - 1 })

/-- `RingQueue::front` -/
def front (q : RingQueue V n) : Option V := q.read q.frontIndex

/-- `RingQueue::back` -/
def back (q : RingQueue V n) : Option V := q.read (q.backIndex - 1)

/-- The loop in `RingQueue::getEntry`. -/
def wrapIndex (n : ℕ) [NeZero n] (index : ℕ) : ℕ :=
  if index ≥ n then wrapIndex n (index - n) else index
termination_by index
decreasing_by
  have := Nat.pos_of_neZero n
  omega

/-- `RingQueue::getEntry` -/
def getEntry [NeZero n] (i : ℕ) (q : RingQueue V n) : Option V :=
  if q.frontIndex + i < 2 ^ 31 then q.read (wrapIndex n (q.frontIndex + i)) else none

/-- `RingQueue::getNumberOfEntries` -/
def getNumberOfEntries (q : RingQueue V n) : ℕ := q.numberOfEntries

/-- One call. -/
def step : RingQueueAct V → RingQueue V n → Option (RingQueue V n)
  | .push v, q => q.push v
  | .pop, q => q.pop.map Prod.snd

/-- A sequence of calls. -/
def run : List (RingQueueAct V) → RingQueue V n → Option (RingQueue V n)
  | [], q => some q
  | act :: acts, q => (q.step act).bind (run acts)

/-! ## The queue that it is meant to be -/

/-- What one call makes of the entries: the newest `n` are kept, and the oldest is removed. -/
def queueStep (n : ℕ) (entries : List V) : RingQueueAct V → List V
  | .push v => keepLast n (entries ++ [v])
  | .pop => entries.tail

/-- The newest values that have been pushed and not popped, `n` at most, in order. -/
def liveEntries (n : ℕ) (acts : List (RingQueueAct V)) : List V := acts.foldl (queueStep n) []

/-- The number of values that have been pushed. -/
def pushes (acts : List (RingQueueAct V)) : ℕ :=
  acts.countP fun act => match act with
    | .push _ => true
    | .pop => false

/-- **A bounded queue**: every access finds the entry that it is for, inside of the buffer. -/
structure IsBoundedFifo [NeZero n] (q : RingQueue V n) (entries : List V) : Prop where
  length_le : entries.length ≤ n
  getNumberOfEntries : q.getNumberOfEntries = entries.length
  getEntry : ∀ i < entries.length, q.getEntry i = entries[i]?
  front : entries ≠ [] → q.front = entries.head?
  pop : entries ≠ [] → q.pop.map Prod.fst = entries.head?
  back : entries ≠ [] → q.back = entries.getLast?

/-! ## Indices -/

/-- The next index in the circle. -/
lemma incrementIndex_eq [NeZero n] {index : ℕ} (h : index < n) :
    incrementIndex n index = (index + 1) % n := by
  unfold incrementIndex
  split
  next heq => rw [heq, Nat.mod_self]
  next hne => rw [Nat.mod_eq_of_lt (by omega)]

/-- The loop brings an index into the circle. -/
lemma wrapIndex_eq (n : ℕ) [NeZero n] (index : ℕ) : wrapIndex n index = index % n := by
  induction index using Nat.strongRecOn with
  | ind index ih =>
    have hn := Nat.pos_of_neZero n
    rw [wrapIndex]
    split
    next hge => rw [ih (index - n) (by omega), Nat.mod_eq_sub_mod hge]
    next hlt => rw [Nat.mod_eq_of_lt (by omega)]

/-- An index in the buffer is read there. -/
lemma read_natCast (q : RingQueue V n) (index : ℕ) : q.read index = q.buffer[index]? := by
  rw [read, if_pos (Int.natCast_nonneg index), Int.toNat_natCast]

/-! ## The invariant -/

/-- The buffer holds the entries in a circle that ends in front of the place for the next one. -/
structure Represents (q : RingQueue V n) (entries : List V) (pushed : ℕ) : Prop where
  frontIndex : q.frontIndex = (pushed - entries.length) % n
  backIndex : q.backIndex = pushed % n
  numberOfEntries : q.numberOfEntries = entries.length
  length_le : entries.length ≤ n
  length_le_pushed : entries.length ≤ pushed
  holds : Holds n q.frontIndex entries fun i => q.buffer[i]?

variable [NeZero n] {q : RingQueue V n} {entries : List V} {pushed : ℕ}

omit [NeZero n] in
/-- An empty queue. -/
lemma represents_init (buffer : Vector V n) : (init buffer).Represents [] 0 where
  frontIndex := (Nat.zero_mod n).symm
  backIndex := (Nat.zero_mod n).symm
  numberOfEntries := rfl
  length_le := Nat.zero_le n
  length_le_pushed := Nat.zero_le 0
  holds := Holds.nil

namespace Represents

/-- The first index is inside of the buffer. -/
lemma frontIndex_lt (h : q.Represents entries pushed) : q.frontIndex < n := by
  rw [h.frontIndex]
  exact Nat.mod_lt _ (Nat.pos_of_neZero n)

/-- So is the next one to be written. -/
lemma backIndex_lt (h : q.Represents entries pushed) : q.backIndex < n := by
  rw [h.backIndex]
  exact Nat.mod_lt _ (Nat.pos_of_neZero n)

omit [NeZero n] in
/-- The next place to be written is the one behind the newest entry. -/
lemma place_eq (h : q.Represents entries pushed) :
    (q.frontIndex + entries.length) % n = q.backIndex := by
  rw [h.frontIndex, h.backIndex, Nat.mod_add_mod, Nat.sub_add_cancel h.length_le_pushed]

/-- Without its oldest entry. -/
lemma dropFront (h : q.Represents entries pushed) (hne : entries ≠ []) :
    { q with
      frontIndex := incrementIndex n q.frontIndex
      numberOfEntries := entries.length - 1 }.Represents entries.tail pushed := by
  have hpos : 0 < entries.length := List.length_pos_iff.mpr hne
  have hle := h.length_le_pushed
  have hfront : incrementIndex n q.frontIndex = (pushed - (entries.length - 1)) % n := by
    rw [incrementIndex_eq h.frontIndex_lt, h.frontIndex, Nat.mod_add_mod]
    congr 1
    omega
  refine ⟨?_, h.backIndex, List.length_tail.symm, ?_, ?_, ?_⟩
  · rw [List.length_tail]
    exact hfront
  · rw [List.length_tail]
    exact (Nat.sub_le _ _).trans h.length_le
  · rw [List.length_tail]
    exact (Nat.sub_le _ _).trans hle
  · show Holds n (incrementIndex n q.frontIndex) entries.tail _
    rw [incrementIndex_eq h.frontIndex_lt]
    exact h.holds.tail

/-- A new entry is written behind the newest one. -/
lemma write (h : q.Represents entries pushed) (hlength : entries.length < n) (v : V)
    (hback : q.backIndex < n) :
    { q with
      buffer := q.buffer.set q.backIndex v hback
      backIndex := incrementIndex n q.backIndex
      numberOfEntries := q.numberOfEntries + 1 }.Represents (entries ++ [v]) (pushed + 1) := by
  have hnext : incrementIndex n q.backIndex = (pushed + 1) % n := by
    rw [incrementIndex_eq hback, h.backIndex, Nat.mod_add_mod]
  refine ⟨?_, hnext, ?_, ?_, ?_, ?_⟩
  · rw [List.length_append, List.length_singleton, Nat.add_sub_add_right]
    exact h.frontIndex
  · show q.numberOfEntries + 1 = _
    rw [h.numberOfEntries, List.length_append, List.length_singleton]
  · rw [List.length_append]
    exact hlength
  · rw [List.length_append, List.length_singleton]
    exact Nat.succ_le_succ h.length_le_pushed
  · have hupdate : (fun i => (q.buffer.set q.backIndex v hback)[i]?) =
        Function.update (fun i => q.buffer[i]?) ((q.frontIndex + entries.length) % n) (some v) := by
      funext i
      rw [h.place_eq]
      by_cases hi : i = q.backIndex
      · subst hi
        rw [Function.update_self, Vector.getElem?_set_self]
      · rw [Function.update_of_ne hi, Vector.getElem?_set_ne hback (Ne.symm hi)]
    show Holds n q.frontIndex (entries ++ [v]) fun i =>
      (q.buffer.set q.backIndex v hback)[i]?
    rw [hupdate]
    exact h.holds.append hlength v

/-- **The step lemma**: no call leaves the buffer, and the buffer holds what the call makes of the
entries. -/
lemma step (h : q.Represents entries pushed) (act : RingQueueAct V) :
    ∃ q', q.step act = some q' ∧
      q'.Represents (queueStep n entries act) (pushed + pushes [act]) := by
  have hn := Nat.pos_of_neZero n
  have hback := h.backIndex_lt
  cases act with
  | push v =>
    by_cases hfull : q.numberOfEntries = n
    · have hlength : entries.length = n := h.numberOfEntries.symm.trans hfull
      have hne : entries ≠ [] := by
        rintro rfl
        exact absurd hlength (Nat.ne_of_lt hn)
      have hdrop := h.dropFront hne
      rw [hlength] at hdrop
      have hshort : entries.tail.length < n := by
        rw [List.length_tail]
        omega
      have hwrite := hdrop.write hshort v hback
      rw [← keepLast_concat_of_length_eq hn hlength v] at hwrite
      refine ⟨_, ?_, hwrite⟩
      rw [RingQueue.step, push, if_pos hfull]
      exact dif_pos hback
    · have hshort : entries.length < n := by
        have hle := h.length_le
        rw [h.numberOfEntries] at hfull
        omega
      have hkept : keepLast n (entries ++ [v]) = entries ++ [v] :=
        keepLast_of_length_le (by rwa [List.length_append, List.length_singleton])
      have hwrite := h.write hshort v hback
      rw [← hkept] at hwrite
      refine ⟨_, ?_, hwrite⟩
      rw [RingQueue.step, push, if_neg hfull]
      exact dif_pos hback
  | pop =>
    cases hentries : entries with
    | nil =>
      subst hentries
      have hzero : q.numberOfEntries ≤ 0 := Nat.le_of_eq h.numberOfEntries
      refine ⟨q, ?_, h⟩
      have hread : q.read 0 = some q.buffer[0] := by
        rw [read, if_pos (le_refl 0)]
        exact Vector.getElem?_eq_getElem hn
      rw [RingQueue.step, pop, if_pos hzero, hread]
      rfl
    | cons v rest =>
      rw [← hentries]
      have hne : entries ≠ [] := hentries ▸ List.cons_ne_nil v rest
      have hpos : ¬ q.numberOfEntries ≤ 0 := by
        rw [h.numberOfEntries]
        exact Nat.not_le.mpr (List.length_pos_iff.mpr hne)
      have hdrop := h.dropFront hne
      rw [← h.numberOfEntries] at hdrop
      refine ⟨_, ?_, hdrop⟩
      rw [RingQueue.step, pop, if_neg hpos, read_natCast,
        Vector.getElem?_eq_getElem h.frontIndex_lt]
      rfl

/-- **The run lemma**: after any calls the buffer holds the entries. -/
lemma run (h : q.Represents entries pushed) (acts : List (RingQueueAct V)) :
    ∃ q', RingQueue.run acts q = some q' ∧
      q'.Represents (acts.foldl (queueStep n) entries) (pushed + pushes acts) := by
  induction acts generalizing q entries pushed with
  | nil => exact ⟨q, rfl, h⟩
  | cons act acts ih =>
    obtain ⟨q₁, hstep, h₁⟩ := h.step act
    obtain ⟨q', hrun, h'⟩ := ih h₁
    refine ⟨q', ?_, ?_⟩
    · rw [RingQueue.run, hstep]
      exact hrun
    · have hpushes : pushes (act :: acts) = pushes [act] + pushes acts := by
        show List.countP _ ([act] ++ acts) = _
        exact List.countP_append
      rw [hpushes, ← Nat.add_assoc]
      exact h'

/-- An entry is found where the sum of indices is an `int`. -/
lemma getEntry_eq (h : q.Represents entries pushed) {i : ℕ} (hi : i < entries.length) :
    q.getEntry i = if q.frontIndex + i < 2 ^ 31 then entries[i]? else none := by
  have hheld := h.holds i entries[i] (List.getElem?_eq_getElem hi)
  rw [getEntry, wrapIndex_eq, read_natCast, List.getElem?_eq_getElem hi, ← hheld]

/-- The oldest entry is found. -/
lemma front_eq (h : q.Represents entries pushed) (hne : entries ≠ []) :
    q.front = entries.head? := by
  have hpos : 0 < entries.length := List.length_pos_iff.mpr hne
  have hheld := h.holds 0 entries[0] (List.getElem?_eq_getElem hpos)
  rw [Nat.add_zero, Nat.mod_eq_of_lt h.frontIndex_lt] at hheld
  rw [front, read_natCast, List.head?_eq_getElem?, List.getElem?_eq_getElem hpos, ← hheld]

/-- **The newest entry is found** exactly if the next place to be written is not the first one. -/
lemma back_eq_iff (h : q.Represents entries pushed) (hne : entries ≠ []) :
    q.back = entries.getLast? ↔ q.backIndex ≠ 0 := by
  have hpos : 0 < entries.length := List.length_pos_iff.mpr hne
  have hlast : entries.length - 1 < entries.length := Nat.sub_lt hpos Nat.one_pos
  have hplace := h.place_eq
  have hlt := h.frontIndex_lt
  have hle := h.length_le
  constructor
  · intro hback hzero
    have hread : q.back = none := by
      rw [back, hzero]
      rfl
    rw [hread, List.getLast?_eq_some_getLast hne] at hback
    exact absurd hback (by simp)
  · intro hnext
    have hheld := h.holds _ entries[entries.length - 1] (List.getElem?_eq_getElem hlast)
    have hindex : (q.frontIndex + (entries.length - 1)) % n = q.backIndex - 1 := by
      have hsum : q.frontIndex + (entries.length - 1) =
          q.frontIndex + entries.length - 1 := by omega
      rcases Nat.lt_or_ge (q.frontIndex + entries.length) n with hin | hout
      · rw [Nat.mod_eq_of_lt hin] at hplace
        rw [hsum, hplace, Nat.mod_eq_of_lt (by omega)]
      · rw [Nat.mod_eq_sub_mod hout, Nat.mod_eq_of_lt (by omega)] at hplace
        rw [hsum, Nat.mod_eq_sub_mod (by omega), Nat.mod_eq_of_lt (by omega)]
        omega
    have hcast : (q.backIndex : ℤ) - 1 = ((q.backIndex - 1 : ℕ) : ℤ) := by omega
    rw [back, hcast, read_natCast, List.getLast?_eq_getElem?, List.getElem?_eq_getElem hlast,
      ← hheld, hindex]

/-- **The queue is a bounded one** exactly if it is empty, or the next place to be written is not
the first one and the indices of all entries can be added. -/
lemma isBoundedFifo_iff (h : q.Represents entries pushed) :
    q.IsBoundedFifo entries ↔
      (entries ≠ [] → q.backIndex ≠ 0 ∧ q.frontIndex + entries.length ≤ 2 ^ 31) := by
  constructor
  · intro hfifo hne
    have hpos : 0 < entries.length := List.length_pos_iff.mpr hne
    have hlast : entries.length - 1 < entries.length := Nat.sub_lt hpos Nat.one_pos
    refine ⟨(h.back_eq_iff hne).mp (hfifo.back hne), ?_⟩
    by_contra hlarge
    have hentry := hfifo.getEntry _ hlast
    rw [h.getEntry_eq hlast, if_neg (by omega), List.getElem?_eq_getElem hlast] at hentry
    exact absurd hentry (by simp)
  · intro hcond
    refine ⟨h.length_le, h.numberOfEntries, fun i hi => ?_, h.front_eq, fun hne => ?_, fun hne => ?_⟩
    · have hne : entries ≠ [] := by
        rintro rfl
        exact absurd hi (Nat.not_lt_zero i)
      have hsum := (hcond hne).2
      rw [h.getEntry_eq hi, if_pos (by omega)]
    · have hpos : ¬ q.numberOfEntries ≤ 0 := by
        rw [h.numberOfEntries]
        exact Nat.not_le.mpr (List.length_pos_iff.mpr hne)
      rw [pop, if_neg hpos, Option.map_map, ← h.front_eq hne, front]
      exact Option.map_id'
    · exact (h.back_eq_iff hne).mpr (hcond hne).1

end Represents

/-- **The ring queue is a bounded FIFO exactly while the next place to be written is not the first
one**: no call leaves the buffer, the live entries are found in order by `getEntry`, `front` and
`pop`, and `back` finds the newest one unless the number of pushes is a multiple of `n`.  If `n` is
at most `2 ^ 30`, the sums of indices always fit. -/
theorem ringQueue_isBoundedFifo_iff (buffer : Vector V n) (acts : List (RingQueueAct V)) :
    ∃ q, run acts (init buffer) = some q ∧
      (q.IsBoundedFifo (liveEntries n acts) ↔
        (liveEntries n acts ≠ [] → pushes acts % n ≠ 0 ∧
          (pushes acts - (liveEntries n acts).length) % n + (liveEntries n acts).length ≤
            2 ^ 31)) := by
  obtain ⟨q, hrun, h⟩ := (represents_init buffer).run acts
  rw [Nat.zero_add] at h
  change q.Represents (liveEntries n acts) (pushes acts) at h
  refine ⟨q, hrun, ?_⟩
  rw [h.isBoundedFifo_iff, h.backIndex, h.frontIndex]

/-- A queue of three places after four values, one of which has been removed. -/
theorem ringQueue_isBoundedFifo_four :
    ∃ q : RingQueue ℕ 3,
      run [.push 1, .push 2, .pop, .push 3, .push 4] (init (Vector.replicate 3 0)) = some q ∧
      q.IsBoundedFifo (liveEntries 3 [.push 1, .push 2, .pop, .push 3, .push 4]) := by
  obtain ⟨q, hrun, h⟩ := ringQueue_isBoundedFifo_iff (Vector.replicate 3 0)
    [.push 1, .push 2, .pop, .push 3, .push 4]
  exact ⟨q, hrun, h.mpr fun _ => by decide⟩

/-- When the last place of the buffer has been written, the newest value is not found. -/
theorem not_ringQueue_isBoundedFifo :
    ∃ q : RingQueue ℕ 3, run [.push 1, .push 2, .push 3] (init (Vector.replicate 3 0)) = some q ∧
      q.back = none ∧ ¬ q.IsBoundedFifo (liveEntries 3 [.push 1, .push 2, .push 3]) := by
  refine ⟨⟨0, 0, 3, #v[1, 2, 3]⟩, rfl, rfl, fun h => ?_⟩
  exact absurd (h.back (by decide)) (by decide)

end RingQueue

end NaoSoccer
