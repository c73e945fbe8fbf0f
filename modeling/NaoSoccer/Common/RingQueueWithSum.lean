import NaoSoccer.Common.RingQueue
import Mathlib.Algebra.BigOperators.Group.List.Basic
import Mathlib.Algebra.Order.Ring.Int

/-!
# The ring queue with a sum

`RingQueueWithSum<V, n>` is a ring queue that carries the sum of its entries along: `push` adds the
new value and subtracts the one that it overwrites, `pop` subtracts the one that it removes.

Without the sum, it is a `RingQueue`, so it is enough to follow the sum next to what the buffer of
that queue holds.
-/

namespace NaoSoccer

open CyclicStorage

/-- `RingQueueWithSum<V, n>` -/
structure RingQueueWithSum (V : Type*) (n : ℕ) extends RingQueue V n where
  sum : V

namespace RingQueueWithSum

open RingQueue (incrementIndex wrapIndex queueStep liveEntries pushes)

variable {V : Type*} [AddCommGroup V] {n : ℕ}

/-- `RingQueueWithSum::init` -/
def init (buffer : Vector V n) : RingQueueWithSum V n := ⟨⟨0, 0, 0, buffer⟩, 0⟩

/-- The first statement of `RingQueueWithSum::push`: a full queue loses its oldest entry. -/
def dropOldest (q : RingQueueWithSum V n) : Option (RingQueueWithSum V n) :=
  if q.numberOfEntries = n then
    (q.read q.frontIndex).map fun oldest =>
      { q with
        numberOfEntries := n - 1
        sum := q.sum - oldest
        frontIndex := incrementIndex n q.frontIndex }
  else some q

/-- The other statements of `RingQueueWithSum::push`. -/
def append (v : V) (q : RingQueueWithSum V n) : Option (RingQueueWithSum V n) :=
  if h : q.backIndex < n then
    some { q with
      sum := q.sum + v
      buffer := q.buffer.set q.backIndex v h
      backIndex := incrementIndex n q.backIndex
      numberOfEntries := q.numberOfEntries + 1 }
  else none

/-- `RingQueueWithSum::push` -/
def push (v : V) (q : RingQueueWithSum V n) : Option (RingQueueWithSum V n) :=
  q.dropOldest.bind (append v)

/-- `RingQueueWithSum::pop` -/
def pop (q : RingQueueWithSum V n) : Option (V × RingQueueWithSum V n) :=
  if q.numberOfEntries ≤ 0 then (q.read 0).map fun v => (v, q)
  else (q.read q.frontIndex).map fun v =>
    (v, { q with
      sum := q.sum - v
      frontIndex := incrementIndex n q.frontIndex
      numberOfEntries := q.numberOfEntries - 1 })

/-- `RingQueueWithSum::getEntry` -/
def getEntry [NeZero n] (i : ℕ) (q : RingQueueWithSum V n) : Option V :=
  if q.frontIndex + i < 2 ^ 31 then q.read (wrapIndex n (q.frontIndex + i)) else none

/-- `RingQueueWithSum::getSum` -/
def getSum (q : RingQueueWithSum V n) : V := q.sum

/-- `RingQueueWithSum::getAverage`, where `/` divides a value of `V` by an `int`. -/
def getAverage [HDiv V ℤ V] (q : RingQueueWithSum V n) : V :=
  if q.numberOfEntries = 0 then 0 else q.sum / (q.numberOfEntries : ℤ)

/-- One call. -/
def step : RingQueueAct V → RingQueueWithSum V n → Option (RingQueueWithSum V n)
  | .push v, q => q.push v
  | .pop, q => q.pop.map Prod.snd

/-- A sequence of calls. -/
def run : List (RingQueueAct V) → RingQueueWithSum V n → Option (RingQueueWithSum V n)
  | [], q => some q
  | act :: acts, q => (q.step act).bind (run acts)

/-- **The queue keeps its sum**: it answers for these entries. -/
structure KeepsSum [NeZero n] [HDiv V ℤ V] (q : RingQueueWithSum V n) (entries : List V) :
    Prop where
  getSum : q.getSum = entries.sum
  getEntry : ∀ i < entries.length, q.getEntry i = entries[i]?
  getAverage : q.getAverage =
    if entries = [] then 0 else entries.sum / (entries.length : ℤ)

/-! ## The invariant -/

/-- The buffer holds the entries, and the sum is theirs. -/
structure Represents (q : RingQueueWithSum V n) (entries : List V) (pushed : ℕ) : Prop where
  buffer : q.toRingQueue.Represents entries pushed
  sum : q.sum = entries.sum

variable [NeZero n] {q : RingQueueWithSum V n} {entries : List V} {pushed : ℕ}

omit [NeZero n] in
/-- An empty queue. -/
lemma represents_init (buffer : Vector V n) : (init buffer).Represents [] 0 :=
  ⟨RingQueue.represents_init buffer, List.sum_nil.symm⟩

namespace Represents

/-- The oldest entry is read at the first index, and the sum of the others is what is left without
it. -/
lemma oldest (h : q.Represents entries pushed) (hne : entries ≠ []) :
    ∃ oldest, q.read q.frontIndex = some oldest ∧ q.sum - oldest = entries.tail.sum := by
  obtain ⟨oldest, rest, rfl⟩ := List.exists_cons_of_ne_nil hne
  have hfront : q.read q.frontIndex = some oldest := h.buffer.front_eq hne
  refine ⟨oldest, hfront, ?_⟩
  rw [h.sum, List.sum_cons, List.tail_cons, add_sub_cancel_left]

/-- A full queue loses its oldest entry, so that there is a place for a new one. -/
lemma dropOldest (h : q.Represents entries pushed) (v : V) :
    ∃ q' kept, q.dropOldest = some q' ∧ q'.Represents kept pushed ∧ kept.length < n ∧
      kept ++ [v] = keepLast n (entries ++ [v]) := by
  have hn := Nat.pos_of_neZero n
  by_cases hfull : q.numberOfEntries = n
  · have hlength : entries.length = n := h.buffer.numberOfEntries.symm.trans hfull
    have hne : entries ≠ [] := by
      rintro rfl
      exact absurd hlength (Nat.ne_of_lt hn)
    obtain ⟨oldest, hread, hsum⟩ := h.oldest hne
    have hdrop := h.buffer.dropFront hne
    rw [hlength] at hdrop
    refine ⟨{ q with
      numberOfEntries := n - 1
      sum := q.sum - oldest
      frontIndex := incrementIndex n q.frontIndex }, entries.tail, ?_, ⟨hdrop, hsum⟩, ?_, ?_⟩
    · rw [RingQueueWithSum.dropOldest, if_pos hfull, hread]
      rfl
    · rw [List.length_tail]
      omega
    · rw [keepLast_concat_of_length_eq hn hlength v]
  · have hle := h.buffer.length_le
    rw [h.buffer.numberOfEntries] at hfull
    have hshort : entries.length < n := by omega
    refine ⟨q, entries, ?_, h, hshort, ?_⟩
    · rw [RingQueueWithSum.dropOldest, h.buffer.numberOfEntries, if_neg hfull]
    · rw [keepLast_of_length_le (by rwa [List.length_append, List.length_singleton])]

/-- A new entry is added to the buffer and to the sum. -/
lemma append (h : q.Represents entries pushed) (hlength : entries.length < n) (v : V) :
    ∃ q', q.append v = some q' ∧ q'.Represents (entries ++ [v]) (pushed + 1) := by
  have hback := h.buffer.backIndex_lt
  refine ⟨_, dif_pos hback, h.buffer.write hlength v hback, ?_⟩
  show q.sum + v = _
  rw [h.sum, List.sum_append, List.sum_singleton]

/-- **The step lemma**: every call changes the sum as it changes the entries. -/
lemma step (h : q.Represents entries pushed) (act : RingQueueAct V) :
    ∃ q', q.step act = some q' ∧
      q'.Represents (queueStep n entries act) (pushed + pushes [act]) := by
  cases act with
  | push v =>
    obtain ⟨q₁, kept, hdrop, h₁, hlength, hkept⟩ := h.dropOldest v
    obtain ⟨q', happend, h'⟩ := h₁.append hlength v
    rw [hkept] at h'
    refine ⟨q', ?_, h'⟩
    rw [RingQueueWithSum.step, push, hdrop]
    exact happend
  | pop =>
    cases hentries : entries with
    | nil =>
      subst hentries
      have hzero : q.numberOfEntries ≤ 0 := Nat.le_of_eq h.buffer.numberOfEntries
      have hn := Nat.pos_of_neZero n
      have hread : q.read 0 = some q.buffer[0] := by
        rw [RingQueue.read, if_pos (le_refl 0)]
        exact Vector.getElem?_eq_getElem hn
      refine ⟨q, ?_, h⟩
      rw [RingQueueWithSum.step, pop, if_pos hzero, hread]
      rfl
    | cons v rest =>
      rw [← hentries]
      have hne : entries ≠ [] := hentries ▸ List.cons_ne_nil v rest
      have hpos : ¬ q.numberOfEntries ≤ 0 := by
        rw [h.buffer.numberOfEntries]
        exact Nat.not_le.mpr (List.length_pos_iff.mpr hne)
      obtain ⟨oldest, hread, hsum⟩ := h.oldest hne
      have hdrop := h.buffer.dropFront hne
      rw [← h.buffer.numberOfEntries] at hdrop
      refine ⟨{ q with
        sum := q.sum - oldest
        frontIndex := incrementIndex n q.frontIndex
        numberOfEntries := q.numberOfEntries - 1 }, ?_, hdrop, hsum⟩
      rw [RingQueueWithSum.step, pop, if_neg hpos, hread]
      rfl

/-- **The run lemma**: after any calls the buffer and the sum are those of the entries. -/
lemma run (h : q.Represents entries pushed) (acts : List (RingQueueAct V)) :
    ∃ q', RingQueueWithSum.run acts q = some q' ∧
      q'.Represents (acts.foldl (queueStep n) entries) (pushed + pushes acts) := by
  induction acts generalizing q entries pushed with
  | nil => exact ⟨q, rfl, h⟩
  | cons act acts ih =>
    obtain ⟨q₁, hstep, h₁⟩ := h.step act
    obtain ⟨q', hrun, h'⟩ := ih h₁
    refine ⟨q', ?_, ?_⟩
    · rw [RingQueueWithSum.run, hstep]
      exact hrun
    · have hpushes : pushes (act :: acts) = pushes [act] + pushes acts := by
        show List.countP _ ([act] ++ acts) = _
        exact List.countP_append
      rw [hpushes, ← Nat.add_assoc]
      exact h'

/-- An entry is found where the sum of indices is an `int`. -/
lemma getEntry_eq (h : q.Represents entries pushed) {i : ℕ} (hi : i < entries.length) :
    q.getEntry i = if q.frontIndex + i < 2 ^ 31 then entries[i]? else none :=
  h.buffer.getEntry_eq hi

omit [NeZero n] in
/-- The average is that of the entries. -/
lemma getAverage_eq [HDiv V ℤ V] (h : q.Represents entries pushed) :
    q.getAverage = if entries = [] then 0 else entries.sum / (entries.length : ℤ) := by
  rw [getAverage, h.buffer.numberOfEntries, h.sum]
  exact if_congr List.length_eq_zero_iff rfl rfl

/-- **The queue keeps its sum** exactly if it is empty or the indices of all entries can be
added. -/
lemma keepsSum_iff [HDiv V ℤ V] (h : q.Represents entries pushed) :
    q.KeepsSum entries ↔ (entries ≠ [] → q.frontIndex + entries.length ≤ 2 ^ 31) := by
  constructor
  · intro hkeeps hne
    have hpos : 0 < entries.length := List.length_pos_iff.mpr hne
    have hlast : entries.length - 1 < entries.length := Nat.sub_lt hpos Nat.one_pos
    by_contra hlarge
    have hentry := hkeeps.getEntry _ hlast
    rw [h.getEntry_eq hlast, if_neg (by omega), List.getElem?_eq_getElem hlast] at hentry
    exact absurd hentry (by simp)
  · intro hcond
    refine ⟨h.sum, fun i hi => ?_, h.getAverage_eq⟩
    have hne : entries ≠ [] := by
      rintro rfl
      exact absurd hi (Nat.not_lt_zero i)
    have hsum := hcond hne
    rw [h.getEntry_eq hi, if_pos (by omega)]

end Represents

/-- **The queue keeps its sum exactly while the indices of its entries can be added**: no call
leaves the buffer, the sum and the average are those of the live entries, and `getEntry` finds each
of them unless `frontIndex + i` is more than an `int` holds.  If `n` is at most `2 ^ 30`, it always
fits. -/
theorem ringQueueWithSum_keepsSum_iff [HDiv V ℤ V] (buffer : Vector V n)
    (acts : List (RingQueueAct V)) :
    ∃ q, run acts (init buffer) = some q ∧
      (q.KeepsSum (liveEntries n acts) ↔
        (liveEntries n acts ≠ [] →
          (pushes acts - (liveEntries n acts).length) % n + (liveEntries n acts).length ≤
            2 ^ 31)) := by
  obtain ⟨q, hrun, h⟩ := (represents_init buffer).run acts
  rw [Nat.zero_add] at h
  change q.Represents (liveEntries n acts) (pushes acts) at h
  refine ⟨q, hrun, ?_⟩
  rw [h.keepsSum_iff, h.buffer.frontIndex]

/-- Four values in two places, one of them removed. -/
theorem ringQueueWithSum_keepsSum_four :
    ∃ q : RingQueueWithSum ℤ 2,
      run [.push 1, .push 2, .pop, .push 3, .push 4] (init (Vector.replicate 2 0)) = some q ∧
      q.KeepsSum (liveEntries 2 [.push 1, .push 2, .pop, .push 3, .push 4]) := by
  obtain ⟨q, hrun, h⟩ := ringQueueWithSum_keepsSum_iff (Vector.replicate 2 (0 : ℤ))
    [.push 1, .push 2, .pop, .push 3, .push 4]
  exact ⟨q, hrun, h.mpr fun _ => by decide⟩

/-! ## A queue that fills more than half of the `int` range -/

omit [AddCommGroup V] [NeZero n] in
/-- One value that is pushed again and again takes every place. -/
lemma foldl_queueStep_replicate (v : V) (k m : ℕ) (hm : m ≤ n) :
    (List.replicate k (RingQueueAct.push v)).foldl (queueStep n) (List.replicate m v) =
      List.replicate (min n (m + k)) v := by
  induction k generalizing m with
  | zero => rw [Nat.add_zero, Nat.min_eq_right hm, List.replicate_zero, List.foldl_nil]
  | succ k ih =>
    have hstep : queueStep n (List.replicate m v) (.push v) =
        List.replicate (min n (m + 1)) v := by
      rw [queueStep, ← List.replicate_succ', keepLast, List.drop_replicate, List.length_replicate]
      congr 1
      omega
    rw [List.replicate_succ, List.foldl_cons, hstep, ih _ (Nat.min_le_left _ _)]
    congr 1
    omega

/-- **Above `2 ^ 30` places the last entry can be lost**: after `2 * n - 1` pushes the first index is
`n - 1`, and added to the index of the newest entry it is more than an `int` holds. -/
lemma not_keepsSum_replicate [HDiv V ℤ V] (hn : 2 ^ 30 < n) (buffer : Vector V n) (v : V) :
    ∃ q, run (List.replicate (2 * n - 1) (.push v)) (init buffer) = some q ∧
      ¬ q.KeepsSum (liveEntries n (List.replicate (2 * n - 1) (.push v))) := by
  have hlive : liveEntries n (List.replicate (2 * n - 1) (.push v)) = List.replicate n v := by
    have hfold := foldl_queueStep_replicate (n := n) v (2 * n - 1) 0 (Nat.zero_le n)
    rw [liveEntries, ← List.replicate_zero, hfold]
    congr 1
    omega
  have hpushes : pushes (List.replicate (2 * n - 1) (RingQueueAct.push v)) = 2 * n - 1 := by
    rw [pushes, List.countP_replicate, if_pos rfl]
  obtain ⟨q, hrun, h⟩ := (represents_init buffer).run (List.replicate (2 * n - 1) (.push v))
  rw [Nat.zero_add] at h
  change q.Represents (liveEntries n _) (pushes _) at h
  refine ⟨q, hrun, ?_⟩
  have hfront := h.buffer.frontIndex
  rw [hlive, hpushes, List.length_replicate, Nat.mod_eq_of_lt (by omega)] at hfront
  rw [h.keepsSum_iff, hlive, List.length_replicate, hfront]
  intro hfits
  have hne : List.replicate n v ≠ [] := by
    rw [Ne, List.replicate_eq_nil_iff]
    omega
  have hle := hfits hne
  omega

/-- A buffer of `2 ^ 30 + 1` places. -/
theorem not_ringQueueWithSum_keepsSum :
    ∃ q : RingQueueWithSum ℤ 1073741825,
      run (List.replicate (2 * 1073741825 - 1) (.push 1)) (init (Vector.replicate 1073741825 0)) =
        some q ∧
      ¬ q.KeepsSum
        (liveEntries 1073741825 (List.replicate (2 * 1073741825 - 1) (.push (1 : ℤ)))) := by
  have hlarge : 2 ^ 30 < 1073741825 := by decide
  exact not_keepsSum_replicate hlarge (Vector.replicate 1073741825 0) 1

end RingQueueWithSum

end NaoSoccer
