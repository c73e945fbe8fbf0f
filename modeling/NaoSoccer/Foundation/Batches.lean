import Mathlib.Data.Set.Card

/-!
# Events counted in batches

A counter goes up by one at an event and is set back to zero at a flush, which reports it.  An event
of the step of a flush still belongs to it.  So an event is reported by the first flush that is not
before it, and it is pending until then.
-/

namespace Batches

variable {event flush : ℕ → Prop}

/-- The counter before step `n`. -/
def count (event flush : ℕ → Prop) [DecidablePred event] [DecidablePred flush] : ℕ → ℕ
  | 0 => 0
  | n + 1 => if flush n then 0 else count event flush n + if event n then 1 else 0

/-- The event of step `j` is still in the counter before step `n`. -/
def Pending (event flush : ℕ → Prop) (j n : ℕ) : Prop :=
  event j ∧ j < n ∧ ∀ m, j ≤ m → m < n → ¬ flush m

/-- The event of step `j` is reported by the flush of step `k`. -/
def ReportedAt (event flush : ℕ → Prop) (j k : ℕ) : Prop :=
  event j ∧ j ≤ k ∧ flush k ∧ ∀ m, j ≤ m → m < k → ¬ flush m

/-- The events that are in the counter when the step `n` ends with no flush. -/
def upTo (event flush : ℕ → Prop) (n : ℕ) : Set ℕ :=
  {j | event j ∧ j ≤ n ∧ ∀ m, j ≤ m → m < n → ¬ flush m}

lemma finite_pending (event flush : ℕ → Prop) (n : ℕ) : {j | Pending event flush j n}.Finite :=
  (Finset.range n).finite_toSet.subset fun _ hj => Finset.mem_coe.mpr (Finset.mem_range.mpr hj.2.1)

lemma pending_zero (event flush : ℕ → Prop) : {j | Pending event flush j 0} = ∅ := by
  apply Set.eq_empty_of_forall_notMem
  intro j hj
  exact absurd hj.2.1 (Nat.not_lt_zero j)

lemma pending_succ_of_flush {n : ℕ} (h : flush n) : {j | Pending event flush j (n + 1)} = ∅ := by
  apply Set.eq_empty_of_forall_notMem
  intro j hj
  exact hj.2.2 n (Nat.lt_succ_iff.mp hj.2.1) (Nat.lt_succ_self n) h

lemma pending_succ_of_not_flush {n : ℕ} (h : ¬ flush n) :
    {j | Pending event flush j (n + 1)} = upTo event flush n := by
  ext j
  constructor
  · intro hj
    exact ⟨hj.1, Nat.lt_succ_iff.mp hj.2.1, fun m hjm hm => hj.2.2 m hjm (Nat.lt_succ_of_lt hm)⟩
  · intro hj
    refine ⟨hj.1, Nat.lt_succ_iff.mpr hj.2.1, fun m hjm hm => ?_⟩
    rcases Nat.lt_succ_iff_lt_or_eq.mp hm with hm | rfl
    · exact hj.2.2 m hjm hm
    · exact h

lemma upTo_of_event {n : ℕ} (h : event n) :
    upTo event flush n = insert n {j | Pending event flush j n} := by
  ext j
  rw [Set.mem_insert_iff]
  constructor
  · intro hj
    rcases Nat.lt_or_eq_of_le hj.2.1 with hlt | heq
    · exact .inr ⟨hj.1, hlt, hj.2.2⟩
    · exact .inl heq
  · rintro (rfl | hj)
    · exact ⟨h, le_refl j, fun m hjm hm => absurd hjm (Nat.not_le.mpr hm)⟩
    · exact ⟨hj.1, hj.2.1.le, hj.2.2⟩

lemma upTo_of_not_event {n : ℕ} (h : ¬ event n) :
    upTo event flush n = {j | Pending event flush j n} := by
  ext j
  constructor
  · intro hj
    refine ⟨hj.1, lt_of_le_of_ne hj.2.1 ?_, hj.2.2⟩
    rintro rfl
    exact h hj.1
  · exact fun hj => ⟨hj.1, hj.2.1.le, hj.2.2⟩

lemma reportedAt_eq_upTo {n : ℕ} (h : flush n) :
    {j | ReportedAt event flush j n} = upTo event flush n := by
  ext j
  exact ⟨fun hj => ⟨hj.1, hj.2.1, hj.2.2.2⟩, fun hj => ⟨hj.1, hj.2.1, h, hj.2.2⟩⟩

section Counter

variable [DecidablePred event]

lemma ncard_upTo (n : ℕ) :
    (upTo event flush n).ncard =
      {j | Pending event flush j n}.ncard + if event n then 1 else 0 := by
  by_cases h : event n
  · have hnotMem : n ∉ {j | Pending event flush j n} := fun hn => absurd hn.2.1 (lt_irrefl n)
    rw [upTo_of_event h, if_pos h, Set.ncard_insert_of_notMem hnotMem (finite_pending _ _ n)]
  · rw [upTo_of_not_event h, if_neg h, add_zero]

variable [DecidablePred flush]

/-- The counter is the number of pending events. -/
theorem count_eq_ncard (n : ℕ) :
    count event flush n = {j | Pending event flush j n}.ncard := by
  induction n with
  | zero => rw [pending_zero, Set.ncard_empty, count]
  | succ n ih =>
    rw [count]
    split
    case isTrue h => rw [pending_succ_of_flush h, Set.ncard_empty]
    case isFalse h => rw [pending_succ_of_not_flush h, ncard_upTo, ih]

/-- A flush reports the number of its events. -/
theorem ncard_reportedAt {n : ℕ} (h : flush n) :
    {j | ReportedAt event flush j n}.ncard = count event flush n + if event n then 1 else 0 := by
  rw [reportedAt_eq_upTo h, ncard_upTo, count_eq_ncard]

/-- The counter is not zero while it holds an event. -/
lemma count_add_pos {j n : ℕ} (hj : event j) (hjn : j ≤ n)
    (hflush : ∀ m, j ≤ m → m < n → ¬ flush m) :
    0 < count event flush n + if event n then 1 else 0 := by
  rcases Nat.lt_or_eq_of_le hjn with hlt | rfl
  · rw [count_eq_ncard]
    exact Nat.add_pos_left ((Set.ncard_pos (finite_pending _ _ n)).mpr ⟨j, hj, hlt, hflush⟩) _
  · rw [if_pos hj]
    exact Nat.succ_pos _

end Counter

/-- Two flushes do not report the same event. -/
lemma ReportedAt.unique {j k k' : ℕ} (h : ReportedAt event flush j k)
    (h' : ReportedAt event flush j k') : k = k' := by
  rcases Nat.lt_trichotomy k k' with hlt | heq | hlt
  · exact absurd h.2.2.1 (h'.2.2.2 k h.2.1 hlt)
  · exact heq
  · exact absurd h'.2.2.1 (h.2.2.2 k' h'.2.1 hlt)

/-- The first flush that is not before an event reports it. -/
lemma exists_reportedAt {j k : ℕ} (hj : event j) (hjk : j ≤ k) (hk : flush k) :
    ∃ l ≤ k, ReportedAt event flush j l := by
  classical
  have hex : ∃ l, j ≤ l ∧ flush l := ⟨k, hjk, hk⟩
  refine ⟨Nat.find hex, Nat.find_min' hex ⟨hjk, hk⟩, hj, (Nat.find_spec hex).1,
    (Nat.find_spec hex).2, ?_⟩
  intro m hjm hm hflush
  exact Nat.find_min hex hm ⟨hjm, hflush⟩

/-- Before step `n`, an event is pending or reported by exactly one flush. -/
theorem pending_or_reportedAt {j n : ℕ} (hj : event j) (hjn : j < n) :
    (Pending event flush j n ∧ ∀ k < n, ¬ ReportedAt event flush j k) ∨
      ¬ Pending event flush j n ∧ ∃! k, k < n ∧ ReportedAt event flush j k := by
  by_cases hflush : ∃ m, j ≤ m ∧ m < n ∧ flush m
  · right
    obtain ⟨m, hjm, hmn, hm⟩ := hflush
    obtain ⟨k, hkm, hk⟩ := exists_reportedAt hj hjm hm
    refine ⟨fun hpending => hpending.2.2 m hjm hmn hm, k, ⟨hkm.trans_lt hmn, hk⟩, ?_⟩
    intro k' hk'
    exact hk'.2.unique hk
  · left
    refine ⟨⟨hj, hjn, fun m hjm hmn hm => hflush ⟨m, hjm, hmn, hm⟩⟩, ?_⟩
    intro k hkn hk
    exact hflush ⟨k, hk.2.1, hkn, hk.2.2.1⟩

/-- Two events are reported apart exactly if a flush comes between them. -/
theorem reportedAt_apart_iff {i j : ℕ} (hi : event i) (hj : event j) (hij : i ≤ j) :
    (∃ k, ReportedAt event flush i k ∧ ¬ ReportedAt event flush j k) ↔
      ∃ k, i ≤ k ∧ k < j ∧ flush k := by
  constructor
  · rintro ⟨k, hk, hnot⟩
    refine ⟨k, hk.2.1, ?_, hk.2.2.1⟩
    by_contra hjk
    exact hnot ⟨hj, not_lt.mp hjk, hk.2.2.1, fun m hjm hm => hk.2.2.2 m (hij.trans hjm) hm⟩
  · rintro ⟨k, hik, hkj, hk⟩
    obtain ⟨l, hlk, hl⟩ := exists_reportedAt hi hik hk
    exact ⟨l, hl, fun hjl => absurd (hjl.2.1.trans hlk) (not_le.mpr hkj)⟩

end Batches
