import NaoSoccer.Core.OppMerging
import NaoSoccer.Foundation.DescendingLoop
import NaoSoccer.Foundation.NarrowLoop
import Mathlib.Algebra.Order.Archimedean.Basic
import Mathlib.Tactic.NormNum

/-!
# The merge loop of the opponent filter

`OppModule::MergeModels` merges models whose metric is below a threshold, in passes over all pairs
of slots.  It ends when few enough models are active, and until then it raises the threshold by a
fixed step for each pass.

Every merge makes one active model of two, with a new state that may be anything, so nothing is
known about the metrics after it.  But a pass without a merge leaves the models as they are, and a
threshold that grows comes above the metric of any two of them.  A metric that is no number, because
a variance or a sum of alphas is zero, is an error.
-/

namespace NaoSoccer

open Outcome DescendingLoop

/-- How the loop can go wrong: a metric that is no finite number, or not enough passes. -/
inductive MergeFault
  | notFinite
  | stillMerging
  deriving DecidableEq, Repr

/-- A new state for the first of two models: its alpha, state and root of the covariance. -/
structure MergedState (K : Type) where
  alpha : K
  stateEstimates : NMatrix K 4 1
  stateStandardDeviations : NMatrix K 4 4

namespace FilterModels

variable {K : Type} [Field K] [LinearOrder K]

/-- `OppModule::getNumActiveModels` -/
def getNumActiveModels (models : FilterModels K) : ℕ :=
  (List.finRange cMaxModels).countP fun k => (models k).isActive

/-- `OppModule::MergeMetric` -/
def mergeMetric (index1 index2 : Fin cMaxModels) (models : FilterModels K) : Option K :=
  if index1 = index2 then some 10000
  else if !(models index1).isActive || !(models index2).isActive then some 10000
  else do
    let xdif := (models index1).stateEstimates.sub (models index2).stateEstimates
    let p1 := (models index1).stateStandardDeviations.mul
      (models index1).stateStandardDeviations.transp
    let p2 := (models index2).stateStandardDeviations.mul
      (models index2).stateStandardDeviations.transp
    let dij ← (List.range 4).foldlM (fun dij i => do
      return dij + (← divide (xdif.entry i 0 * xdif.entry i 0) (p1.entry i i + p2.entry i i))) 0
    let weight ← divide ((models index1).alpha * (models index2).alpha)
      ((models index1).alpha + (models index2).alpha)
    return dij * weight

variable (merged : FilterModels K → Fin cMaxModels → Fin cMaxModels → MergedState K)

/-- `MergeTwoModels(i, j)`, with any new state. -/
def mergeInto (models : FilterModels K) (i j : Fin cMaxModels) : FilterModels K :=
  models.replaceTwo i j (merged models i j).alpha (merged models i j).stateEstimates
    (merged models i j).stateStandardDeviations

/-- A visit of a pair of slots in `OppModule::MergeModelsBelowThreshold`. -/
def visitPair (threshold : K) (models : FilterModels K) (i j : Fin cMaxModels) :
    Except MergeFault (FilterModels K) :=
  if i < j && (models i).isActive && (models j).isActive then
    match models.mergeMetric i j with
    | none => .error .notFinite
    | some mergeM => if |mergeM| < threshold then .ok (models.mergeInto merged i j) else .ok models
  else .ok models

/-- `OppModule::MergeModelsBelowThreshold` -/
def mergeModelsBelowThreshold (threshold : K) (models : FilterModels K) :
    Except MergeFault (FilterModels K) :=
  (List.finRange cMaxModels).foldlM (fun models i =>
    (List.finRange cMaxModels).foldlM (fun models j => models.visitPair merged threshold i j)
      models) models

/-- The loop of `OppModule::MergeModels`, with as many passes as it may make. -/
def mergeLoop (maxAfterMerge : ℤ) : ℕ → K → FilterModels K → Except MergeFault (FilterModels K)
  | passes, threshold, models =>
    if models.getNumActiveModels > maxAfterMerge then
      match passes with
      | 0 => .error .stillMerging
      | passes + 1 => do
        let models ← models.mergeModelsBelowThreshold merged threshold
        mergeLoop maxAfterMerge passes (threshold + 5 / 100) models
    else .ok models

/-- `OppModule::MergeModels` -/
def mergeModels (maxAfterMerge : ℤ) (passes : ℕ) (models : FilterModels K) :
    Except MergeFault (FilterModels K) :=
  if maxAfterMerge ≤ 1 then .ok models
  else do
    let models ← models.mergeModelsBelowThreshold merged (1 / 1000)
    let models ← models.mergeModelsBelowThreshold merged (1 / 100)
    models.mergeLoop merged maxAfterMerge passes (5 / 100)

end FilterModels

/-! ## What a merge does -/

section Merge

variable {K : Type} {models : FilterModels K} {i j : Fin cMaxModels}

/-- Which models are active after two of them have been replaced by one. -/
lemma FilterModels.isActive_replaceTwo (alpha : K) (x : NMatrix K 4 1) (sMerged : NMatrix K 4 4)
    (k : Fin cMaxModels) :
    (models.replaceTwo i j alpha x sMerged k).isActive = ((models k).isActive && k ≠ j) := by
  rw [FilterModels.replaceTwo_apply]
  by_cases hj : k = j
  · rw [if_pos hj]
    simp [hj]
  · rw [if_neg hj]
    by_cases hi : k = i
    · rw [if_pos hi]
      simp [hi, hi ▸ hj]
    · rw [if_neg hi]
      simp [hj]

/-- A merge makes one active model of two. -/
lemma FilterModels.getNumActiveModels_replaceTwo (hj : (models j).isActive = true) (alpha : K)
    (x : NMatrix K 4 1) (sMerged : NMatrix K 4 4) :
    (models.replaceTwo i j alpha x sMerged).getNumActiveModels + 1 = models.getNumActiveModels := by
  unfold FilterModels.getNumActiveModels
  simp only [FilterModels.isActive_replaceTwo]
  have hmem := List.mem_finRange j
  have hpos : 0 < (List.finRange cMaxModels).countP fun k => (models k).isActive :=
    List.countP_pos_iff.mpr ⟨j, hmem, hj⟩
  have herase := List.countP_erase (fun k => (models k).isActive) (List.finRange cMaxModels) j
  rw [(List.nodup_finRange _).erase_eq_filter, List.countP_filter, if_pos ⟨hmem, hj⟩] at herase
  have hsame : (List.finRange cMaxModels).countP (fun k => (models k).isActive && k ≠ j) =
      (List.finRange cMaxModels).countP fun k => (models k).isActive && k != j :=
    List.countP_congr fun k _ => by simp
  omega

variable [Field K] [LinearOrder K]
  {merged : FilterModels K → Fin cMaxModels → Fin cMaxModels → MergedState K} {threshold : K}

/-- **What a visit does**: nothing, or it merges two active models. -/
lemma FilterModels.visitPair_cases {models' : FilterModels K}
    (h : models.visitPair merged threshold i j = .ok models') :
    models' = models ∨ i < j ∧ (models i).isActive = true ∧ (models j).isActive = true ∧
      models' = models.mergeInto merged i j := by
  unfold FilterModels.visitPair at h
  split at h
  · next hactive =>
    simp only [Bool.and_eq_true, decide_eq_true_eq] at hactive
    split at h
    · exact absurd h (by simp)
    · split at h
      · exact Or.inr ⟨hactive.1.1, hactive.1.2, hactive.2, (Except.ok.inj h).symm⟩
      · exact Or.inl (Except.ok.inj h).symm
  · exact Or.inl (Except.ok.inj h).symm

/-- A visit leaves the models as they are or lowers the number of active ones. -/
lemma FilterModels.visitPair_descends {models' : FilterModels K}
    (h : models.visitPair merged threshold i j = .ok models') :
    models' = models ∨ models'.getNumActiveModels < models.getNumActiveModels := by
  rcases FilterModels.visitPair_cases h with heq | ⟨hij, -, hj, rfl⟩
  · exact Or.inl heq
  · have hless := FilterModels.getNumActiveModels_replaceTwo (i := i) hj (merged models i j).alpha
      (merged models i j).stateEstimates (merged models i j).stateStandardDeviations
    exact Or.inr (Nat.lt_of_succ_le hless.le)

/-- A visit that leaves two active models as they are has a metric that is not below the
threshold. -/
lemma FilterModels.exists_mergeMetric_of_visitPair (hij : i < j) (hi : (models i).isActive = true)
    (hj : (models j).isActive = true) (h : models.visitPair merged threshold i j = .ok models) :
    ∃ mergeM, models.mergeMetric i j = some mergeM ∧ threshold ≤ |mergeM| := by
  unfold FilterModels.visitPair at h
  rw [if_pos (by rw [hi, hj, decide_eq_true hij]; rfl)] at h
  split at h
  · exact absurd h (by simp)
  · next mergeM hmetric =>
    refine ⟨mergeM, hmetric, le_of_not_gt fun hless => ?_⟩
    rw [if_pos hless] at h
    have hnum := FilterModels.getNumActiveModels_replaceTwo (i := i) hj (merged models i j).alpha
      (merged models i j).stateEstimates (merged models i j).stateStandardDeviations
    rw [show models.replaceTwo i j _ _ _ = models from Except.ok.inj h] at hnum
    exact Nat.succ_ne_self _ hnum

/-- **A pass that does not lower the number** of active models has left all pairs as they are. -/
lemma FilterModels.mergeModelsBelowThreshold_descends {models' : FilterModels K}
    (h : models.mergeModelsBelowThreshold merged threshold = .ok models') :
    (models' = models ∧ ∀ i j, models.visitPair merged threshold i j = .ok models) ∨
      models'.getNumActiveModels < models.getNumActiveModels := by
  have hrow (models models' : FilterModels K) (i : Fin cMaxModels)
      (h : (List.finRange cMaxModels).foldlM
        (fun models j => models.visitPair merged threshold i j) models = .ok models') :
      (models' = models ∧ ∀ j ∈ List.finRange cMaxModels,
        models.visitPair merged threshold i j = .ok models) ∨
        models'.getNumActiveModels < models.getNumActiveModels :=
    foldlM_descends (fun _ _ _ => FilterModels.visitPair_descends) h
  rcases foldlM_descends (fun models i models' h => (hrow models models' i h).imp_left And.left) h
    with ⟨rfl, hall⟩ | hless
  · refine Or.inl ⟨rfl, fun i j => ?_⟩
    rcases hrow _ _ i (hall i (List.mem_finRange i)) with ⟨-, hvisit⟩ | hless
    · exact hvisit j (List.mem_finRange j)
    · exact absurd hless (lt_irrefl _)
  · exact Or.inr hless

/-- A pass activates no model. -/
lemma FilterModels.mergeModelsBelowThreshold_inactive {models' : FilterModels K} {k : Fin cMaxModels}
    (h : models.mergeModelsBelowThreshold merged threshold = .ok models')
    (hk : (models k).isActive = false) : (models' k).isActive = false := by
  let inactive (models : FilterModels K) : Prop := (models k).isActive = false
  refine foldlM_preserves (I := inactive) (fun models i models' hrow => ?_) h hk
  refine foldlM_preserves (I := inactive) (fun models j models' hvisit hk => ?_) hrow
  rcases FilterModels.visitPair_cases hvisit with rfl | ⟨-, -, -, rfl⟩
  · exact hk
  · refine (FilterModels.isActive_replaceTwo _ _ _ k).trans ?_
    rw [show (models k).isActive = false from hk, Bool.false_and]

/-- A pass fails only over a metric that is not finite. -/
lemma FilterModels.mergeModelsBelowThreshold_error {e : MergeFault}
    (h : models.mergeModelsBelowThreshold merged threshold = .error e) : e = .notFinite := by
  obtain ⟨t, i, hrow⟩ := exists_error_of_foldlM h
  obtain ⟨t, j, hvisit⟩ := exists_error_of_foldlM hrow
  unfold FilterModels.visitPair at hvisit
  split at hvisit
  · split at hvisit
    · exact (Except.error.inj hvisit).symm
    · split at hvisit <;> exact absurd hvisit (by simp)
  · exact absurd hvisit (by simp)

end Merge

/-! ## The loop -/

/-- A list in which two entries have a property. -/
lemma exists_lt_of_two_le_countP {α : Type} {p : α → Bool} {as : List α} (h : 2 ≤ as.countP p) :
    ∃ i j, ∃ (hi : i < as.length) (hj : j < as.length), i < j ∧ p as[i] = true ∧ p as[j] = true := by
  induction as with
  | nil => exact absurd h (by simp)
  | cons a as ih =>
    rw [List.countP_cons] at h
    by_cases ha : p a = true
    · rw [if_pos ha] at h
      obtain ⟨b, hb, hpb⟩ := List.countP_pos_iff.mp (Nat.le_of_succ_le_succ h)
      obtain ⟨j, hj, rfl⟩ := List.getElem_of_mem hb
      exact ⟨0, j + 1, Nat.succ_pos _, Nat.succ_lt_succ hj, Nat.succ_pos j, ha, hpb⟩
    · rw [if_neg ha] at h
      obtain ⟨i, j, hi, hj, hij, hpi, hpj⟩ := ih h
      exact ⟨i + 1, j + 1, Nat.succ_lt_succ hi, Nat.succ_lt_succ hj, Nat.succ_lt_succ hij, hpi, hpj⟩

/-- Two slots whose models are active. -/
lemma FilterModels.exists_active_pair {K : Type} {models : FilterModels K}
    (h : 2 ≤ models.getNumActiveModels) :
    ∃ i j : Fin cMaxModels, i < j ∧ (models i).isActive = true ∧ (models j).isActive = true := by
  obtain ⟨i, j, hi, hj, hij, hpi, hpj⟩ := exists_lt_of_two_le_countP h
  refine ⟨_, _, ?_, hpi, hpj⟩
  rw [List.getElem_finRange, List.getElem_finRange]
  exact hij

section Loop

variable {K : Type} [Field K] [LinearOrder K]
  (merged : FilterModels K → Fin cMaxModels → Fin cMaxModels → MergedState K) (maxAfterMerge : ℤ)

/-- The loop goes on. -/
def TooMany (s : K × FilterModels K) : Prop := maxAfterMerge < s.2.getNumActiveModels

instance : DecidablePred (TooMany (K := K) maxAfterMerge) :=
  fun _ => inferInstanceAs (Decidable (_ < _))

/-- A pass of the loop, with the threshold for the next one. -/
def mergePass (s : K × FilterModels K) : Except MergeFault (K × FilterModels K) :=
  s.2.mergeModelsBelowThreshold merged s.1 >>= fun models => .ok (s.1 + 5 / 100, models)

/-- The threshold is raised. -/
def raise (s : K × FilterModels K) : K × FilterModels K := (s.1 + 5 / 100, s.2)

variable {merged} {maxAfterMerge} {models : FilterModels K}

/-- The loop in passes. -/
lemma mergeLoop_eq (passes : ℕ) (threshold : K) (models : FilterModels K) :
    models.mergeLoop merged maxAfterMerge passes threshold =
      iterate (TooMany maxAfterMerge) (mergePass merged) passes (threshold, models) >>= fun s =>
        if TooMany maxAfterMerge s then .error .stillMerging else .ok s.2 := by
  induction passes generalizing threshold models with
  | zero =>
    unfold FilterModels.mergeLoop iterate
    rw [ok_bind]
    rfl
  | succ passes ih =>
    unfold FilterModels.mergeLoop iterate
    by_cases hmany : (models.getNumActiveModels : ℤ) > maxAfterMerge
    · rw [if_pos hmany, if_pos (show TooMany maxAfterMerge (threshold, models) from hmany)]
      simp only [ih]
      unfold mergePass
      rw [bind_assoc, bind_assoc]
      rfl
    · have hfew : ¬ TooMany maxAfterMerge (threshold, models) := hmany
      rw [if_neg hmany, if_neg hfew, ok_bind, if_neg hfew]

/-- The loop ends in models that can be kept. -/
lemma mergeLoop_eq_ok {k passes : ℕ} {threshold : K} {s : K × FilterModels K}
    (h : iterate (TooMany maxAfterMerge) (mergePass merged) k (threshold, models) = .ok s)
    (hdone : ¬ TooMany maxAfterMerge s) (hpasses : k ≤ passes) :
    models.mergeLoop merged maxAfterMerge passes threshold = .ok s.2 := by
  obtain ⟨more, rfl⟩ := Nat.exists_eq_add_of_le hpasses
  rw [mergeLoop_eq, iterate_add, h, ok_bind, iterate_of_not hdone, ok_bind, if_neg hdone]

/-- A loop that never meets a metric that is not finite does not fail. -/
lemma neverFails_mergePass {threshold : K}
    (h : ∀ passes, models.mergeLoop merged maxAfterMerge passes threshold ≠ .error .notFinite) :
    NeverFails (TooMany maxAfterMerge) (mergePass merged) (threshold, models) := by
  intro k
  cases hk : iterate (TooMany maxAfterMerge) (mergePass merged) k (threshold, models) with
  | ok s => exact ⟨s, rfl⟩
  | error e =>
    obtain ⟨t, ht⟩ := exists_error_of_iterate hk
    have hpass : t.2.mergeModelsBelowThreshold merged t.1 = .error e := by
      unfold mergePass at ht
      cases hbelow : t.2.mergeModelsBelowThreshold merged t.1 with
      | error e' => rw [hbelow, error_bind] at ht; exact congrArg _ (Except.error.inj ht)
      | ok models' => rw [hbelow, ok_bind] at ht; exact absurd ht (by simp)
    obtain rfl := FilterModels.mergeModelsBelowThreshold_error hpass
    refine absurd ?_ (h k)
    rw [mergeLoop_eq, hk, error_bind]

/-- A pass raises the threshold, or it lowers the number of active models. -/
lemma mergePass_cases {s s' : K × FilterModels K} (h : mergePass merged s = .ok s') :
    (s' = raise s ∧ ∀ i j, s.2.visitPair merged s.1 i j = .ok s.2) ∨
      s'.2.getNumActiveModels < s.2.getNumActiveModels := by
  obtain ⟨models', hbelow, heq⟩ := bind_eq_ok_iff.mp h
  obtain rfl := Except.ok.inj heq
  rcases FilterModels.mergeModelsBelowThreshold_descends hbelow with ⟨rfl, hall⟩ | hless
  · exact Or.inl ⟨rfl, hall⟩
  · exact Or.inr hless

omit [LinearOrder K] in
/-- The threshold after it has been raised a number of times. -/
lemma iterate_raise (n : ℕ) (s : K × FilterModels K) : raise^[n] s = (s.1 + n * (5 / 100), s.2) := by
  induction n generalizing s with
  | zero => simp
  | succ n ih =>
    rw [Function.iterate_succ_apply, ih]
    unfold raise
    push_cast
    refine Prod.ext ?_ rfl
    ring

/-- **The number of active models drops** after some passes: the threshold comes above the metric of
any two of them. -/
lemma exists_mergePass_drop [IsStrictOrderedRing K] [Archimedean K] (hmax : 1 ≤ maxAfterMerge)
    {s : K × FilterModels K} (hs : TooMany maxAfterMerge s)
    (hsafe : NeverFails (TooMany maxAfterMerge) (mergePass merged) s) :
    ∃ k s', iterate (TooMany maxAfterMerge) (mergePass merged) k s = .ok s' ∧
      s'.2.getNumActiveModels < s.2.getNumActiveModels := by
  have htwo : 2 ≤ s.2.getNumActiveModels := by
    have hs' : maxAfterMerge < s.2.getNumActiveModels := hs
    omega
  obtain ⟨i, j, hij, hi, hj⟩ := FilterModels.exists_active_pair htwo
  -- a threshold above the metric of these two, if there is a metric
  have hforced : ∃ n : ℕ, ∀ s', mergePass merged (raise^[n] s) = .ok s' →
      s'.2.getNumActiveModels < s.2.getNumActiveModels := by
    obtain ⟨n, hn⟩ := exists_nat_gt ((((s.2.mergeMetric i j).elim 0 abs) - s.1) / (5 / 100 : K))
    refine ⟨n, fun s' hs' => ?_⟩
    rw [iterate_raise] at hs'
    rcases mergePass_cases hs' with ⟨-, hall⟩ | hless
    · obtain ⟨mergeM, hmetric, hle⟩ :=
        FilterModels.exists_mergeMetric_of_visitPair hij hi hj (hall i j)
      rw [hmetric, Option.elim_some, div_lt_iff₀ (by norm_num), sub_lt_iff_lt_add'] at hn
      exact absurd hle (not_le.mpr hn)
    · exact hless
  obtain ⟨n, hn⟩ := hforced
  exact exists_drop (fun s : K × FilterModels K => s.2.getNumActiveModels) raise
    (fun _ => rfl) (fun _ h => h) (fun s s' h => (mergePass_cases h).imp_left And.left) hs hsafe hn

end Loop

/-! ## The bound -/

section Bound

variable {K : Type} [Field K] [LinearOrder K] [IsStrictOrderedRing K] [Archimedean K]
  {merged : FilterModels K → Fin cMaxModels → Fin cMaxModels → MergedState K} {maxAfterMerge : ℤ}

omit [IsStrictOrderedRing K] [Archimedean K] in
/-- The call when models may be merged. -/
lemma mergeModels_of_two_le (hmax : 2 ≤ maxAfterMerge) (passes : ℕ) (models : FilterModels K) :
    models.mergeModels merged maxAfterMerge passes =
      models.mergeModelsBelowThreshold merged (1 / 1000) >>= fun models =>
        models.mergeModelsBelowThreshold merged (1 / 100) >>= fun models =>
          models.mergeLoop merged maxAfterMerge passes (5 / 100) :=
  if_neg (by omega)

/-- **The loop ends**, if it never meets a metric that is not finite. -/
lemma exists_mergeLoop_eq_ok {models : FilterModels K} {threshold : K} (hmax : 1 ≤ maxAfterMerge)
    (hfinite : ∀ passes,
      models.mergeLoop merged maxAfterMerge passes threshold ≠ .error .notFinite) :
    ∃ enough result, (∀ passes, enough ≤ passes →
        models.mergeLoop merged maxAfterMerge passes threshold = .ok result) ∧
      result.getNumActiveModels ≤ maxAfterMerge ∧
      ∀ k : Fin cMaxModels, (models k).isActive = false → (result k).isActive = false := by
  obtain ⟨enough, s, hs, hdone⟩ := exists_iterate_stops
    (fun s : K × FilterModels K => s.2.getNumActiveModels)
    (fun s hgo hsafe => exists_mergePass_drop hmax hgo hsafe) (neverFails_mergePass hfinite)
  refine ⟨enough, s.2, fun passes hpasses => mergeLoop_eq_ok hs hdone hpasses, not_lt.mp hdone,
    fun k hk => ?_⟩
  refine iterate_preserves (I := fun s : K × FilterModels K => (s.2 k).isActive = false)
    (fun s s' hpass hk => ?_) hs hk
  obtain ⟨models', hbelow, heq⟩ := bind_eq_ok_iff.mp hpass
  obtain rfl := Except.ok.inj heq
  exact FilterModels.mergeModelsBelowThreshold_inactive hbelow hk

/-- **`MergeModels` ends**, with no more models than it should leave, and none that was not active
before, if it never meets a metric that is not finite. -/
theorem mergeModels_ends (models : FilterModels K) (hmax : 2 ≤ maxAfterMerge)
    (hfinite : ∀ passes, models.mergeModels merged maxAfterMerge passes ≠ .error .notFinite) :
    ∃ enough result, (∀ passes, enough ≤ passes →
        models.mergeModels merged maxAfterMerge passes = .ok result) ∧
      result.getNumActiveModels ≤ maxAfterMerge ∧
      ∀ k : Fin cMaxModels, (models k).isActive = false → (result k).isActive = false := by
  simp only [mergeModels_of_two_le hmax] at hfinite ⊢
  cases hfirst : models.mergeModelsBelowThreshold merged (1 / 1000) with
  | error e =>
    obtain rfl := FilterModels.mergeModelsBelowThreshold_error hfirst
    rw [hfirst] at hfinite
    exact absurd rfl (hfinite 0)
  | ok models₁ =>
    rw [hfirst] at hfinite
    simp only [ok_bind] at hfinite ⊢
    cases hsecond : models₁.mergeModelsBelowThreshold merged (1 / 100) with
    | error e =>
      obtain rfl := FilterModels.mergeModelsBelowThreshold_error hsecond
      rw [hsecond] at hfinite
      exact absurd rfl (hfinite 0)
    | ok models₂ =>
      rw [hsecond] at hfinite
      simp only [ok_bind] at hfinite ⊢
      obtain ⟨enough, result, hloop, hnum, hinactive⟩ :=
        exists_mergeLoop_eq_ok (Int.le_of_lt hmax) hfinite
      refine ⟨enough, result, hloop, hnum, fun k hk => hinactive k ?_⟩
      exact FilterModels.mergeModelsBelowThreshold_inactive hsecond
        (FilterModels.mergeModelsBelowThreshold_inactive hfirst hk)

end Bound

/-! ## The slots -/

section Slots

variable {K : Type}

/-- The slots of the models. -/
def FilterModels.slots (models : FilterModels K) : Models := Vector.ofFn fun k => (models k).toUKF4

/-- The flags in a slot. -/
lemma FilterModels.getElem_slots (models : FilterModels K) {k : ℕ} (hk : k < cMaxModels) :
    models.slots[k] = (models ⟨k, hk⟩).toUKF4 := Vector.getElem_ofFn hk

/-- The number of active models is that of the slots. -/
lemma FilterModels.getNumActiveModels_slots (models : FilterModels K) :
    models.slots.getNumActiveModels = models.getNumActiveModels := by
  unfold Models.getNumActiveModels FilterModels.slots FilterModels.getNumActiveModels
  rw [Vector.toList_ofFn, List.ofFn_eq_map, List.countP_map]
  rfl

/-- In the slots, a merge switches the second model off. -/
lemma FilterModels.slots_replaceTwo (models : FilterModels K) (i j : Fin cMaxModels) (alpha : K)
    (x : NMatrix K 4 1) (sMerged : NMatrix K 4 4) :
    (models.replaceTwo i j alpha x sMerged).slots = Models.mergeTwoModels j models.slots := by
  refine Vector.ext fun k hk => ?_
  unfold Models.mergeTwoModels
  rw [FilterModels.getElem_slots _ hk, FilterModels.replaceTwo_apply, Vector.getElem_set,
    FilterModels.getElem_slots _ hk]
  by_cases hj : (⟨k, hk⟩ : Fin cMaxModels) = j
  · rw [if_pos hj, if_pos (congrArg Fin.val hj.symm)]
  · rw [if_neg hj, if_neg (show ¬ (j : ℕ) = k from fun heq => hj (Fin.ext heq.symm))]
    split
    · next hi => rw [hi]
    · rfl

variable [Field K] [LinearOrder K] {models models' : FilterModels K}
  {merged : FilterModels K → Fin cMaxModels → Fin cMaxModels → MergedState K}

/-- `MergeTwoModels` of two slots is a merge with some new state. -/
lemma exists_mergeInto_of_mergeTwoModels {s : ExactSqrt K} {i j : Fin cMaxModels} (hij : i ≠ j)
    {success : Bool} (h : models.mergeTwoModels s i j = some (models', success)) :
    ∃ merged : FilterModels K → Fin cMaxModels → Fin cMaxModels → MergedState K,
      models' = models.mergeInto merged i j := by
  unfold FilterModels.mergeTwoModels at h
  rw [if_neg hij] at h
  simp only [Option.bind_eq_bind, Option.bind_eq_some_iff, Option.pure_def, Option.some_inj,
    Prod.mk.injEq] at h
  obtain ⟨alpha1, -, alpha2, -, sMerged, -, rfl, -⟩ := h
  exact ⟨fun _ _ _ => ⟨_, _, sMerged⟩, rfl⟩

/-- A visit, as the slots see it. -/
lemma exists_slots_visitPair {threshold : K} {i j : Fin cMaxModels}
    (h : models.visitPair merged threshold i j = .ok models') :
    ∃ close : Bool, models'.slots =
      if i < j && (models i).isActive && (models j).isActive && close then
        Models.mergeTwoModels j models.slots
      else models.slots := by
  rcases FilterModels.visitPair_cases h with rfl | ⟨hij, hi, hj, rfl⟩
  · exact ⟨false, by rw [Bool.and_false]; rfl⟩
  · refine ⟨true, ?_⟩
    rw [hi, hj, decide_eq_true hij]
    exact models.slots_replaceTwo i j _ _ _

/-- A pass over the pairs, as the slots see it. -/
lemma exists_slots_mergeModelsBelowThreshold {threshold : K}
    (h : models.mergeModelsBelowThreshold merged threshold = .ok models') :
    ∃ close, models'.slots = models.slots.mergeModelsBelowThreshold close := by
  have hrow (i : Fin cMaxModels) (models models' : FilterModels K)
      (h : (List.finRange cMaxModels).foldlM
        (fun models j => models.visitPair merged threshold i j) models = .ok models') :=
    exists_foldl_of_foldlM FilterModels.slots
      (fun (close : Bool) (models : Models) (j : Fin cMaxModels) =>
        if i < j && models[i].isActive && models[j].isActive && close then
          Models.mergeTwoModels j models
        else models)
      (fun models j models' hvisit => by
        obtain ⟨close, hclose⟩ := exists_slots_visitPair hvisit
        refine ⟨close, ?_⟩
        rw [Fin.getElem_fin, Fin.getElem_fin, FilterModels.getElem_slots _ i.isLt,
          FilterModels.getElem_slots _ j.isLt]
        exact hclose) (List.nodup_finRange _) h
  exact exists_foldl_of_foldlM FilterModels.slots
    (fun (close : Fin cMaxModels → Bool) (models : Models) (i : Fin cMaxModels) =>
      (List.finRange cMaxModels).foldl (fun models j =>
        if i < j && models[i].isActive && models[j].isActive && close j then
          Models.mergeTwoModels j models
        else models) models)
    (fun models i models' => hrow i models models') (List.nodup_finRange _) h

/-- The loop, as the slots see it. -/
lemma exists_slots_mergeLoop {maxAfterMerge : ℤ} {passes : ℕ} {threshold : K}
    (h : models.mergeLoop merged maxAfterMerge passes threshold = .ok models') :
    ∃ closes, models.slots.mergeLoop maxAfterMerge closes = .ok models'.slots := by
  induction passes generalizing threshold models with
  | zero =>
    unfold FilterModels.mergeLoop at h
    rw [ite_error_eq_ok_iff] at h
    obtain ⟨hfew, heq⟩ := h
    obtain rfl := Except.ok.inj heq
    refine ⟨[], ?_⟩
    unfold Models.mergeLoop
    rw [FilterModels.getNumActiveModels_slots, if_neg hfew]
  | succ passes ih =>
    unfold FilterModels.mergeLoop at h
    split at h
    · next hmany =>
      obtain ⟨models₁, hpass, hrest⟩ := bind_eq_ok_iff.mp h
      obtain ⟨close, hclose⟩ := exists_slots_mergeModelsBelowThreshold hpass
      obtain ⟨closes, hcloses⟩ := ih hrest
      refine ⟨close :: closes, ?_⟩
      unfold Models.mergeLoop
      rw [hclose] at hcloses
      rw [FilterModels.getNumActiveModels_slots, if_pos hmany]
      exact hcloses
    · next hfew =>
      obtain rfl := Except.ok.inj h
      refine ⟨[], ?_⟩
      unfold Models.mergeLoop
      rw [FilterModels.getNumActiveModels_slots, if_neg hfew]

/-- **The slots follow the models**: what `MergeModels` does to the models it does to their slots,
for some outcomes of the comparisons. -/
theorem exists_slots_mergeModels {maxAfterMerge : ℤ} {passes : ℕ}
    (h : models.mergeModels merged maxAfterMerge passes = .ok models') :
    ∃ comparisons, models.slots.mergeModels maxAfterMerge comparisons = .ok models'.slots := by
  unfold FilterModels.mergeModels at h
  unfold Models.mergeModels
  split at h
  · next hsmall =>
    obtain rfl := Except.ok.inj h
    exact ⟨⟨fun _ _ => false, fun _ _ => false, []⟩, if_pos hsmall⟩
  · next hlarge =>
    obtain ⟨models₁, hfirst, h⟩ := bind_eq_ok_iff.mp h
    obtain ⟨models₂, hsecond, h⟩ := bind_eq_ok_iff.mp h
    obtain ⟨first, hfirst⟩ := exists_slots_mergeModelsBelowThreshold hfirst
    obtain ⟨second, hsecond⟩ := exists_slots_mergeModelsBelowThreshold hsecond
    obtain ⟨closes, hcloses⟩ := exists_slots_mergeLoop h
    refine ⟨⟨first, second, closes⟩, ?_⟩
    rw [if_neg hlarge]
    dsimp only
    rw [← hfirst, ← hsecond]
    exact hcloses

end Slots

/-! ## Metrics that are finite -/

section Finite

variable {K : Type} [Field K] [LinearOrder K] [IsStrictOrderedRing K]
  {merged : FilterModels K → Fin cMaxModels → Fin cMaxModels → MergedState K}

/-- A model with a positive alpha and positive variances. -/
def Proper (alpha : K) (sMerged : NMatrix K 4 4) : Prop :=
  0 < alpha ∧ ∀ k < 4, 0 < TriangularFactor.gram 4 sMerged.entry k k

omit [IsStrictOrderedRing K] in
/-- A sum of quotients whose divisors are not zero. -/
lemma exists_foldlM_divide (a b : ℕ → K) {ks : List ℕ} (h : ∀ k ∈ ks, b k ≠ 0) (dij : K) :
    ∃ d, ks.foldlM (fun dij k => do return dij + (← divide (a k) (b k))) dij = some d := by
  induction ks generalizing dij with
  | nil => exact ⟨dij, rfl⟩
  | cons k ks ih =>
    obtain ⟨hk, hks⟩ := List.forall_mem_cons.mp h
    rw [List.foldlM_cons, NMatrix.divide_of_ne _ hk]
    exact ih hks _

/-- The metric of two such models is finite. -/
lemma exists_mergeMetric {models : FilterModels K} {i j : Fin cMaxModels}
    (hi : Proper (models i).alpha (models i).stateStandardDeviations)
    (hj : Proper (models j).alpha (models j).stateStandardDeviations) :
    ∃ mergeM, models.mergeMetric i j = some mergeM := by
  unfold FilterModels.mergeMetric
  split
  · exact ⟨_, rfl⟩
  split
  · exact ⟨_, rfl⟩
  have hvariance (k : ℕ) (hk : k < 4) :
      ((models i).stateStandardDeviations.mul (models i).stateStandardDeviations.transp).entry k k +
        ((models j).stateStandardDeviations.mul (models j).stateStandardDeviations.transp).entry k k ≠
        0 := by
    rw [NMatrix.mul_transp_entry, NMatrix.mul_transp_entry]
    exact (add_pos (hi.2 k hk) (hj.2 k hk)).ne'
  have halpha : (models i).alpha + (models j).alpha ≠ 0 := (add_pos hi.1 hj.1).ne'
  obtain ⟨dij, hdij⟩ := exists_foldlM_divide
    (fun k => ((models i).stateEstimates.sub (models j).stateEstimates).entry k 0 *
      ((models i).stateEstimates.sub (models j).stateEstimates).entry k 0) _
    (fun k hk => hvariance k (List.mem_range.mp hk)) 0
  dsimp only
  rw [hdij, NMatrix.divide_of_ne _ halpha]
  exact ⟨_, rfl⟩

/-- All models have positive alphas and variances. -/
def AllProper (models : FilterModels K) : Prop :=
  ∀ k : Fin cMaxModels, Proper (models k).alpha (models k).stateStandardDeviations

omit [IsStrictOrderedRing K] in
/-- Merges to such models leave such models. -/
lemma AllProper.mergeInto {models : FilterModels K} (h : AllProper models) {i j : Fin cMaxModels}
    (hmerged : Proper (merged models i j).alpha (merged models i j).stateStandardDeviations) :
    AllProper (models.mergeInto merged i j) := by
  intro k
  unfold FilterModels.mergeInto
  rw [FilterModels.replaceTwo_apply]
  split
  · exact h j
  split
  · exact hmerged
  · exact h k

variable (hmerged : ∀ models i j,
  Proper (merged models i j).alpha (merged models i j).stateStandardDeviations)

include hmerged

/-- A pass over such models does not fail and leaves such models. -/
lemma AllProper.exists_mergeModelsBelowThreshold {models : FilterModels K} (h : AllProper models)
    (threshold : K) :
    ∃ models', models.mergeModelsBelowThreshold merged threshold = .ok models' ∧
      AllProper models' := by
  refine NarrowLoop.exists_foldlM_eq_ok _ _ AllProper (fun i _ models h => ?_) h
  refine NarrowLoop.exists_foldlM_eq_ok _ _ AllProper (fun j _ models h => ?_) h
  obtain ⟨mergeM, hmetric⟩ := exists_mergeMetric (h i) (h j)
  unfold FilterModels.visitPair
  split
  · rw [hmetric]
    dsimp only
    split
    · exact ⟨_, rfl, h.mergeInto (hmerged models i j)⟩
    · exact ⟨_, rfl, h⟩
  · exact ⟨_, rfl, h⟩

/-- **No metric is infinite** if alphas and variances are positive and merges keep them so. -/
theorem AllProper.mergeModels_ne_notFinite {models : FilterModels K} (h : AllProper models)
    (maxAfterMerge : ℤ) (passes : ℕ) :
    models.mergeModels merged maxAfterMerge passes ≠ .error .notFinite := by
  have hloop (passes : ℕ) (threshold : K) (models : FilterModels K) (h : AllProper models) :
      models.mergeLoop merged maxAfterMerge passes threshold ≠ .error .notFinite := by
    induction passes generalizing threshold models with
    | zero =>
      unfold FilterModels.mergeLoop
      split <;> simp
    | succ passes ih =>
      unfold FilterModels.mergeLoop
      obtain ⟨models', hpass, h'⟩ := h.exists_mergeModelsBelowThreshold hmerged threshold
      split
      · dsimp only
        rw [hpass, ok_bind]
        exact ih _ models' h'
      · simp
  unfold FilterModels.mergeModels
  obtain ⟨models₁, hfirst, h₁⟩ := h.exists_mergeModelsBelowThreshold hmerged (1 / 1000)
  obtain ⟨models₂, hsecond, h₂⟩ := h₁.exists_mergeModelsBelowThreshold hmerged (1 / 100)
  split
  · simp
  · rw [hfirst, ok_bind, hsecond, ok_bind]
    exact hloop passes _ models₂ h₂

omit hmerged

/-- The identity has positive variances. -/
lemma proper_modelAt (x : K) :
    Proper (modelAt (1 : K) x).alpha (modelAt (1 : K) x).stateStandardDeviations := by
  refine ⟨one_pos, fun k hk => ?_⟩
  unfold TriangularFactor.gram modelAt
  simp [hk]

/-- The models of the example are such models. -/
lemma allProper_twoModels : AllProper (twoModels (1 : K)) := by
  intro k
  unfold twoModels
  rw [Function.update_apply]
  split
  · exact proper_modelAt 3
  · exact proper_modelAt 0

/-- The estimate of a model as the new state of a merge. -/
def UKF4Filter.mergedState {K : Type} (model : UKF4Filter K) : MergedState K :=
  ⟨model.alpha, model.stateEstimates, model.stateStandardDeviations⟩

end Finite

/-- All models of the example are merged until two are left at most. -/
theorem mergeModels_ends_twoModels :
    ∃ enough result, (∀ passes, enough ≤ passes →
        (twoModels (1 : ℚ)).mergeModels (fun _ _ _ => (modelAt 1 0).mergedState) 2 passes =
          .ok result) ∧
      (result.getNumActiveModels : ℤ) ≤ 2 ∧
      ∀ k : Fin cMaxModels, (twoModels (1 : ℚ) k).isActive = false → (result k).isActive = false :=
  mergeModels_ends (twoModels 1) (by decide) fun passes =>
    AllProper.mergeModels_ne_notFinite (fun _ _ _ => proper_modelAt 0) allProper_twoModels 2 passes

end NaoSoccer
