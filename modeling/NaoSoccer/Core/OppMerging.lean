import NaoSoccer.Common.NMatrix
import NaoSoccer.Core.OppModule
import Mathlib.Analysis.Real.Sqrt
import Mathlib.Tactic.FieldSimp

/-!
# Merging two opponent models

`OppModule::MergeTwoModels` puts the estimate of two models into the first and switches the second
off.  If neither is ten times as likely as the other, the new state is meant to be the mean of the
two with the weights of their alphas, and the new covariance that of the mixture about this mean.

The state is calculated with the weight of the first model for both, so it is the mean only if the
weights are equal or the state of the second model is zero.  And the root of the covariance divides
by zero if in the first three components there is a direction that has no variance in either model
and in which the two states do not differ.
-/

namespace NaoSoccer

open TriangularFactor

/-- A `UKF4` with its estimate. -/
structure UKF4Filter (K : Type) extends UKF4 where
  alpha : K
  stateEstimates : NMatrix K 4 1
  stateStandardDeviations : NMatrix K 4 4

/-- `OppModule::models` with their estimates -/
abbrev FilterModels (K : Type) := Fin cMaxModels → UKF4Filter K

section Slots

variable {K : Type}

/-- The estimate in the first model and the second model switched off. -/
def FilterModels.replaceTwo (models : FilterModels K) (index1 index2 : Fin cMaxModels) (alpha : K)
    (x : NMatrix K 4 1) (sMerged : NMatrix K 4 4) : FilterModels K :=
  Function.update (Function.update models index1 { models index1 with
    alpha := alpha, stateEstimates := x, stateStandardDeviations := sMerged }) index2
      { models index2 with isActive := false, toBeActivated := false }

variable {models : FilterModels K} {i j : Fin cMaxModels}

/-- The models after two of them have been replaced by one. -/
lemma FilterModels.replaceTwo_apply (alpha : K) (x : NMatrix K 4 1) (sMerged : NMatrix K 4 4)
    (k : Fin cMaxModels) :
    models.replaceTwo i j alpha x sMerged k =
      if k = j then { models j with isActive := false, toBeActivated := false }
      else if k = i then
        { models i with alpha := alpha, stateEstimates := x, stateStandardDeviations := sMerged }
      else models k := by
  unfold FilterModels.replaceTwo
  rw [Function.update_apply, Function.update_apply]

/-- The first of the two models afterwards. -/
lemma FilterModels.replaceTwo_self (models : FilterModels K) (hij : i ≠ j) (alpha : K)
    (x : NMatrix K 4 1) (sMerged : NMatrix K 4 4) :
    models.replaceTwo i j alpha x sMerged i =
      { models i with alpha := alpha, stateEstimates := x, stateStandardDeviations := sMerged } := by
  rw [FilterModels.replaceTwo_apply, if_neg hij, if_pos rfl]

end Slots

section Code

variable {K : Type} [Field K] [LinearOrder K] (s : ExactSqrt K)

/-- `stateStandardDeviations * stateStandardDeviations.transp() + xDiff * xDiff.transp()` -/
def UKF4Filter.spread (model : UKF4Filter K) (xMerged : NMatrix K 4 1) : NMatrix K 4 4 :=
  let xDiff := model.stateEstimates.sub xMerged
  (model.stateStandardDeviations.mul model.stateStandardDeviations.transp).add
    (xDiff.mul xDiff.transp)

/-- `xMerged` -/
def xMerged (model1 model2 : UKF4Filter K) (alpha1 : K) : NMatrix K 4 1 :=
  if model1.alpha > 10 * model2.alpha then model1.stateEstimates
  else if model2.alpha > 10 * model1.alpha then model2.stateEstimates
  -- the second weight is that of the first model
  else (NMatrix.smul alpha1 model1.stateEstimates).add (NMatrix.smul alpha1 model2.stateEstimates)

/-- `alpha1 * p1 + alpha2 * p2` -/
def pMerged (model1 model2 : UKF4Filter K) (alpha1 alpha2 : K) : NMatrix K 4 4 :=
  let x := xMerged model1 model2 alpha1
  (NMatrix.smul alpha1 (model1.spread x)).add (NMatrix.smul alpha2 (model2.spread x))

/-- `OppModule::MergeTwoModels` -/
def FilterModels.mergeTwoModels (index1 index2 : Fin cMaxModels) (models : FilterModels K) :
    Option (FilterModels K × Bool) :=
  if index1 = index2 then some (models, false)
  else do
    let alphaMerged := (models index1).alpha + (models index2).alpha
    let alpha1 ← divide (models index1).alpha alphaMerged
    let alpha2 ← divide (models index2).alpha alphaMerged
    let x := xMerged (models index1) (models index2) alpha1
    let sMerged ← NMatrix.cholesky s (pMerged (models index1) (models index2) alpha1 alpha2)
    return (models.replaceTwo index1 index2 alphaMerged x sMerged, true)

end Code

/-! ## The mixture of two models -/

section Mixture

variable {K : Type} [Field K]

/-- The components of the state. -/
def UKF4Filter.state (model : UKF4Filter K) (k : ℕ) : K := model.stateEstimates.entry k 0

/-- The mean of the states, weighted with the alphas. -/
def weightedMean (model1 model2 : UKF4Filter K) (k : ℕ) : K :=
  model1.alpha / (model1.alpha + model2.alpha) * model1.state k +
    model2.alpha / (model1.alpha + model2.alpha) * model2.state k

/-- The covariance of a model about a point. -/
def UKF4Filter.covarianceAbout (model : UKF4Filter K) (z : ℕ → K) (r c : ℕ) : K :=
  gram 4 model.stateStandardDeviations.entry r c + (model.state r - z r) * (model.state c - z c)

/-- The covariance of the mixture of two models about their mean. -/
def weightedCovariance (model1 model2 : UKF4Filter K) (r c : ℕ) : K :=
  model1.alpha / (model1.alpha + model2.alpha) *
      model1.covarianceAbout (weightedMean model1 model2) r c +
    model2.alpha / (model1.alpha + model2.alpha) *
      model2.covarianceAbout (weightedMean model1 model2) r c

/-- The first model has the mixture of the two, and no other model but the second is changed. -/
structure MergesWeighted [LinearOrder K] (models models' : FilterModels K)
    (index1 index2 : Fin cMaxModels) : Prop where
  alpha : (models' index1).alpha = (models index1).alpha + (models index2).alpha
  mean : ∀ k < 4, (models' index1).state k = weightedMean (models index1) (models index2) k
  between : ∀ k < 4,
    min ((models index1).state k) ((models index2).state k) ≤ (models' index1).state k ∧
      (models' index1).state k ≤ max ((models index1).state k) ((models index2).state k)
  covariance : ∀ r < 4, ∀ c < 4, gram 4 (models' index1).stateStandardDeviations.entry r c =
    weightedCovariance (models index1) (models index2) r c
  others : ∀ k, k ≠ index1 → k ≠ index2 → (models' k) = (models k)

/-- In the first three components there is no direction that has no variance in either model and in
which the states do not differ. -/
def NoFlatDirection (model1 model2 : UKF4Filter K) : Prop :=
  ∀ v : ℕ → K, (∀ c < 4, comb 3 v model1.stateStandardDeviations.entry c = 0) →
    (∀ c < 4, comb 3 v model2.stateStandardDeviations.entry c = 0) →
    comb 3 v (fun r _ => model1.state r - model2.state r) 0 = 0 → ∀ r < 3, v r = 0

/-- Columns whose products of rows are the covariance of the mixture, from roots of the weights. -/
def mixtureColumns (model1 model2 : UKF4Filter K) (w1 w2 : K) : ℕ → ℕ → K :=
  beside 4 (scaled w1 model1.stateStandardDeviations.entry)
    (beside 4 (scaled w2 model2.stateStandardDeviations.entry)
      (scaled (w1 * w2) fun r _ => model1.state r - model2.state r))

variable {model1 model2 : UKF4Filter K} {w1 w2 : K}

/-- **The covariance of the mixture** is a matrix of products of rows. -/
lemma gram_mixtureColumns (hsum : model1.alpha + model2.alpha ≠ 0)
    (h1 : w1 * w1 = model1.alpha / (model1.alpha + model2.alpha))
    (h2 : w2 * w2 = model2.alpha / (model1.alpha + model2.alpha)) (r c : ℕ) :
    gram (4 + (4 + 1)) (mixtureColumns model1 model2 w1 w2) r c =
      weightedCovariance model1 model2 r c := by
  have hdiff : gram 1 (fun r _ => model1.state r - model2.state r) r c =
      (model1.state r - model2.state r) * (model1.state c - model2.state c) := by
    rw [gram, Finset.sum_range_one]
  have hprod : w1 * w2 * (w1 * w2) = model1.alpha / (model1.alpha + model2.alpha) *
      (model2.alpha / (model1.alpha + model2.alpha)) := by
    rw [mul_mul_mul_comm, h1, h2]
  unfold mixtureColumns weightedCovariance UKF4Filter.covarianceAbout weightedMean
  rw [gram_beside, gram_beside, gram_scaled, gram_scaled, gram_scaled, hdiff, hprod, h1, h2]
  field_simp
  ring

/-- There is no flat direction if the columns are independent in the first three rows. -/
lemma independent_mixtureColumns_iff (h1 : w1 ≠ 0) (h2 : w2 ≠ 0) :
    Independent (4 + (4 + 1)) 3 (mixtureColumns model1 model2 w1 w2) ↔
      NoFlatDirection model1 model2 := by
  unfold mixtureColumns Independent NoFlatDirection
  refine forall_congr' fun v => ?_
  rw [comb_beside_eq_zero_iff, comb_beside_eq_zero_iff]
  simp only [comb_scaled_eq_zero_iff h1, comb_scaled_eq_zero_iff h2,
    comb_scaled_eq_zero_iff (mul_ne_zero h1 h2), Nat.lt_one_iff, forall_eq, and_imp]

/-- The covariance of the mixture is symmetric. -/
lemma weightedCovariance_comm (r c : ℕ) :
    weightedCovariance model1 model2 r c = weightedCovariance model1 model2 c r := by
  have hcomm (model : UKF4Filter K) (z : ℕ → K) :
      model.covarianceAbout z r c = model.covarianceAbout z c r :=
    congrArg₂ (· + ·) (gram_comm 4 _ r c) (mul_comm _ _)
  unfold weightedCovariance
  rw [hcomm, hcomm model2]

variable [LinearOrder K] {s : ExactSqrt K} {models models' : FilterModels K}
  {i j : Fin cMaxModels}

/-- A call that merges. -/
lemma FilterModels.mergeTwoModels_of_ne (hij : i ≠ j)
    (hsum : (models i).alpha + (models j).alpha ≠ 0) :
    models.mergeTwoModels s i j =
      (NMatrix.cholesky s (pMerged (models i) (models j)
        ((models i).alpha / ((models i).alpha + (models j).alpha))
        ((models j).alpha / ((models i).alpha + (models j).alpha)))).map fun sMerged =>
      (models.replaceTwo i j ((models i).alpha + (models j).alpha)
        (xMerged (models i) (models j) ((models i).alpha / ((models i).alpha + (models j).alpha)))
        sMerged, true) := by
  unfold FilterModels.mergeTwoModels
  rw [if_neg hij]
  dsimp only
  rw [NMatrix.divide_of_ne _ hsum, NMatrix.divide_of_ne _ hsum, Option.map_eq_bind]
  simp only [Option.bind_eq_bind, Option.bind_some]
  rfl

/-- The state of two models of which neither is ten times as likely as the other. -/
lemma xMerged_entry (h1 : model1.alpha ≤ 10 * model2.alpha) (h2 : model2.alpha ≤ 10 * model1.alpha)
    (alpha1 : K) (k : ℕ) : (xMerged model1 model2 alpha1).entry k 0 =
      alpha1 * model1.state k + alpha1 * model2.state k := by
  unfold xMerged
  rw [if_neg (not_lt.mpr h1), if_neg (not_lt.mpr h2), mul_comm, mul_comm alpha1]
  rfl

/-- The covariance of which the root is taken. -/
lemma pMerged_entry (alpha1 alpha2 : K) (r c : ℕ) : (pMerged model1 model2 alpha1 alpha2).entry r c =
    alpha1 * model1.covarianceAbout (fun k => (xMerged model1 model2 alpha1).entry k 0) r c +
      alpha2 * model2.covarianceAbout (fun k => (xMerged model1 model2 alpha1).entry k 0) r c := by
  have hspread (model : UKF4Filter K) (x : NMatrix K 4 1) :
      (model.spread x).entry r c = model.covarianceAbout (fun k => x.entry k 0) r c := by
    unfold UKF4Filter.spread UKF4Filter.covarianceAbout
    refine congrArg₂ (· + ·) (NMatrix.mul_transp_entry _ r c) ?_
    rw [NMatrix.mul_transp_entry, gram, Finset.sum_range_one]
    rfl
  rw [← hspread, ← hspread, mul_comm, mul_comm alpha2]
  rfl

/-- If the state is the mean, then the root is that of the covariance of the mixture. -/
lemma pMerged_eq_weightedCovariance {x : NMatrix K 4 1}
    (hx : x = xMerged model1 model2 (model1.alpha / (model1.alpha + model2.alpha)))
    (hmean : ∀ k < 4, x.entry k 0 = weightedMean model1 model2 k) {r c : ℕ} (hr : r < 4)
    (hc : c < 4) :
    (pMerged model1 model2 (model1.alpha / (model1.alpha + model2.alpha))
      (model2.alpha / (model1.alpha + model2.alpha))).entry r c =
      weightedCovariance model1 model2 r c := by
  subst hx
  unfold weightedCovariance UKF4Filter.covarianceAbout
  rw [pMerged_entry, UKF4Filter.covarianceAbout, UKF4Filter.covarianceAbout, hmean r hr, hmean c hc]

variable [IsStrictOrderedRing K]

/-- **The state is the mean exactly if** the alphas are equal or the second state is zero. -/
lemma state_eq_weightedMean_iff (hpos1 : 0 < model1.alpha) (hpos2 : 0 < model2.alpha) {n : ℕ} :
    (∀ k < n, model1.alpha / (model1.alpha + model2.alpha) * model1.state k +
        model1.alpha / (model1.alpha + model2.alpha) * model2.state k =
      weightedMean model1 model2 k) ↔
    model1.alpha = model2.alpha ∨ ∀ k < n, model2.state k = 0 := by
  have hsum : model1.alpha + model2.alpha ≠ 0 := (add_pos hpos1 hpos2).ne'
  have hone (k : ℕ) : model1.alpha / (model1.alpha + model2.alpha) * model1.state k +
      model1.alpha / (model1.alpha + model2.alpha) * model2.state k =
        weightedMean model1 model2 k ↔ model1.alpha = model2.alpha ∨ model2.state k = 0 := by
    unfold weightedMean
    rw [add_right_inj, mul_eq_mul_right_iff, div_left_inj' hsum]
  simp only [hone]
  constructor
  · intro h
    by_cases heq : model1.alpha = model2.alpha
    · exact Or.inl heq
    · exact Or.inr fun k hk => (h k hk).resolve_left heq
  · rintro (heq | hzero) k hk
    · exact Or.inl heq
    · exact Or.inr (hzero k hk)

/-- The mean lies between the states. -/
lemma weightedMean_mem (hpos1 : 0 < model1.alpha) (hpos2 : 0 < model2.alpha) (k : ℕ) :
    min (model1.state k) (model2.state k) ≤ weightedMean model1 model2 k ∧
      weightedMean model1 model2 k ≤ max (model1.state k) (model2.state k) := by
  have hsum : 0 < model1.alpha + model2.alpha := add_pos hpos1 hpos2
  have hone : model1.alpha / (model1.alpha + model2.alpha) +
      model2.alpha / (model1.alpha + model2.alpha) = 1 := by
    rw [← add_div, div_self hsum.ne']
  have h1 : 0 ≤ model1.alpha / (model1.alpha + model2.alpha) := (div_pos hpos1 hsum).le
  have h2 : 0 ≤ model2.alpha / (model1.alpha + model2.alpha) := (div_pos hpos2 hsum).le
  unfold weightedMean
  constructor
  · calc min (model1.state k) (model2.state k)
        = model1.alpha / (model1.alpha + model2.alpha) * min (model1.state k) (model2.state k) +
          model2.alpha / (model1.alpha + model2.alpha) * min (model1.state k) (model2.state k) := by
          rw [← add_mul, hone, one_mul]
      _ ≤ _ := add_le_add (mul_le_mul_of_nonneg_left (min_le_left _ _) h1)
          (mul_le_mul_of_nonneg_left (min_le_right _ _) h2)
  · calc _ ≤ model1.alpha / (model1.alpha + model2.alpha) * max (model1.state k) (model2.state k) +
          model2.alpha / (model1.alpha + model2.alpha) * max (model1.state k) (model2.state k) :=
          add_le_add (mul_le_mul_of_nonneg_left (le_max_left _ _) h1)
            (mul_le_mul_of_nonneg_left (le_max_right _ _) h2)
      _ = max (model1.state k) (model2.state k) := by rw [← add_mul, hone, one_mul]

/-- **There is a root of the covariance** of the mixture exactly if there is no flat direction. -/
lemma exists_isFactor_weightedCovariance_iff (hroot : ∀ a : K, 0 ≤ a → ∃ b, 0 ≤ b ∧ b * b = a)
    (hpos1 : 0 < model1.alpha) (hpos2 : 0 < model2.alpha) :
    (∃ L, IsFactor 4 (weightedCovariance model1 model2) L) ↔ NoFlatDirection model1 model2 := by
  have hsum : 0 < model1.alpha + model2.alpha := add_pos hpos1 hpos2
  have hnonzero {a w : K} (ha : 0 < a) (hw : w * w = a) : w ≠ 0 := by
    rintro rfl
    rw [zero_mul] at hw
    exact ha.ne hw
  obtain ⟨w1, -, h1⟩ := hroot _ (div_pos hpos1 hsum).le
  obtain ⟨w2, -, h2⟩ := hroot _ (div_pos hpos2 hsum).le
  have hgram := gram_mixtureColumns hsum.ne' h1 h2
  rw [← independent_mixtureColumns_iff (hnonzero (div_pos hpos1 hsum) h1)
    (hnonzero (div_pos hpos2 hsum) h2)]
  constructor
  · rintro ⟨L, hL⟩
    exact (hL.congr fun r _ c _ => (hgram r c).symm).independent
  · intro h
    obtain ⟨L, hL⟩ := exists_isFactor (n := 4) hroot h
    exact ⟨L, hL.congr fun r _ c _ => hgram r c⟩

/-- The mean with the root of its covariance in the first model is the mixture. -/
lemma mergesWeighted_replaceTwo (hij : i ≠ j) (hi : 0 < (models i).alpha) (hj : 0 < (models j).alpha)
    {x : NMatrix K 4 1} (hmean : ∀ k < 4, x.entry k 0 = weightedMean (models i) (models j) k)
    {L : ℕ → ℕ → K} (hL : IsFactor 4 (weightedCovariance (models i) (models j)) L) :
    MergesWeighted models (models.replaceTwo i j ((models i).alpha + (models j).alpha) x ⟨L⟩) i j := by
  have hself := models.replaceTwo_self hij
    ((models i).alpha + (models j).alpha) x ⟨L⟩
  refine ⟨?_, fun k hk => ?_, fun k hk => ?_, fun r hr c hc => ?_, fun k hki hkj => ?_⟩
  · rw [hself]
  · rw [hself]
    exact hmean k hk
  · have hbetween := weightedMean_mem hi hj k
    rw [← hmean k hk] at hbetween
    rw [hself]
    exact hbetween
  · rw [hself]
    exact hL.gram_eq weightedCovariance_comm hr hc
  · rw [FilterModels.replaceTwo_apply, if_neg hkj, if_neg hki]

end Mixture

/-! ## When the merge is the mixture -/

/-- The roots of real numbers. -/
noncomputable def realSqrt : ExactSqrt ℝ where
  sqrt a := if a < 0 then none else some (Real.sqrt a)
  sqrt_eq_some_iff a b := by
    split
    · next ha =>
      refine ⟨fun h => absurd h (by simp), ?_⟩
      rintro ⟨-, rfl⟩
      exact absurd ha (not_lt.mpr (mul_self_nonneg b))
    · next ha =>
      rw [Option.some_inj]
      constructor
      · rintro rfl
        exact ⟨Real.sqrt_nonneg a, Real.mul_self_sqrt (not_lt.mp ha)⟩
      · rintro ⟨hb, rfl⟩
        exact Real.sqrt_mul_self hb

section Merging

variable {models : FilterModels ℝ} {i j : Fin cMaxModels}

/-- Two models of which neither is ten times as likely as the other are merged to their mixture. -/
def MergedToMixture (models : FilterModels ℝ) (i j : Fin cMaxModels) : Prop :=
  ∃ models', models.mergeTwoModels realSqrt i j = some (models', true) ∧
    MergesWeighted models models' i j

/-- A merge to the mixture gives the first model the mean as its state. -/
lemma MergedToMixture.mean_and_root (h : MergedToMixture models i j) (hij : i ≠ j)
    (hi : 0 < (models i).alpha) (hj : 0 < (models j).alpha) :
    (∀ k < 4, (xMerged (models i) (models j)
        ((models i).alpha / ((models i).alpha + (models j).alpha))).entry k 0 =
      weightedMean (models i) (models j) k) ∧
    ∃ L, IsFactor 4 (pMerged (models i) (models j)
      ((models i).alpha / ((models i).alpha + (models j).alpha))
      ((models j).alpha / ((models i).alpha + (models j).alpha))).entry L := by
  obtain ⟨models', hcall, hmerges⟩ := h
  rw [FilterModels.mergeTwoModels_of_ne hij (add_pos hi hj).ne', Option.map_eq_some_iff] at hcall
  obtain ⟨sMerged, hroot, heq⟩ := hcall
  obtain ⟨rfl, -⟩ := Prod.mk.inj heq
  refine ⟨fun k hk => ?_, sMerged.entry, NMatrix.cholesky_eq_some_iff.mp hroot⟩
  have hmean := hmerges.mean k hk
  rw [models.replaceTwo_self hij] at hmean
  exact hmean

/-- Only models with equal alphas, or a second one that is zero, are merged to their mixture. -/
lemma MergedToMixture.alpha_eq_or (h : MergedToMixture models i j) (hij : i ≠ j)
    (hi : 0 < (models i).alpha) (hj : 0 < (models j).alpha)
    (hi10 : (models i).alpha ≤ 10 * (models j).alpha)
    (hj10 : (models j).alpha ≤ 10 * (models i).alpha) :
    (models i).alpha = (models j).alpha ∨ ∀ k < 4, (models j).state k = 0 := by
  have hmean := (h.mean_and_root hij hi hj).1
  simp only [xMerged_entry hi10 hj10] at hmean
  exact (state_eq_weightedMean_iff hi hj).mp hmean

/-- **When two models are merged to their mixture**: exactly if their alphas are equal or the state
of the second is zero, and there is no flat direction. -/
theorem mergedToMixture_iff (models : FilterModels ℝ) (hij : i ≠ j) (hi : 0 < (models i).alpha)
    (hj : 0 < (models j).alpha) (hi10 : (models i).alpha ≤ 10 * (models j).alpha)
    (hj10 : (models j).alpha ≤ 10 * (models i).alpha) :
    MergedToMixture models i j ↔
      ((models i).alpha = (models j).alpha ∨ ∀ k < 4, (models j).state k = 0) ∧
        NoFlatDirection (models i) (models j) := by
  have hroot (a : ℝ) (ha : 0 ≤ a) : ∃ b, 0 ≤ b ∧ b * b = a :=
    ⟨Real.sqrt a, Real.sqrt_nonneg a, Real.mul_self_sqrt ha⟩
  constructor
  · intro h
    obtain ⟨hmean, L, hL⟩ := h.mean_and_root hij hi hj
    refine ⟨h.alpha_eq_or hij hi hj hi10 hj10,
      (exists_isFactor_weightedCovariance_iff hroot hi hj).mp ⟨L, hL.congr fun r hr c hc => ?_⟩⟩
    exact pMerged_eq_weightedCovariance rfl hmean hr hc
  · rintro ⟨halpha, hflat⟩
    have hmean := (state_eq_weightedMean_iff (n := 4) hi hj).mpr halpha
    simp only [← xMerged_entry hi10 hj10] at hmean
    obtain ⟨L, hL⟩ := (exists_isFactor_weightedCovariance_iff hroot hi hj).mpr hflat
    have hcholesky : NMatrix.cholesky realSqrt (pMerged (models i) (models j) _ _) = some ⟨L⟩ :=
      NMatrix.cholesky_eq_some_iff.mpr
        (hL.congr fun r hr c hc => (pMerged_eq_weightedCovariance rfl hmean hr hc).symm)
    refine ⟨_, ?_, mergesWeighted_replaceTwo hij hi hj hmean hL⟩
    rw [FilterModels.mergeTwoModels_of_ne hij (add_pos hi hj).ne', hcholesky, Option.map_some]

/-- A model at a place on the first axis, with the identity as the root of its covariance. -/
def modelAt {K : Type} [Field K] (alpha x : K) : UKF4Filter K where
  isActive := true
  toBeActivated := false
  alpha := alpha
  stateEstimates := ⟨fun k _ => if k = 0 then x else 0⟩
  stateStandardDeviations := ⟨fun r c => if r = c then 1 else 0⟩

/-- The first slot. -/
def firstSlot : Fin cMaxModels := Fin.ofNat 34 0

/-- The second slot. -/
def secondSlot : Fin cMaxModels := Fin.ofNat 34 1

/-- Models at the origin, but the second, which has `alpha` and is three units away. -/
def twoModels {K : Type} [Field K] (alpha : K) : FilterModels K :=
  Function.update (fun _ => modelAt 1 0) secondSlot (modelAt alpha 3)

/-- The first model. -/
lemma twoModels_first {K : Type} [Field K] (alpha : K) :
    twoModels alpha firstSlot = modelAt 1 0 := Function.update_of_ne (by decide) _ _

/-- The second model. -/
lemma twoModels_second {K : Type} [Field K] (alpha : K) :
    twoModels alpha secondSlot = modelAt alpha 3 := Function.update_self _ _ _

/-- The identity has no flat direction. -/
lemma noFlatDirection_modelAt {K : Type} [Field K] (model2 : UKF4Filter K) (alpha x : K) :
    NoFlatDirection (modelAt alpha x) model2 := by
  intro v hv _ _ r hr
  have hr' : r < 4 := Nat.lt_trans hr (by decide)
  have hcolumn : comb 3 v (modelAt alpha x).stateStandardDeviations.entry r = v r := by
    unfold comb modelAt
    simp [hr]
  rw [← hcolumn]
  exact hv r hr'

/-- Two models with equal alphas are merged to their mixture. -/
theorem mergedToMixture_twoModels : MergedToMixture (twoModels 1) firstSlot secondSlot := by
  have hiff := mergedToMixture_iff (i := firstSlot) (j := secondSlot) (twoModels 1) (by decide)
  rw [twoModels_first, twoModels_second] at hiff
  exact (hiff one_pos one_pos (by norm_num [modelAt]) (by norm_num [modelAt])).mpr
    ⟨Or.inl rfl, noFlatDirection_modelAt _ 1 0⟩

/-- Two models of which the second is twice as likely are not. -/
theorem not_mergedToMixture_twoModels : ¬ MergedToMixture (twoModels 2) firstSlot secondSlot := by
  intro h
  have hnever := h.alpha_eq_or (by decide)
  rw [twoModels_first, twoModels_second] at hnever
  rcases hnever one_pos two_pos (by norm_num [modelAt]) (by norm_num [modelAt]) with
    halpha | hzero
  · norm_num [modelAt] at halpha
  · have hfirst := hzero 0 (by decide)
    norm_num [modelAt, UKF4Filter.state] at hfirst

end Merging

end NaoSoccer
