import NaoSoccer.Core.OppUpdate
import NaoSoccer.Foundation.RunningMinimum

/-!
# One observation, one model

Before a filter changes anything it saves its estimate, so if more than one model has taken an
observation, all but the best can be put back.  Only the update from vision compares the innovations
of models that have taken the observation; the others compare those of all active models.  This
makes no difference once some model takes it: a model that rejects has an innovation above the
threshold, and the threshold is below the `1000.0` with which the comparison begins.

Of the flags alone, an observation does what the model of the slots in `OppModule` says.
-/

namespace NaoSoccer

open RunningMinimum Outcome

variable {K : Type} [Field K] [LinearOrder K]

/-! ## What the attempts leave -/

/-- The estimate, its standard deviations and the frame of the last update are the same. -/
structure SameEstimate (model model' : SavingUKF4 K) : Prop where
  stateEstimates : model.stateEstimates = model'.stateEstimates
  stateStandardDeviations : model.stateStandardDeviations = model'.stateStandardDeviations
  frameUpdated : model.frameUpdated = model'.frameUpdated

/-- An update that can be reverted, and that takes an observation if the innovation is at most
`thresh`. -/
structure Tentative (thresh : K) (update : SavingUKF4 K → UKF4UpdateResult × SavingUKF4 K) :
    Prop where
  ok_iff : ∀ model, (update model).1 = .ok ↔ (update model).2.lastInnov2 ≤ thresh
  saved : ∀ model, SameEstimate (update model).2.revert model
  rejected : ∀ model, (update model).1 ≠ .ok → SameEstimate (update model).2 model
  isActive : ∀ model, (update model).2.isActive = model.isActive

omit [Field K] in
/-- Both updates save the estimate, and then compare the innovation with the threshold. -/
lemma Tentative.of_saving {thresh : K} {update : SavingUKF4 K → UKF4UpdateResult × SavingUKF4 K}
    {tested taken : SavingUKF4 K → SavingUKF4 K}
    (hupdate : ∀ model, update model =
      if (tested model).lastInnov2 > thresh then (.outlier, tested model) else (.ok, taken model))
    (htested : ∀ model, SameEstimate (tested model) model ∧
      SameEstimate (tested model).revert model ∧ (tested model).isActive = model.isActive)
    (htaken : ∀ model, (taken model).lastInnov2 = (tested model).lastInnov2 ∧
      SameEstimate (taken model).revert model ∧ (taken model).isActive = model.isActive) :
    Tentative thresh update := by
  constructor
  all_goals
    intro model
    rw [hupdate model]
    split
  case ok_iff.isTrue h => exact iff_of_false UKF4UpdateResult.noConfusion h.not_ge
  case ok_iff.isFalse h => exact iff_of_true rfl ((htaken model).1.trans_le (not_lt.mp h))
  case saved.isTrue => exact (htested model).2.1
  case saved.isFalse => exact (htaken model).2.1
  case rejected.isTrue => exact fun _ => (htested model).1
  case rejected.isFalse => exact fun h => absurd rfl h
  case isActive.isTrue => exact (htested model).2.2
  case isActive.isFalse => exact (htaken model).2.2

lemma tentative_opponentDetection (params : SmallUKF4Params K) (frameId : ℤ)
    {o : OppMeasurement K} (hfield : o.offField = false) :
    Tentative params.outlierRejectionThresh
      (SavingUKF4.opponentDetection params frameId o) := by
  apply Tentative.of_saving
  · intro model
    unfold SavingUKF4.opponentDetection
    rw [hfield]
    rfl
  · exact fun model => ⟨⟨rfl, rfl, rfl⟩, ⟨rfl, rfl, rfl⟩, rfl⟩
  · exact fun model => ⟨rfl, ⟨rfl, rfl, rfl⟩, rfl⟩

omit [Field K] in
lemma tentative_linear2MeasurementUpdate (params : SmallUKF4Params K) (o : OppMeasurement K) :
    Tentative params.outlierRejectionThresh
      (SavingUKF4.linear2MeasurementUpdate params o) := by
  apply Tentative.of_saving
  · exact fun model => rfl
  · exact fun model => ⟨⟨rfl, rfl, rfl⟩, ⟨rfl, rfl, rfl⟩, rfl⟩
  · exact fun model => ⟨rfl, ⟨rfl, rfl, rfl⟩, rfl⟩

namespace SavingModels

section Attempts

variable (okOnly : Bool) (update : SavingUKF4 K → UKF4UpdateResult × SavingUKF4 K)
  (models : SavingModels K)

/-- Model `i` is active and takes the observation. -/
def Takes (i : Fin cMaxModels) : Prop :=
  (models i).isActive = true ∧ (update (models i)).1 = .ok

instance (i : Fin cMaxModels) : Decidable (Takes update models i) :=
  inferInstanceAs (Decidable (_ ∧ _))

/-- The innovation with which model `i` can become the best one. -/
def innovation (i : Fin cMaxModels) : Option K :=
  if (models i).isActive ∧ (okOnly = true → (update (models i)).1 = .ok) then
    some (update (models i)).2.lastInnov2
  else none

/-- The number of a slot, `-1` for none. -/
def slotNumber (i : Option (Fin cMaxModels)) : ℤ := i.elim (-1) fun i => (i : ℕ)

/-- The state of the loop after the attempts on the models in `tried`. -/
structure AfterAttempts (tried : List (Fin cMaxModels)) (s : Attempt K) : Prop where
  models_eq : ∀ i, s.models i =
    if i ∈ tried ∧ (models i).isActive then (update (models i)).2 else models i
  numSuccess_eq : s.numSuccess = tried.countP fun i => Takes update models i
  bestInnov_eq : s.bestInnov =
    (tried.foldl (step (innovation okOnly update models)) (1000, none)).1
  bestModel_eq : s.bestModel =
    slotNumber (tried.foldl (step (innovation okOnly update models)) (1000, none)).2

variable {okOnly update models}

omit [Field K] in
/-- The test of the loop for a better model is a step of the running minimum. -/
lemma step_innovation {i : Fin cMaxModels} (hactive : (models i).isActive)
    (best : K × Option (Fin cMaxModels)) :
    step (innovation okOnly update models) best i =
      if (update (models i)).2.lastInnov2 < best.1 &&
          (!okOnly || (update (models i)).1 == .ok) then
        ((update (models i)).2.lastInnov2, some i)
      else best := by
  unfold step innovation
  by_cases hok : okOnly = true → (update (models i)).1 = .ok
  · have htest : (!okOnly || (update (models i)).1 == .ok) = true := by
      cases okOnly <;> simp_all
    rw [if_pos ⟨hactive, hok⟩]
    simp [htest]
  · obtain ⟨rfl, hne⟩ := Classical.not_imp.mp hok
    simp [hne]

lemma AfterAttempts.attempt {tried : List (Fin cMaxModels)} {s : Attempt K}
    (h : AfterAttempts okOnly update models tried s) {i : Fin cMaxModels} (hi : i ∉ tried) :
    AfterAttempts okOnly update models (tried ++ [i]) (attempt okOnly update s i) := by
  have hmodel : s.models i = models i := by rw [h.models_eq, if_neg fun hmem => hi hmem.1]
  unfold SavingModels.attempt
  rw [hmodel]
  by_cases hactive : (models i).isActive
  · rw [if_pos hactive]
    constructor
    · intro j
      by_cases hj : j = i
      · subst hj
        simp [hactive]
      · simp [h.models_eq j, hj]
    · by_cases hok : (update (models i)).1 = .ok <;>
        simp [Takes, hactive, hok, h.numSuccess_eq, List.countP_append]
    all_goals
      rw [List.foldl_append, List.foldl_cons, List.foldl_nil, step_innovation hactive,
        ← h.bestInnov_eq]
    · by_cases hbetter : (update (models i)).2.lastInnov2 < s.bestInnov &&
          (!okOnly || (update (models i)).1 == .ok)
      · simp only [if_pos hbetter]
      · simp only [if_neg hbetter]
        exact h.bestInnov_eq
    · by_cases hbetter : (update (models i)).2.lastInnov2 < s.bestInnov &&
          (!okOnly || (update (models i)).1 == .ok)
      · simp only [if_pos hbetter, slotNumber, Option.elim_some]
      · simp only [if_neg hbetter, h.bestModel_eq]
  · rw [if_neg hactive]
    have hnone : innovation okOnly update models i = none := if_neg fun hmem => hactive hmem.1
    constructor
    · intro j
      by_cases hj : j = i
      · subst hj
        simp [hmodel, hactive]
      · simp [h.models_eq j, hj]
    · simp [Takes, hactive, h.numSuccess_eq, List.countP_append]
    · simp [step, hnone, h.bestInnov_eq]
    · simp [step, hnone, h.bestModel_eq]

/-- The loop over all models. -/
lemma afterAttempts (okOnly : Bool) (update : SavingUKF4 K → UKF4UpdateResult × SavingUKF4 K)
    (models : SavingModels K) :
    AfterAttempts okOnly update models (List.finRange cMaxModels)
      (attempts okOnly update models) := by
  suffices hloop : ∀ rest tried s, (tried ++ rest).Nodup →
      AfterAttempts okOnly update models tried s →
      AfterAttempts okOnly update models (tried ++ rest)
        (rest.foldl (SavingModels.attempt okOnly update) s) by
    apply hloop _ [] _ (List.nodup_finRange _)
    exact ⟨fun i => by simp, rfl, rfl, rfl⟩
  intro rest
  induction rest with
  | nil => 
    intro tried s _ h
    simpa using h
  | cons i rest ih =>
    intro tried s hnodup h
    have hi : i ∉ tried := by
      intro hmem
      exact (List.nodup_append.mp hnodup).2.2 i hmem i List.mem_cons_self rfl
    rw [List.append_cons] at hnodup ⊢
    exact ih _ _ hnodup (h.attempt hi)

/-- Model `best` takes the observation, and with the smallest innovation of those that do; of
several with this innovation it has the lowest index. -/
structure IsBest (update : SavingUKF4 K → UKF4UpdateResult × SavingUKF4 K)
    (models : SavingModels K) (best : Fin cMaxModels) : Prop where
  takes : Takes update models best
  least : ∀ i, Takes update models i →
    (update (models best)).2.lastInnov2 ≤ (update (models i)).2.lastInnov2
  first : ∀ i < best, Takes update models i →
    (update (models best)).2.lastInnov2 < (update (models i)).2.lastInnov2

/-- Whichever innovations the loop compares, a model that rejects is not the best one. -/
lemma exists_isBest_attempts (okOnly : Bool) {thresh : K} (h : Tentative thresh update)
    (hthresh : thresh < 1000)
    {i : Fin cMaxModels} (hi : Takes update models i) :
    ∃ best, IsBest update models best ∧
      (attempts okOnly update models).bestModel = slotNumber (some best) := by
  have hvalue {j} (hj : Takes update models j) :
      innovation okOnly update models j = some (update (models j)).2.lastInnov2 :=
    if_pos ⟨hj.1, fun _ => hj.2⟩
  have hlt : (update (models i)).2.lastInnov2 < 1000 := ((h.ok_iff _).mp hi.2).trans_lt hthresh
  obtain ⟨best, v, hrun, hmin⟩ := exists_foldl_step (List.mem_finRange i) (hvalue hi)
    (s := ((1000 : K), (none : Option (Fin cMaxModels)))) hlt
  have hbest := hmin.value_eq
  unfold innovation at hbest
  split at hbest
  case isFalse => exact absurd hbest (by simp)
  case isTrue hactive =>
    rw [Option.some.injEq] at hbest
    have hle : v ≤ (update (models i)).2.lastInnov2 := hmin.le (List.mem_finRange i) (hvalue hi)
    refine ⟨best, ⟨⟨hactive.1, ?_⟩, ?_, ?_⟩, ?_⟩
    · exact (h.ok_iff _).mpr (hbest.trans_le (hle.trans ((h.ok_iff _).mp hi.2)))
    · intro j hj
      exact hbest.trans_le (hmin.le (List.mem_finRange j) (hvalue hj))
    · intro j hlt hj
      exact hbest.trans_lt
        (hmin.lt (List.pairwise_lt_finRange _) (List.mem_finRange j) hlt (hvalue hj))
    · rw [(afterAttempts okOnly update models).bestModel_eq, hrun]

omit [Field K] [LinearOrder K] in
lemma revertOthers_self (models : SavingModels K) (best : Fin cMaxModels) :
    revertOthers (slotNumber (some best)) models best = models best := by
  simp [revertOthers, slotNumber]

omit [Field K] [LinearOrder K] in
lemma revertOthers_of_ne {i best : Fin cMaxModels} (hi : i ≠ best) :
    revertOthers (slotNumber (some best)) models i =
      if (models i).isActive then (models i).revert else models i := by
  have hne : ((i : ℕ) : ℤ) ≠ slotNumber (some best) := by simpa [slotNumber, Fin.val_inj] using hi
  simp [revertOthers, hne]

omit [Field K] [LinearOrder K] in
lemma isActive_revertOthers (bestModel : ℤ) (models : SavingModels K) (i : Fin cMaxModels) :
    (revertOthers bestModel models i).isActive = (models i).isActive := by
  unfold revertOthers
  split <;> rfl

omit [Field K] [LinearOrder K] in
lemma one_lt_countP_of_takes {i j : Fin cMaxModels} (hij : i ≠ j) (hi : Takes update models i)
    (hj : Takes update models j) :
    1 < (List.finRange cMaxModels).countP fun i => Takes update models i := by
  have hsub : [i, j] ⊆ (List.finRange cMaxModels).filter fun i => Takes update models i := by
    intro x hx
    rw [List.mem_filter, decide_eq_true_iff]
    rcases List.mem_pair.mp hx with rfl | rfl
    · exact ⟨List.mem_finRange _, hi⟩
    · exact ⟨List.mem_finRange _, hj⟩
  rw [List.countP_eq_length_filter]
  exact (List.subperm_of_subset (by simpa using hij) hsub).length_le

/-- If some model takes the observation, the best of them has it and no other model is changed. -/
theorem attemptUpdates_ok (okOnly : Bool) {thresh : K} (h : Tentative thresh update)
    (hthresh : thresh < 1000)
    (create : ℤ → SavingModels K → Except OppError (SavingModels K × Bool))
    (htakes : ∃ i, Takes update models i) :
    ∃ models' best, attemptUpdates okOnly update create models = .ok models' ∧
      IsBest update models best ∧ models' best = (update (models best)).2 ∧
      (∀ i ≠ best, SameEstimate (models' i) (models i)) ∧
      ∀ i, (models' i).isActive = (models i).isActive := by
  obtain ⟨i, hi⟩ := htakes
  obtain ⟨best, hisBest, hbest⟩ := exists_isBest_attempts okOnly h hthresh hi
  have hloop := afterAttempts okOnly update models
  have hmodels (j : Fin cMaxModels) : (attempts okOnly update models).models j =
      if (models j).isActive then (update (models j)).2 else models j := by
    simpa using hloop.models_eq j
  have hactive (j : Fin cMaxModels) :
      ((attempts okOnly update models).models j).isActive = (models j).isActive := by
    rw [hmodels]
    split
    · exact h.isActive _
    · rfl
  have hpos : 0 < (attempts okOnly update models).numSuccess := by
    rw [hloop.numSuccess_eq, List.countP_pos_iff]
    exact ⟨i, List.mem_finRange i, decide_eq_true hi⟩
  unfold attemptUpdates
  rw [if_neg hpos.ne']
  by_cases hmany : (attempts okOnly update models).numSuccess > 1
  · rw [if_pos hmany]
    rw [hbest]
    refine ⟨_, best, rfl, hisBest, ?_, ?_, ?_⟩
    · rw [revertOthers_self, hmodels, if_pos hisBest.takes.1]
    · intro j hj
      rw [revertOthers_of_ne hj, hactive, hmodels]
      split
      · exact h.saved _
      · exact ⟨rfl, rfl, rfl⟩
    · intro j
      rw [isActive_revertOthers, hactive]
  · rw [if_neg hmany]
    refine ⟨_, best, rfl, hisBest, ?_, ?_, hactive⟩
    · rw [hmodels, if_pos hisBest.takes.1]
    · intro j hj
      rw [hmodels]
      split
      case isFalse => exact ⟨rfl, rfl, rfl⟩
      case isTrue hjactive =>
        apply h.rejected
        intro hok
        exact hmany (hloop.numSuccess_eq ▸ one_lt_countP_of_takes hj ⟨hjactive, hok⟩ hisBest.takes)

omit [Field K] [LinearOrder K] in
lemma flags_getNumActiveModels_ne_zero {i : Fin cMaxModels} (hi : (models i).isActive) :
    models.flags.getNumActiveModels ≠ 0 := by
  have hmem : (models i).toUKF4 ∈ models.flags.toList :=
    Vector.mem_toList_iff.mpr (Vector.mem_ofFn.mpr ⟨i, rfl⟩)
  exact (List.countP_pos_iff.mpr ⟨_, hmem, hi⟩).ne'

lemma updateModels_eq_attemptUpdates
    (create : ℤ → SavingModels K → Except OppError (SavingModels K × Bool))
    {i : Fin cMaxModels} (hi : (models i).isActive) :
    updateModels okOnly update create models = attemptUpdates okOnly update create models := by
  unfold updateModels
  rw [if_neg (flags_getNumActiveModels_ne_zero hi)]

end Attempts

end SavingModels

/-! ## The flags of the models -/

namespace SavingModels

section Flags

variable {okOnly : Bool} {update : SavingUKF4 K → UKF4UpdateResult × SavingUKF4 K} {onGrass : Bool}
  {create : ℤ → SavingModels K → Except OppError (SavingModels K × Bool)}
  {createFlags : ℤ → Observation → Models → Except OppError (Models × Bool)}

omit [Field K] [LinearOrder K] in
lemma getElem_flags (models : SavingModels K) {i : ℕ} (hi : i < cMaxModels) :
    models.flags[i] = (models ⟨i, hi⟩).toUKF4 :=
  Vector.getElem_ofFn _

omit [Field K] [LinearOrder K] in
/-- To change a model is to change its flags. -/
lemma flags_update (models : SavingModels K) (i : Fin cMaxModels) (model : SavingUKF4 K) :
    flags (Function.update models i model) = models.flags.set i model.toUKF4 i.isLt := by
  apply Vector.ext
  intro j hj
  rw [getElem_flags, Vector.getElem_set]
  split
  case isTrue h =>
    subst h
    rw [Function.update_self]
  case isFalse h =>
    rw [Function.update_of_ne (fun heq => h (congrArg Fin.val heq).symm), getElem_flags]

omit [Field K] [LinearOrder K] in
lemma set_flags_self (models : SavingModels K) (i : Fin cMaxModels) :
    models.flags.set i (models i).toUKF4 i.isLt = models.flags := by
  rw [← flags_update, Function.update_eq_self]

/-- The attempts do not change the flags. -/
lemma flags_attempts (okOnly : Bool)
    (hkeeps : ∀ model, (update model).2.toUKF4 = model.toUKF4) (models : SavingModels K) :
    (attempts okOnly update models).models.flags = models.flags := by
  apply Vector.ext
  intro i hi
  rw [getElem_flags, getElem_flags, (afterAttempts okOnly update models).models_eq]
  split
  · exact hkeeps _
  · rfl

omit [Field K] [LinearOrder K] in
lemma flags_revertOthers (bestModel : ℤ) (models : SavingModels K) :
    (revertOthers bestModel models).flags = models.flags := by
  apply Vector.ext
  intro i hi
  rw [getElem_flags, getElem_flags]
  unfold revertOthers
  split <;> rfl

/-- The answers of the models to the observation. -/
def answers (update : SavingUKF4 K → UKF4UpdateResult × SavingUKF4 K) (onGrass : Bool)
    (models : SavingModels K) : Observation := ⟨fun i => (update (models i)).1, onGrass⟩

lemma numSuccess_attempts (okOnly : Bool)
    (update : SavingUKF4 K → UKF4UpdateResult × SavingUKF4 K) (onGrass : Bool)
    (models : SavingModels K) :
    (attempts okOnly update models).numSuccess =
      Models.numSuccess (answers update onGrass models) models.flags := by
  rw [(afterAttempts okOnly update models).numSuccess_eq]
  unfold Models.numSuccess
  apply List.countP_congr
  intro i _
  have hflags : models.flags[i] = (models i).toUKF4 := getElem_flags models i.isLt
  rw [hflags, decide_eq_true_iff]
  simp [Takes, answers]

/-- `createFlags` is what `create` does with the flags. -/
def CreatesFlags (create : ℤ → SavingModels K → Except OppError (SavingModels K × Bool))
    (createFlags : ℤ → Observation → Models → Except OppError (Models × Bool)) (onGrass : Bool) :
    Prop :=
  ∀ modelID models result, createFlags modelID ⟨result, onGrass⟩ models.flags =
    (create modelID models).map fun created => (created.1.flags, created.2)

lemma flags_attemptUpdates (okOnly : Bool)
    (hkeeps : ∀ model, (update model).2.toUKF4 = model.toUKF4)
    (hcreate : CreatesFlags create createFlags onGrass) (models : SavingModels K) :
    Models.attemptUpdates createFlags (answers update onGrass models) models.flags =
      (attemptUpdates okOnly update create models).map flags := by
  have hcount := numSuccess_attempts okOnly update onGrass models
  have hflags := flags_attempts okOnly hkeeps models
  unfold Models.attemptUpdates attemptUpdates
  generalize attempts okOnly update models = s at *
  by_cases hzero : s.numSuccess = 0
  · rw [if_pos (hcount ▸ hzero)]
    dsimp only
    rw [if_pos hzero, ← hflags, answers, hcreate]
    cases create s.models.flags.findNextFreeModel s.models with
    | error e => rfl
    | ok created =>
      obtain ⟨models', oppOk⟩ := created
      cases oppOk with
      | false => rfl
      | true =>
        cases slotIndex s.models.flags.findNextFreeModel with
        | error e => simp [Except.map]
        | ok i =>
          have hself :
              flags (Function.update models' i (update (models' i)).2) = models'.flags := by
            rw [flags_update, hkeeps]
            exact set_flags_self models' i
          simp [Except.map, hself, pure, Except.pure]
  · rw [if_neg (hcount ▸ hzero)]
    dsimp only
    rw [if_neg hzero]
    split
    · exact congrArg Except.ok ((flags_revertOthers _ _).trans hflags).symm
    · exact congrArg Except.ok hflags.symm

omit [Field K] [LinearOrder K] in
lemma setActive_flags (models : SavingModels K) (i : Fin cMaxModels) (active : Bool) :
    Models.setActive i active models.flags =
      models.flags.set i { (models i).toUKF4 with isActive := active } i.isLt := by
  have hi : models.flags[i] = (models i).toUKF4 := getElem_flags models i.isLt
  unfold Models.setActive
  rw [hi]

/-- Some answers of the models explain what the flags of the models become. -/
lemma flags_updateModels (okOnly : Bool)
    (hkeeps : ∀ model, (update model).2.toUKF4 = model.toUKF4)
    (hcreate : CreatesFlags create createFlags onGrass) (models : SavingModels K) :
    ∃ result, Models.updateModels createFlags ⟨result, onGrass⟩ models.flags =
      (updateModels okOnly update create models).map flags := by
  unfold Models.updateModels updateModels
  by_cases hnone : models.flags.getNumActiveModels = 0
  · simp only [if_pos hnone]
    cases hcreated : create 0 models with
    | error e =>
      refine ⟨fun _ => .off, ?_⟩
      rw [hcreate, hcreated]
      rfl
    | ok created =>
      obtain ⟨models', oppOk⟩ := created
      refine ⟨(answers update onGrass models').result, ?_⟩
      have hcreatedFlags : createFlags 0 (answers update onGrass models') models.flags =
          .ok (models'.flags, oppOk) := by
        rw [answers, hcreate, hcreated]
        rfl
      rw [answers] at hcreatedFlags ⊢
      rw [hcreatedFlags, ok_bind, ok_bind]
      cases oppOk with
      | false => rfl
      | true =>
        simp only [if_true]
        exact flags_attemptUpdates okOnly hkeeps hcreate models'
  · simp only [if_neg hnone]
    exact ⟨_, flags_attemptUpdates okOnly hkeeps hcreate models⟩

lemma createsFlags_initNewModel (params : SmallUKF4Params K) (o : OppMeasurement K) :
    CreatesFlags (fun modelID => initNewModel params modelID o) Models.initNewModel
      (!o.offField) := by
  intro modelID models result
  dsimp only
  unfold initNewModel Models.initNewModel
  cases slotIndex modelID with
  | error e => rfl
  | ok i =>
    cases hoff : o.offField <;>
      simp [Except.map, pure, Except.pure, flags_update, setActive_flags, SavingUKF4.reInit,
        SavingUKF4.setLocation]

omit [LinearOrder K] in
lemma createsFlags_initSharedModel (o : OppMeasurement K) (onGrass : Bool) :
    CreatesFlags (fun modelID => initSharedModel modelID o) Models.initSharedModel onGrass := by
  intro modelID models result
  dsimp only
  unfold initSharedModel Models.initSharedModel
  cases slotIndex modelID with
  | error e => rfl
  | ok i =>
    simp [Except.map, pure, Except.pure, flags_update, setActive_flags, SavingUKF4.init,
      SavingUKF4.setLocation]

end Flags

end SavingModels

/-! ## The four kinds of observations -/

namespace OppObservation

open SavingModels

variable {params : UpdateParams K} {models : SavingModels K}

/-- An observation off the field is taken by no model. -/
lemma offField_of_takes {params : SmallUKF4Params K} {frameId : ℤ} {o : OppMeasurement K}
    {i : Fin cMaxModels}
    (h : Takes (SavingUKF4.opponentDetection params frameId o) models i) : o.offField = false := by
  by_contra hoff
  rw [Bool.not_eq_false] at hoff
  have hresult := h.2
  unfold SavingUKF4.opponentDetection at hresult
  rw [if_pos hoff] at hresult
  exact UKF4UpdateResult.noConfusion hresult

lemma tentative_tryOn (o : OppObservation K) {i : Fin cMaxModels}
    (h : Takes (o.tryOn params) models i) :
    Tentative params.outlierRejectionThresh (o.tryOn params) := by
  cases o with
  | vision wo => exact tentative_opponentDetection _ _ (offField_of_takes h)
  | sonar reading => exact tentative_opponentDetection _ _ (offField_of_takes h)
  | bump o => exact tentative_opponentDetection _ _ (offField_of_takes h)
  | shared o => exact tentative_linear2MeasurementUpdate _ _

/-- An observation that is not passed over is attempted on all models. -/
lemma update_eq (o : OppObservation K) {i : Fin cMaxModels} (hi : (models i).isActive) :
    ∃ okOnly create, o.update params models =
      if o.ignored params then .ok models
      else attemptUpdates okOnly (o.tryOn params) create models := by
  simp only [← updateModels_eq_attemptUpdates _ hi]
  cases o with
  | vision wo => exact ⟨true, _, rfl⟩
  | sonar reading => exact ⟨false, _, rfl⟩
  | bump o =>
    refine ⟨false, fun modelID => initNewModel params.toSmallUKF4Params modelID o, ?_⟩
    simp only [update, doOpponentBumpUpdate, ignored, Bool.false_eq_true, if_false, tryOn]
  | shared o =>
    refine ⟨false, fun modelID => initSharedModel modelID o, ?_⟩
    simp only [update, doSharedOpponentUpdate, ignored, Bool.false_eq_true, if_false, tryOn]

/-- How an observation that no model takes begins one. -/
def createFlags : OppObservation K → ℤ → Observation → Models → Except OppError (Models × Bool)
  | .vision _ | .sonar _ | .bump _ => Models.initNewModel
  | .shared _ => Models.initSharedModel

lemma toUKF4_opponentDetection (params : SmallUKF4Params K) (frameId : ℤ) (o : OppMeasurement K)
    (model : SavingUKF4 K) :
    (SavingUKF4.opponentDetection params frameId o model).2.toUKF4 = model.toUKF4 := by
  unfold SavingUKF4.opponentDetection
  dsimp only
  split
  · rfl
  · split <;> rfl

omit [Field K] in
lemma toUKF4_linear2MeasurementUpdate (params : SmallUKF4Params K) (o : OppMeasurement K)
    (model : SavingUKF4 K) :
    (SavingUKF4.linear2MeasurementUpdate params o model).2.toUKF4 = model.toUKF4 := by
  unfold SavingUKF4.linear2MeasurementUpdate
  dsimp only
  split <;> rfl

/-- Of the flags alone, an observation that is not passed over does what the model of the slots
says, for some answers of the filters. -/
theorem flags_update (o : OppObservation K) (models : SavingModels K)
    (hignored : o.ignored params = false) :
    ∃ answers, Models.updateModels o.createFlags answers models.flags =
      (o.update params models).map SavingModels.flags := by
  cases o with
  | vision wo =>
    obtain ⟨result, h⟩ := flags_updateModels true
      (toUKF4_opponentDetection params.toSmallUKF4Params params.frameId wo.measurement)
      (createsFlags_initNewModel params.toSmallUKF4Params wo.measurement) models
    unfold ignored at hignored
    simp only [update, doOpponentVisionUpdate, hignored, Bool.false_eq_true, if_false]
    exact ⟨_, h⟩
  | sonar reading =>
    obtain ⟨result, h⟩ := flags_updateModels false
      (toUKF4_opponentDetection params.toSmallUKF4Params params.frameId reading.measurement)
      (createsFlags_initNewModel params.toSmallUKF4Params reading.measurement) models
    unfold ignored at hignored
    simp only [update, doOpponentSonarUpdate, hignored, Bool.false_eq_true, if_false]
    exact ⟨_, h⟩
  | bump o =>
    obtain ⟨result, h⟩ := flags_updateModels false
      (toUKF4_opponentDetection params.toSmallUKF4Params params.frameId o)
      (createsFlags_initNewModel params.toSmallUKF4Params o) models
    simp only [update, doOpponentBumpUpdate]
    exact ⟨_, h⟩
  | shared o =>
    obtain ⟨result, h⟩ := flags_updateModels false
      (toUKF4_linear2MeasurementUpdate params.toSmallUKF4Params o)
      (createsFlags_initSharedModel o true) models
    simp only [update, doSharedOpponentUpdate]
    exact ⟨_, h⟩

/-- If some active model takes an observation, the one with the smallest innovation is updated, and
the estimates of the others and the set of active models stay as they are. -/
theorem used_by_one_model (params : UpdateParams K) (hthresh : params.outlierRejectionThresh < 1000)
    (o : OppObservation K) (models : SavingModels K)
    (htakes : ∃ i, Takes (o.tryOn params) models i) :
    ∃ models' best, o.update params models = .ok models' ∧
      IsBest (o.tryOn params) models best ∧
      (models' best = if o.ignored params then models best else (o.tryOn params (models best)).2) ∧
      (∀ i ≠ best, SameEstimate (models' i) (models i)) ∧
      ∀ i, (models' i).isActive = (models i).isActive := by
  obtain ⟨i, hi⟩ := htakes
  obtain ⟨okOnly, create, hupdate⟩ := o.update_eq hi.1
  obtain ⟨models', best, hrun, hbest, hself, hothers, hactive⟩ :=
    attemptUpdates_ok okOnly (tentative_tryOn o hi) hthresh create ⟨i, hi⟩
  rw [hupdate]
  by_cases hignored : o.ignored params
  · simp only [if_pos hignored]
    exact ⟨models, best, rfl, hbest, rfl, fun _ _ => ⟨rfl, rfl, rfl⟩, fun _ => rfl⟩
  · simp only [if_neg hignored]
    exact ⟨models', best, hrun, hbest, hself, hothers, hactive⟩

/-- A filter at `(x, x)`. -/
def filterAt (x : ℚ) : SavingUKF4 ℚ where
  toUKF4Filter := modelAt 1 x
  frameUpdated := 0
  lastInnov2 := 999
  lastStateEstimates := ⟨fun _ _ => 0⟩
  lastStateStandardDeviations := ⟨fun _ _ => 0⟩
  lastFrameUpdated := 0

/-- All models are active, and all but the first are at the same place. -/
def crowd : SavingModels ℚ := fun i => if i = firstSlot then filterAt 3 else filterAt 2

/-- A teammate sees someone at the origin. -/
def sharedOrigin : OppObservation ℚ :=
  .shared ⟨0, 0, fun x _ => x.entry 0 0, fun _ _ => 1, fun _ _ => ⟨fun _ _ => 0⟩,
    fun _ s => s⟩

/-- A threshold of ten. -/
def updateParams : UpdateParams ℚ := ⟨⟨10, 150, 100, 10⟩, 500, 100, 7⟩

theorem used_by_one_model_crowd :
    ∃ models', sharedOrigin.update updateParams crowd = .ok models' ∧
      SameEstimate (models' firstSlot) (crowd firstSlot) := by
  have hfirst : Takes (sharedOrigin.tryOn updateParams) crowd firstSlot := by decide
  have hsecond : Takes (sharedOrigin.tryOn updateParams) crowd secondSlot := by decide
  obtain ⟨models', best, hrun, hbest, -, hothers, -⟩ :=
    used_by_one_model updateParams (by decide) sharedOrigin crowd ⟨firstSlot, hfirst⟩
  refine ⟨models', hrun, hothers firstSlot ?_⟩
  rintro rfl
  exact absurd (hbest.least secondSlot hsecond) (by decide)

end OppObservation

end NaoSoccer
