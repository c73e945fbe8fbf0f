import NaoSoccer.Core.OppModule

/-!
# No slot outside the array

`FindNextFreeModel` returns `-1` when every slot is active, and no caller looks at it.  Whether that
can happen depends on the merging at the end of the frames before: it brings the number of active
models down to `max_models_after_merge`, unless this is one.  `doPenaltyKickReset` sets it to one
and nothing sets it back, so after the first frame of a penalty kick models are never merged again.

`occupied` is the measure of the proof.  An observation that begins a model raises it by at most
one, every other step of a frame leaves it or lowers it.
-/

namespace NaoSoccer

open LabelledRun Outcome

namespace Models

variable {models : Models}

/-! ## The observations of a frame as one list -/

/-- An observation and the function that begins a model for it. -/
structure Sighting where
  shared : Bool
  observation : Observation

/-- The update for one sighting. -/
def Sighting.update (x : Sighting) (models : Models) : Except OppError Models :=
  if x.shared then models.doSharedOpponentUpdate x.observation
  else updateModels initNewModel x.observation models

/-- The sighting begins a model: no model is active, or none of those that are takes it. -/
def Sighting.Creates (x : Sighting) (models : Models) : Prop :=
  models.getNumActiveModels = 0 ∨ models.numSuccess x.observation = 0

instance (x : Sighting) (models : Models) : Decidable (x.Creates models) :=
  inferInstanceAs (Decidable (_ ∨ _))

/-- The updates for a list of sightings, in order. -/
def updateAll (sightings : List Sighting) (models : Models) : Except OppError Models :=
  sightings.foldlM (fun models x => x.update models) models

/-- The number of sightings in the list that begin a model. -/
def creations : List Sighting → Models → ℕ
  | [], _ => 0
  | x :: sightings, models =>
    (if x.Creates models then 1 else 0) +
      match x.update models with
      | .ok models => creations sightings models
      | .error _ => 0

/-- No more sightings begin a model than there are. -/
lemma creations_le (sightings : List Sighting) (models : Models) :
    creations sightings models ≤ sightings.length := by
  induction sightings generalizing models with
  | nil => exact le_refl 0
  | cons x sightings ih =>
    have hfirst : (if x.Creates models then 1 else 0) ≤ 1 := by split <;> omega
    rw [creations, List.length_cons]
    cases x.update models with
    | error e => simp only []; omega
    | ok next =>
      have hrest := ih next
      simp only []
      omega

/-- Two lists of sightings one after the other. -/
lemma updateAll_append (xs ys : List Sighting) (models : Models) :
    updateAll (xs ++ ys) models = updateAll xs models >>= updateAll ys := List.foldlM_append

/-- A loop that skips some of its inputs and takes each of the others for a sighting. -/
lemma foldlM_skip {β : Type} (skip : β → Bool) (sighting : β → Sighting) (inputs : List β)
    (models : Models) :
    inputs.foldlM (fun models x => if skip x then .ok models else (sighting x).update models)
        models =
      updateAll ((inputs.filter fun x => !skip x).map sighting) models := by
  induction inputs generalizing models with
  | nil => rfl
  | cons x inputs ih =>
    rw [List.foldlM_cons]
    cases hx : skip x with
    | true =>
      rw [List.filter_cons_of_neg (by simp [hx])]
      exact ih models
    | false =>
      rw [List.filter_cons_of_pos (by simp [hx]), List.map_cons, updateAll, List.foldlM_cons]
      simp only [Bool.false_eq_true, if_false]
      exact congrArg _ (funext ih)

/-- The sightings in the packet of a teammate. -/
def TeamPacket.sightings (packet : TeamPacket) : List Sighting :=
  if !packet.oppUpdated then []
  else if packet.state ≠ .ready && packet.state ≠ .set && packet.state ≠ .playing then []
  else (packet.opponents.filter fun tp =>
    !(!tp.filled || 30 < tp.framesMissed || tp.bad)).map fun tp => ⟨true, tp.observation⟩

/-- The team packets are a list of sightings. -/
lemma checkOpponentTeamPackets_eq (packets : List TeamPacket) (models : Models) :
    models.checkOpponentTeamPackets packets =
      updateAll (packets.flatMap TeamPacket.sightings) models := by
  induction packets generalizing models with
  | nil => rfl
  | cons packet packets ih =>
    rw [checkOpponentTeamPackets, List.foldlM_cons, List.flatMap_cons, updateAll_append]
    refine congrArg₂ _ ?_ (funext ih)
    rw [TeamPacket.sightings]
    split
    · rfl
    split
    · rfl
    exact foldlM_skip (fun tp => !tp.filled || 30 < tp.framesMissed || tp.bad)
      (fun tp => ⟨true, tp.observation⟩) packet.opponents models

/-- What the vision sees of opponents is a list of sightings. -/
lemma doOpponentVisionUpdate_eq (ignoreVisionDist : ℚ) (opponents : List SeenOpponent)
    (models : Models) :
    models.doOpponentVisionUpdate ignoreVisionDist opponents =
      updateAll ((opponents.filter fun wo =>
        !(!wo.seen || wo.visionDistance > ignoreVisionDist)).map
          fun wo => ⟨false, wo.observation⟩) models :=
  foldlM_skip (fun wo : SeenOpponent => !wo.seen || wo.visionDistance > ignoreVisionDist)
    (fun wo => ⟨false, wo.observation⟩) opponents models

/-- The readings of the sonar are a list of sightings. -/
lemma doOpponentSonarUpdate_eq (ignoreSonarDist : ℚ) (readings : List SonarReading)
    (models : Models) :
    models.doOpponentSonarUpdate ignoreSonarDist readings =
      updateAll ((readings.filter fun reading =>
        !(!reading.on || reading.distance * 1000 / 10 > ignoreSonarDist)).map
          fun reading => ⟨false, reading.observation⟩) models :=
  foldlM_skip (fun reading : SonarReading => !reading.on || reading.distance * 1000 / 10 > ignoreSonarDist)
    (fun reading => ⟨false, reading.observation⟩) readings models

end Models

namespace OppModule

/-- The sightings of a frame, in the order in which they are used. -/
def sightings (params : OppLocParams) (f : OppFrame) : List Models.Sighting :=
  (if params.useTeam then f.packets.flatMap Models.TeamPacket.sightings else []) ++
    if f.state = .penalised then [] else
      (if params.useVision then (f.opponents.filter fun wo =>
        !(!wo.seen || wo.visionDistance > params.ignoreVisionDist)).map
          fun wo => ⟨false, wo.observation⟩ else []) ++
      ((if params.useSonar then (f.sonar.filter fun reading =>
        !(!reading.on || reading.distance * 1000 / 10 > params.ignoreSonarDist)).map
          fun reading => ⟨false, reading.observation⟩ else []) ++
      if params.useBump then
        (f.bumpLeft.toList ++ f.bumpRight.toList).map fun o => ⟨false, o⟩ else [])

/-- The bump sensors are sightings. -/
lemma bump_eq (o : Option Observation) (models : Models) :
    bump o models = Models.updateAll (o.toList.map fun o => ⟨false, o⟩) models := by
  cases o with
  | none => rfl
  | some o => exact (bind_pure (models.doOpponentBumpUpdate o)).symm

/-- An update that is switched off has no sightings. -/
lemma updateIf_eq {update : Models → Except OppError Models} {sightings : List Models.Sighting}
    (h : ∀ models, update models = Models.updateAll sightings models) (on : Bool)
    (models : Models) :
    updateIf on update models = Models.updateAll (if on then sightings else []) models := by
  cases on with
  | false => rfl
  | true => exact h models

/-- **The observations of a frame are its sightings in order.** -/
theorem observations_eq (params : OppLocParams) (f : OppFrame) (models : Models) :
    observations params f models = Models.updateAll (sightings params f) models := by
  have hbumps (models : Models) : bump f.bumpLeft models >>= bump f.bumpRight =
      Models.updateAll ((f.bumpLeft.toList ++ f.bumpRight.toList).map fun o => ⟨false, o⟩)
        models := by
    rw [List.map_append, Models.updateAll_append, bump_eq]
    exact congrArg _ (funext (bump_eq f.bumpRight))
  rw [observations, sightings, Models.updateAll_append,
    updateIf_eq (Models.checkOpponentTeamPackets_eq f.packets)]
  refine congrArg _ (funext fun models => ?_)
  by_cases hpenalised : f.state = .penalised
  · rw [if_pos hpenalised, if_pos hpenalised]
    rfl
  · rw [if_neg hpenalised, if_neg hpenalised, Models.updateAll_append,
      updateIf_eq (Models.doOpponentVisionUpdate_eq params.ignoreVisionDist f.opponents)]
    refine congrArg _ (funext fun models => ?_)
    rw [Models.updateAll_append,
      updateIf_eq (Models.doOpponentSonarUpdate_eq params.ignoreSonarDist f.sonar)]
    exact congrArg _ (funext (updateIf_eq hbumps params.useBump))

end OppModule

/-! ## One observation -/

namespace Models

variable {models : Models}

/-- No slot waits for its activation. -/
def NonePending (models : Models) : Prop := ∀ model ∈ models.toList, model.toBeActivated = false

/-- The number of active models, but at least one. -/
def occupied (models : Models) : ℕ := max 1 models.getNumActiveModels

/-- Setting a slot activates at most one model. -/
lemma getNumActiveModels_set_le (i : Fin cMaxModels) (model : UKF4) (models : Models) :
    getNumActiveModels (models.set i model i.isLt) ≤
      models.getNumActiveModels + if model.isActive then 1 else 0 := by
  have hi : (i : ℕ) < models.toList.length := by rw [Vector.length_toList]; exact i.isLt
  rw [getNumActiveModels, Vector.toList_set, List.countP_set hi, getNumActiveModels]
  omega

/-- Setting a slot to a model that does not wait leaves none that does. -/
lemma NonePending.set {i : Fin cMaxModels} {model : UKF4} (h : models.NonePending)
    (hmodel : model.toBeActivated = false) : NonePending (models.set i model i.isLt) := by
  intro other hother
  rw [Vector.toList_set] at hother
  rcases List.mem_or_eq_of_mem_set hother with hother | rfl
  · exact h other hother
  · exact hmodel

/-- The flags that `setActive` writes to a slot do not wait. -/
lemma NonePending.setActive (h : models.NonePending) (i : Fin cMaxModels) (active : Bool) :
    (models.setActive i active).NonePending :=
  h.set (h models[i] (by simp))

/-- The number of active models after `setActive`. -/
lemma getNumActiveModels_setActive_le (i : Fin cMaxModels) (active : Bool) (models : Models) :
    (models.setActive i active).getNumActiveModels ≤ models.getNumActiveModels + 1 := by
  have hset := getNumActiveModels_set_le i { models[i] with isActive := active } models
  have hone : (if active then 1 else 0) ≤ 1 := by split <;> omega
  exact hset.trans (Nat.add_le_add_left hone _)

/-- **A free slot is found while not all models are active.** -/
lemma findNextFreeModel_range (h : models.NonePending)
    (hactive : models.getNumActiveModels < cMaxModels) :
    0 ≤ models.findNextFreeModel ∧ models.findNextFreeModel < cMaxModels := by
  rw [findNextFreeModel]
  cases hfind : models.toList.findIdx? fun model => !(model.isActive || model.toBeActivated) with
  | some i =>
    obtain ⟨hi, -⟩ := List.findIdx?_eq_some_iff_getElem.mp hfind
    rw [Vector.length_toList] at hi
    simp only []
    omega
  | none =>
    have hall : ∀ model ∈ models.toList, model.isActive = true := by
      intro model hmodel
      have hbusy := List.findIdx?_eq_none_iff.mp hfind model hmodel
      simpa [h model hmodel] using hbusy
    have hcount : models.getNumActiveModels = models.toList.length := List.countP_eq_length.mpr hall
    rw [Vector.length_toList] at hcount
    omega

/-- An index in the array is a slot. -/
lemma slotIndex_ok {index : ℤ} (h : 0 ≤ index ∧ index < cMaxModels) :
    ∃ i, slotIndex index = .ok i := ⟨_, dif_pos h⟩

/-- What the updates need of the function that begins a model: at an index of the array it succeeds,
activates one model at most, and none waits. -/
def BeginsOne (create : ℤ → Observation → Models → Except OppError (Models × Bool)) : Prop :=
  ∀ (modelID : ℤ) (o : Observation) (models : Models), 0 ≤ modelID ∧ modelID < cMaxModels →
    models.NonePending → ∃ next oppOk, create modelID o models = .ok (next, oppOk) ∧
      next.NonePending ∧ next.getNumActiveModels ≤ models.getNumActiveModels + 1

/-- `initNewModel` begins one model. -/
lemma beginsOne_initNewModel : BeginsOne initNewModel := by
  intro modelID o models hrange h
  obtain ⟨i, hi⟩ := slotIndex_ok hrange
  rw [initNewModel, hi, ok_bind]
  split
  · exact ⟨_, _, rfl, h.setActive i true, getNumActiveModels_setActive_le i true models⟩
  · exact ⟨_, _, rfl, h.setActive i false, getNumActiveModels_setActive_le i false models⟩

/-- A shared opponent begins one model. -/
lemma beginsOne_initSharedModel : BeginsOne initSharedModel := by
  intro modelID o models hrange h
  obtain ⟨i, hi⟩ := slotIndex_ok hrange
  rw [initSharedModel, hi, ok_bind]
  exact ⟨_, _, rfl, h.setActive i true, getNumActiveModels_setActive_le i true models⟩

variable {create : ℤ → Observation → Models → Except OppError (Models × Bool)} {o : Observation}

/-- The attempt to update the active models, while a slot is free if none of them takes the
observation. -/
lemma attemptUpdates_ok (hcreate : BeginsOne create) (h : models.NonePending)
    (hfree : models.numSuccess o = 0 → models.getNumActiveModels < cMaxModels) :
    ∃ next, attemptUpdates create o models = .ok next ∧ next.NonePending ∧
      next.getNumActiveModels ≤
        models.getNumActiveModels + if models.numSuccess o = 0 then 1 else 0 := by
  rw [attemptUpdates]
  split
  next hnone =>
    have hrange := findNextFreeModel_range h (hfree hnone)
    obtain ⟨next, oppOk, hnext, hpending, hle⟩ := hcreate models.findNextFreeModel o models hrange h
    obtain ⟨i, hi⟩ := slotIndex_ok hrange
    refine ⟨next, ?_, hpending, hle⟩
    simp only [hnext, ok_bind]
    cases oppOk with
    | true =>
      simp only [if_true, hi, ok_bind]
      rfl
    | false => rfl
  next => exact ⟨models, rfl, h, le_refl _⟩

/-- **The spec of an update**: with room for one more model it stays inside the array, and the
measure rises by one at most, if the observation begins a model. -/
lemma updateModels_ok (hcreate : BeginsOne create) (h : models.NonePending)
    (hroom : models.occupied +
      (if models.getNumActiveModels = 0 ∨ models.numSuccess o = 0 then 1 else 0) ≤ cMaxModels) :
    ∃ next, updateModels create o models = .ok next ∧ next.NonePending ∧
      next.occupied ≤ models.occupied +
        if models.getNumActiveModels = 0 ∨ models.numSuccess o = 0 then 1 else 0 := by
  rw [updateModels]
  split
  next hzero =>
    -- the first model goes to slot zero; the observation may begin a second one
    obtain ⟨first, oppOk, hfirst, hpending, hle⟩ := hcreate 0 o models (by decide) h
    rw [hzero] at hle
    simp only [occupied, hzero, true_or, if_true]
    rw [hfirst, ok_bind]
    cases oppOk with
    | false => exact ⟨first, rfl, hpending, by omega⟩
    | true =>
      have hfree : first.getNumActiveModels < cMaxModels := by rw [cMaxModels]; omega
      obtain ⟨next, hnext, hpending, hnextle⟩ :=
        attemptUpdates_ok hcreate hpending (o := o) fun _ => hfree
      refine ⟨next, hnext, hpending, ?_⟩
      have hone : (if first.numSuccess o = 0 then 1 else 0) ≤ 1 := by split <;> omega
      omega
  next hactive =>
    simp only [hactive, false_or, occupied] at hroom ⊢
    obtain ⟨next, hnext, hpending, hle⟩ := attemptUpdates_ok hcreate h (o := o) fun hnone => by
      rw [if_pos hnone] at hroom
      omega
    exact ⟨next, hnext, hpending, by omega⟩

/-- The spec of an update, for one sighting. -/
lemma Sighting.update_ok (x : Sighting) (h : models.NonePending)
    (hroom : models.occupied + (if x.Creates models then 1 else 0) ≤ cMaxModels) :
    ∃ next, x.update models = .ok next ∧ next.NonePending ∧
      next.occupied ≤ models.occupied + if x.Creates models then 1 else 0 := by
  rw [Sighting.update]
  split
  · exact updateModels_ok beginsOne_initSharedModel h hroom
  · exact updateModels_ok beginsOne_initNewModel h hroom

/-- **The updates of a frame stay inside the array** if there is room for all models that they
begin. -/
lemma updateAll_ok (sightings : List Sighting) (h : models.NonePending)
    (hroom : models.occupied + creations sightings models ≤ cMaxModels) :
    ∃ next, updateAll sightings models = .ok next ∧ next.NonePending := by
  induction sightings generalizing models with
  | nil => exact ⟨models, rfl, h⟩
  | cons x sightings ih =>
    rw [creations] at hroom
    obtain ⟨next, hnext, hpending, hle⟩ := x.update_ok h (by omega)
    rw [hnext] at hroom
    simp only [] at hroom
    rw [updateAll, List.foldlM_cons, hnext, ok_bind]
    exact ih hpending (by omega)

/-! ## Merging -/

/-- Merging two models switches one off. -/
lemma mergeTwoModels_ok (j : Fin cMaxModels) (h : models.NonePending) :
    (mergeTwoModels j models).NonePending ∧
      (mergeTwoModels j models).getNumActiveModels ≤ models.getNumActiveModels :=
  ⟨h.set rfl, getNumActiveModels_set_le j ⟨false, false⟩ models⟩

/-- A loop whose body keeps a predicate keeps it. -/
lemma foldl_invariant {α β : Type} {P : α → Prop} {body : α → β → α}
    (hbody : ∀ a b, P a → P (body a b)) (inputs : List β) {a : α} (h : P a) :
    P (inputs.foldl body a) := by
  induction inputs generalizing a with
  | nil => exact h
  | cons b inputs ih => exact ih (hbody a b h)

/-- A pass of merging lets no model wait. -/
lemma NonePending.mergeModelsBelowThreshold (h : models.NonePending)
    (close : Fin cMaxModels → Fin cMaxModels → Bool) :
    (mergeModelsBelowThreshold close models).NonePending := by
  refine foldl_invariant (fun models i h => foldl_invariant (fun models j h => ?_) _ h) _ h
  split
  · exact (mergeTwoModels_ok j h).1
  · exact h

/-- **The spec of the merge loop**: when it ends, few enough models are active. -/
lemma mergeLoop_ok {maxAfterMerge : ℤ}
    {passes : List (Fin cMaxModels → Fin cMaxModels → Bool)} {next : Models}
    (h : models.NonePending) (hnext : mergeLoop maxAfterMerge passes models = .ok next) :
    next.NonePending ∧ (next.getNumActiveModels : ℤ) ≤ maxAfterMerge := by
  induction passes generalizing models with
  | nil =>
    rw [mergeLoop] at hnext
    split at hnext
    · cases hnext
    · cases hnext
      exact ⟨h, by omega⟩
  | cons close passes ih =>
    rw [mergeLoop] at hnext
    split at hnext
    · exact ih (h.mergeModelsBelowThreshold close) hnext
    · cases hnext
      exact ⟨h, by omega⟩

/-- The merge loop uses no index outside the array. -/
lemma mergeLoop_error {maxAfterMerge : ℤ}
    {passes : List (Fin cMaxModels → Fin cMaxModels → Bool)} {e : OppError}
    (he : mergeLoop maxAfterMerge passes models = .error e) : e = .stillMerging := by
  induction passes generalizing models with
  | nil =>
    rw [mergeLoop] at he
    split at he
    · cases he
      rfl
    · cases he
  | cons close passes ih =>
    rw [mergeLoop] at he
    split at he
    · exact ih he
    · cases he

/-- The spec of `MergeModels`: it merges if more than one model may stay. -/
lemma mergeModels_ok {maxAfterMerge : ℤ} {passes : MergePasses} {next : Models}
    (h : models.NonePending) (hnext : mergeModels maxAfterMerge passes models = .ok next) :
    next.NonePending ∧
      (2 ≤ maxAfterMerge → (next.getNumActiveModels : ℤ) ≤ maxAfterMerge) := by
  rw [mergeModels] at hnext
  split at hnext
  · cases hnext
    exact ⟨h, fun htwo => by omega⟩
  · have hmerged := mergeLoop_ok
      ((h.mergeModelsBelowThreshold passes.first).mergeModelsBelowThreshold passes.second) hnext
    exact ⟨hmerged.1, fun _ => hmerged.2⟩

/-- `MergeModels` uses no index outside the array. -/
lemma mergeModels_error {maxAfterMerge : ℤ} {passes : MergePasses} {e : OppError}
    (he : mergeModels maxAfterMerge passes models = .error e) : e = .stillMerging := by
  rw [mergeModels] at he
  split at he
  · cases he
  · exact mergeLoop_error he

/-- No model waits before the first frame. -/
lemma nonePending_noModels : noModels.NonePending := by
  rw [NonePending]
  decide

/-- No model waits after a reset. -/
lemma nonePending_oneModel : oneModel.NonePending := by
  rw [NonePending]
  decide

end Models

/-! ## Every run -/

namespace OppModule

/-- What holds between two calls: no model waits, `max_models_after_merge` is as configured or the
one of a penalty kick, and as configured no more models are active. -/
structure SlotInvariant (maxModels : ℤ) (s : OppModule) : Prop where
  nonePending : s.models.NonePending
  maxModels : s.ukfParams.maxModelsAfterMerge = maxModels ∨ s.ukfParams.maxModelsAfterMerge = 1
  active_le : 2 ≤ s.ukfParams.maxModelsAfterMerge →
    (s.models.getNumActiveModels : ℤ) ≤ s.ukfParams.maxModelsAfterMerge

/-- The number of observations of a frame that begin a model. -/
def creations (f : OppFrame) (s : OppModule) : ℕ :=
  Models.creations (sightings s.ukfParams f) (resets f s).models

/-- The call lets no more observations begin a model than `max_models_after_merge` slots leave
free. -/
def WithinLimit (maxModels : ℤ) : OppAct → Except OppError OppModule → Prop
  | .processFrame f, .ok s => (creations f s : ℤ) ≤ cMaxModels - maxModels
  | _, _ => True

instance (maxModels : ℤ) : ∀ a s, Decidable (WithinLimit maxModels a s)
  | .processFrame _, .ok _ => inferInstanceAs (Decidable (_ ≤ _))
  | .processFrame _, .error _ => inferInstanceAs (Decidable True)
  | .reInit _ _, _ => inferInstanceAs (Decidable True)

/-- The call is not a frame in a penalty kick that is not played yet, and there was none before; or
it is a frame that brings no more observations than slots are left after its resets. -/
def MergesOrRoom : OppAct → Except OppError OppModule → Prop
  | .processFrame f, .ok s =>
    (2 ≤ s.ukfParams.maxModelsAfterMerge ∧ inPenaltyPhase f = false) ∨
      (resets f s).models.occupied + (sightings s.ukfParams f).length ≤ cMaxModels
  | _, _ => True

/-- The reset after a change is `doOpponentReset` or nothing. -/
lemma playerReset_cases (f : OppFrame) (s : OppModule) :
    playerReset f s = s ∨ playerReset f s = doOpponentReset s := by
  rw [playerReset]
  split
  · exact Or.inr rfl
  split
  · exact Or.inr rfl
  · exact Or.inl rfl

instance : ∀ a s, Decidable (MergesOrRoom a s)
  | .processFrame _, .ok _ => inferInstanceAs (Decidable (_ ∨ _))
  | .processFrame _, .error _ => inferInstanceAs (Decidable True)
  | .reInit _ _, _ => inferInstanceAs (Decidable True)

/-- The second reset leaves the parameters alone. -/
lemma ukfParams_resets (f : OppFrame) (s : OppModule) :
    (resets f s).ukfParams = (penaltyReset f s).ukfParams := by
  rw [resets]
  rcases playerReset_cases f (penaltyReset f s) with h | h <;> rw [h]
  rfl

/-- The resets of a frame leave the parameters apart from `max_models_after_merge`. -/
lemma sightings_resets (f : OppFrame) (s : OppModule) :
    sightings (resets f s).ukfParams f = sightings s.ukfParams f := by
  rw [ukfParams_resets, penaltyReset]
  split <;> rfl

/-- The resets keep the invariant. -/
lemma SlotInvariant.resets {maxModels : ℤ} {s : OppModule} (h : SlotInvariant maxModels s)
    (f : OppFrame) : SlotInvariant maxModels (resets f s) := by
  have hone : (Models.oneModel.getNumActiveModels : ℤ) = 1 := by decide
  have hpenalty : SlotInvariant maxModels (penaltyReset f s) := by
    rw [penaltyReset]
    split
    · exact ⟨Models.nonePending_oneModel, Or.inr rfl, fun h => by
        simp only [doPenaltyKickReset] at h; omega⟩
    · exact h
  have hreset (s : OppModule) (h : SlotInvariant maxModels s) :
      SlotInvariant maxModels (doOpponentReset s) :=
    ⟨Models.nonePending_oneModel, h.maxModels, fun htwo => by
      simp only [doOpponentReset] at htwo ⊢; omega⟩
  rw [OppModule.resets]
  rcases playerReset_cases f (penaltyReset f s) with heq | heq <;> rw [heq]
  · exact hpenalty
  · exact hreset _ hpenalty

/-- Without a penalty kick the resets leave `max_models_after_merge` as it is. -/
lemma maxModelsAfterMerge_resets {f : OppFrame} (hphase : inPenaltyPhase f = false)
    (s : OppModule) :
    (resets f s).ukfParams.maxModelsAfterMerge = s.ukfParams.maxModelsAfterMerge := by
  rw [ukfParams_resets, penaltyReset, hphase]
  rfl

/-- **The room of a frame**: within the limit, and if models are merged or there is room, the slots
suffice for all models that the frame begins. -/
lemma room_of_mergesOrRoom {maxModels : ℤ} {f : OppFrame} {s : OppModule}
    (h : SlotInvariant maxModels s) (hlimit : WithinLimit maxModels (.processFrame f) (.ok s))
    (hroom : MergesOrRoom (.processFrame f) (.ok s)) :
    (resets f s).models.occupied + creations f s ≤ cMaxModels := by
  have hle : creations f s ≤ (sightings s.ukfParams f).length := Models.creations_le _ _
  rcases hroom with ⟨hmerges, hphase⟩ | hroom
  · have hlimit : (creations f s : ℤ) ≤ cMaxModels - maxModels := hlimit
    have hmax := maxModelsAfterMerge_resets hphase s
    have hactive := (h.resets f).active_le (by omega)
    have hconfigured := h.maxModels
    rw [Models.occupied]
    omega
  · omega

/-- A frame inside the array: it goes on to the next frame with the invariant, or its merging has
not ended. -/
lemma processFrame_ok {maxModels : ℤ} {f : OppFrame} {s : OppModule}
    (h : SlotInvariant maxModels s) (hlimit : WithinLimit maxModels (.processFrame f) (.ok s))
    (hroom : MergesOrRoom (.processFrame f) (.ok s)) :
    (∃ next, processFrame f s = .ok next ∧ SlotInvariant maxModels next) ∨
      processFrame f s = .error .stillMerging := by
  rw [processFrame]
  split
  · exact Or.inl ⟨s, rfl, h⟩
  have hinv := h.resets f
  have hfree := room_of_mergesOrRoom h hlimit hroom
  rw [creations, ← sightings_resets] at hfree
  obtain ⟨models, hmodels, hpending⟩ := Models.updateAll_ok _ hinv.nonePending hfree
  simp only [observations_eq, hmodels, ok_bind]
  cases hmerge : models.mergeModels (resets f s).ukfParams.maxModelsAfterMerge f.passes with
  | error e =>
    rw [Models.mergeModels_error hmerge]
    exact Or.inr rfl
  | ok next =>
    obtain ⟨hpending, hactive⟩ := Models.mergeModels_ok hpending hmerge
    exact Or.inl ⟨_, rfl, hpending, hinv.maxModels, hactive⟩

/-- The run is inside the array: in a state with the invariant, or in a frame whose merging has not
ended. -/
def InsideArray (maxModels : ℤ) (s : Except OppError OppModule) : Prop :=
  (∃ m, s = .ok m ∧ SlotInvariant maxModels m) ∨ s = .error .stillMerging

/-- **The step lemma**: a call within the limit that has its models merged or finds room stays
inside the array. -/
lemma InsideArray.step {maxModels : ℤ} (a : OppAct)
    (s : Except OppError OppModule)
    (ha : WithinLimit maxModels a s ∧ MergesOrRoom a s) (h : InsideArray maxModels s) :
    InsideArray maxModels (step a s) := by
  rcases h with ⟨m, rfl, hm⟩ | rfl
  · cases a with
    | reInit state team =>
      have hone : (Models.oneModel.getNumActiveModels : ℤ) = 1 := by decide
      refine Or.inl ⟨_, rfl, Models.nonePending_oneModel, hm.maxModels, fun htwo => ?_⟩
      simp only [reInit, doOpponentReset] at htwo ⊢
      omega
    | processFrame f => exact processFrame_ok hm ha.1 ha.2
  · exact Or.inr rfl

/-- The module starts inside the array. -/
lemma insideArray_construct (params : OppLocParams) (state : GameState) (team : ℕ) :
    InsideArray params.maxModelsAfterMerge (.ok (construct params state team)) := by
  have hzero : (Models.noModels.getNumActiveModels : ℤ) = 0 := by decide
  refine Or.inl ⟨_, rfl, Models.nonePending_noModels, Or.inl rfl, fun htwo => ?_⟩
  simp only [construct] at htwo ⊢
  omega

end OppModule

open OppModule

namespace OppModule

/-- An opponent on the grass that every active model rejects. -/
def newcomer : Observation := ⟨fun _ => .outlier, true⟩

/-- A teammate that has sent five such opponents. -/
def newcomersPacket : Models.TeamPacket :=
  ⟨true, .playing, List.replicate 5 ⟨true, 0, false, newcomer⟩⟩

/-- A frame of a penalty kick in which four teammates, the vision, the sonar and both bump sensors
report such opponents. -/
def penaltySetFrame : OppFrame where
  isMemorySatisfied := true
  isPenaltyKick := true
  state := .set
  team := 0
  packets := List.replicate 4 newcomersPacket
  opponents := List.replicate 5 ⟨true, 0, newcomer⟩
  sonar := List.replicate 3 ⟨true, 0, newcomer⟩
  bumpLeft := some newcomer
  bumpRight := some newcomer
  passes := ⟨fun _ _ => true, fun _ _ => true, []⟩

/-- The next frame, in which the kick is played and one teammate reports. -/
def penaltyPlayingFrame : OppFrame where
  isMemorySatisfied := true
  isPenaltyKick := true
  state := .playing
  team := 0
  packets := [newcomersPacket]
  opponents := []
  sonar := []
  bumpLeft := none
  bumpRight := none
  passes := ⟨fun _ _ => true, fun _ _ => true, []⟩

/-- Parameters that keep four models. -/
def fourModels : OppLocParams where
  ignoreVisionDist := 1000
  ignoreSonarDist := 1000
  maxModelsAfterMerge := 4
  useVision := true
  useSonar := true
  useBump := true
  useTeam := true

end OppModule

end NaoSoccer
