import NaoSoccer.Core.OppMerging
import NaoSoccer.Foundation.Decimal

/-!
# The updates of the opponent models

An observation of an opponent is first tried on every active model, and each model that takes it is
changed.  If more than one has taken it, all but the best are reverted; if none has, the observation
begins a new model.  The best model is the one with the smallest innovation.

The equations of the filter are not modelled: what they give for an estimate comes with the
observation.
-/

namespace NaoSoccer

open ExactDecimal

/-! ## The filter of a slot -/

/-- The fields of `SmallUKF4Params` that an update reads. -/
structure SmallUKF4Params (K : Type) where
  outlierRejectionThresh : K
  initSdX : K
  initSdY : K
  initSdVel : K

/-- A `UKF4` with what an update saves of it. -/
structure SavingUKF4 (K : Type) extends UKF4Filter K where
  frameUpdated : ℤ
  lastInnov2 : K
  lastStateEstimates : NMatrix K 4 1
  lastStateStandardDeviations : NMatrix K 4 4
  lastFrameUpdated : ℤ

/-- An observation of an opponent at `(oppX, oppY)`, and what the equations of the filter give for
an estimate and its standard deviations. -/
structure OppMeasurement (K : Type) where
  oppX : K
  oppY : K
  innovation2 : NMatrix K 4 1 → NMatrix K 4 4 → K
  innovation2measError : NMatrix K 4 1 → NMatrix K 4 4 → K
  stateEstimates : NMatrix K 4 1 → NMatrix K 4 4 → NMatrix K 4 1
  stateStandardDeviations : NMatrix K 4 1 → NMatrix K 4 4 → NMatrix K 4 4

/-- `OppModule::models` with all fields of the filters -/
abbrev SavingModels (K : Type) := Fin cMaxModels → SavingUKF4 K

variable {K : Type} [Field K] [LinearOrder K]

/-- Off the field: `fabs(oppX) > (GRASS_X/20.0) || fabs(oppY) > (GRASS_Y/20.0)` -/
def OppMeasurement.offField (o : OppMeasurement K) : Bool :=
  o.oppX > decimal 5000 20 || -o.oppX > decimal 5000 20 || o.oppY > decimal 2500 20 ||
    -o.oppY > decimal 2500 20

namespace SavingUKF4

/-- `UKF4::revert` -/
def revert (model : SavingUKF4 K) : SavingUKF4 K :=
  { model with
    stateStandardDeviations := model.lastStateStandardDeviations
    stateEstimates := model.lastStateEstimates
    frameUpdated := model.lastFrameUpdated }

/-- The estimate is saved with the innovation of the observation. -/
def save (o : OppMeasurement K) (model : SavingUKF4 K) : SavingUKF4 K :=
  { model with
    lastInnov2 := o.innovation2 model.stateEstimates model.stateStandardDeviations
    lastStateEstimates := model.stateEstimates
    lastStateStandardDeviations := model.stateStandardDeviations
    lastFrameUpdated := model.frameUpdated }

/-- The estimate that the equations of the filter give. -/
def correct (o : OppMeasurement K) (model : SavingUKF4 K) : SavingUKF4 K :=
  { model with
    stateStandardDeviations :=
      o.stateStandardDeviations model.stateEstimates model.stateStandardDeviations
    stateEstimates := o.stateEstimates model.stateEstimates model.stateStandardDeviations }

/-- `UKF4::opponentDetection` -/
def opponentDetection (params : SmallUKF4Params K) (frameId : ℤ) (o : OppMeasurement K)
    (model : SavingUKF4 K) : UKF4UpdateResult × SavingUKF4 K :=
  if o.offField then (.outlier, model)
  else
    let alpha := model.alpha *
      (1 / (1 + o.innovation2measError model.stateEstimates model.stateStandardDeviations))
    let model : SavingUKF4 K := { save o model with alpha := alpha }
    if model.lastInnov2 > params.outlierRejectionThresh then (.outlier, model)
    else (.ok, correct o { model with frameUpdated := frameId })

/-- `UKF4::linear2MeasurementUpdate`, of the first two states -/
def linear2MeasurementUpdate (params : SmallUKF4Params K) (o : OppMeasurement K)
    (model : SavingUKF4 K) : UKF4UpdateResult × SavingUKF4 K :=
  let model := save o model
  if model.lastInnov2 > params.outlierRejectionThresh then (.outlier, model)
  else (.ok, correct o model)

/-- `stateEstimates[0][0] = x` and `stateEstimates[1][0] = y` -/
def setLocation (x y : K) (model : SavingUKF4 K) : SavingUKF4 K :=
  { model with stateEstimates :=
      ⟨NMatrix.setEntry (NMatrix.setEntry model.stateEstimates.entry 0 0 x) 1 0 y⟩ }

/-- The matrix `m` with the diagonal `a`, `b`, `c`, `d`. -/
def setDiagonal (m : ℕ → ℕ → K) (a b c d : K) : NMatrix K 4 4 :=
  ⟨NMatrix.setEntry (NMatrix.setEntry (NMatrix.setEntry (NMatrix.setEntry m 0 0 a) 1 1 b) 2 2 c)
    3 3 d⟩

/-- `UKF4::init` -/
def init (model : SavingUKF4 K) : SavingUKF4 K :=
  { model with
    alpha := 1
    -- no unit matrix: it would have to be square
    stateEstimates := ⟨fun _ _ => 0⟩
    stateStandardDeviations := setDiagonal (fun _ _ => 0) (150 : ℕ) (100 : ℕ) (10 : ℕ) (10 : ℕ) }

/-- `UKF4::reInit` -/
def reInit (params : SmallUKF4Params K) (model : SavingUKF4 K) : SavingUKF4 K :=
  { model with
    alpha := 1
    lastInnov2 := (999 : ℕ)
    stateEstimates := ⟨fun i j => if i < 4 ∧ j = 0 then 0 else model.stateEstimates.entry i j⟩
    stateStandardDeviations := setDiagonal model.stateStandardDeviations.entry params.initSdX
      params.initSdY params.initSdVel params.initSdVel }

end SavingUKF4

/-! ## The updates of the module -/

namespace SavingModels

/-- The flags of the models. -/
def flags (models : SavingModels K) : Models := Vector.ofFn fun i => (models i).toUKF4

/-- The loop over the models while they try the observation. -/
structure Attempt (K : Type) where
  models : SavingModels K
  numSuccess : ℕ
  bestInnov : K
  bestModel : ℤ

/-- The attempt on model `i`.  `okOnly` is the further test of the update from vision, that the best
model has taken the observation. -/
def attempt (okOnly : Bool) (update : SavingUKF4 K → UKF4UpdateResult × SavingUKF4 K)
    (s : Attempt K) (i : Fin cMaxModels) : Attempt K :=
  if (s.models i).isActive then
    let result := (update (s.models i)).1
    let model := (update (s.models i)).2
    let better := model.lastInnov2 < s.bestInnov && (!okOnly || result == .ok)
    { models := Function.update s.models i model
      numSuccess := if result == .ok then s.numSuccess + 1 else s.numSuccess
      bestInnov := if better then model.lastInnov2 else s.bestInnov
      bestModel := if better then (i : ℕ) else s.bestModel }
  else s

/-- The attempts on all models. -/
def attempts (okOnly : Bool) (update : SavingUKF4 K → UKF4UpdateResult × SavingUKF4 K)
    (models : SavingModels K) : Attempt K :=
  (List.finRange cMaxModels).foldl (attempt okOnly update) ⟨models, 0, (1000 : ℕ), -1⟩

/-- The changes to all but the best model are reverted. -/
def revertOthers (bestModel : ℤ) (models : SavingModels K) : SavingModels K :=
  fun i => if (models i).isActive && ((i : ℕ) : ℤ) ≠ bestModel then (models i).revert else models i

/-- `OppModule::initNewModel` -/
def initNewModel (params : SmallUKF4Params K) (modelID : ℤ) (o : OppMeasurement K)
    (models : SavingModels K) : Except OppError (SavingModels K × Bool) := do
  let i ← slotIndex modelID
  let model := (models i).reInit params
  if o.offField then
    return (Function.update models i { model with isActive := false }, false)
  else
    let model := model.setLocation o.oppX o.oppY
    return (Function.update models i { model with isActive := true, alpha := 1 }, true)

/-- How `OppModule::doSharedOpponentUpdate` begins a model. -/
def initSharedModel (modelID : ℤ) (o : OppMeasurement K) (models : SavingModels K) :
    Except OppError (SavingModels K × Bool) := do
  let i ← slotIndex modelID
  let model := { (models i).init with isActive := true }
  return (Function.update models i (model.setLocation o.oppX o.oppY), true)

/-- The part of the update functions after the models to try are there. -/
def attemptUpdates (okOnly : Bool) (update : SavingUKF4 K → UKF4UpdateResult × SavingUKF4 K)
    (create : ℤ → SavingModels K → Except OppError (SavingModels K × Bool))
    (models : SavingModels K) : Except OppError (SavingModels K) :=
  let s := attempts okOnly update models
  if s.numSuccess = 0 then do
    let modelID := s.models.flags.findNextFreeModel
    let (models, oppOk) ← create modelID s.models
    if oppOk then
      let i ← slotIndex modelID
      return Function.update models i (update (models i)).2
    return models
  else if s.numSuccess > 1 then .ok (revertOthers s.bestModel s.models)
  else .ok s.models

/-- What the update functions share: `update` tries the observation on a model, and `create` begins
a model from it. -/
def updateModels (okOnly : Bool) (update : SavingUKF4 K → UKF4UpdateResult × SavingUKF4 K)
    (create : ℤ → SavingModels K → Except OppError (SavingModels K × Bool))
    (models : SavingModels K) : Except OppError (SavingModels K) :=
  if models.flags.getNumActiveModels = 0 then do
    let (models, oppOk) ← create 0 models
    if oppOk then attemptUpdates okOnly update create models else return models
  else attemptUpdates okOnly update create models

/-- What `OppModule::doOpponentVisionUpdate` reads of an opponent object. -/
structure SeenOpponent (K : Type) where
  seen : Bool
  visionDistance : K
  measurement : OppMeasurement K

/-- A direction of the sonar. -/
structure SonarReading (K : Type) where
  on : Bool
  distance : K
  measurement : OppMeasurement K

/-- The fields of `OppLocParams` and of the frame that an update reads. -/
structure UpdateParams (K : Type) extends SmallUKF4Params K where
  ignoreVisionDist : K
  ignoreSonarDist : K
  frameId : ℤ

variable (params : UpdateParams K)

/-- One opponent of `OppModule::doOpponentVisionUpdate` -/
def doOpponentVisionUpdate (wo : SeenOpponent K) (models : SavingModels K) :
    Except OppError (SavingModels K) :=
  if !wo.seen || wo.visionDistance > params.ignoreVisionDist then .ok models
  else updateModels true
    (SavingUKF4.opponentDetection params.toSmallUKF4Params params.frameId wo.measurement)
    (fun modelID => initNewModel params.toSmallUKF4Params modelID wo.measurement) models

/-- One direction of `OppModule::doOpponentSonarUpdate` -/
def doOpponentSonarUpdate (reading : SonarReading K) (models : SavingModels K) :
    Except OppError (SavingModels K) :=
  if !reading.on || reading.distance * (1000 : ℕ) / (10 : ℕ) > params.ignoreSonarDist then .ok models
  else updateModels false
    (SavingUKF4.opponentDetection params.toSmallUKF4Params params.frameId reading.measurement)
    (fun modelID => initNewModel params.toSmallUKF4Params modelID reading.measurement) models

/-- `OppModule::doOpponentBumpUpdate` -/
def doOpponentBumpUpdate (o : OppMeasurement K) (models : SavingModels K) :
    Except OppError (SavingModels K) :=
  updateModels false (SavingUKF4.opponentDetection params.toSmallUKF4Params params.frameId o)
    (fun modelID => initNewModel params.toSmallUKF4Params modelID o) models

/-- `OppModule::doSharedOpponentUpdate` -/
def doSharedOpponentUpdate (o : OppMeasurement K) (models : SavingModels K) :
    Except OppError (SavingModels K) :=
  updateModels false (SavingUKF4.linear2MeasurementUpdate params.toSmallUKF4Params o)
    (fun modelID => initSharedModel modelID o) models

end SavingModels

/-! ## The four kinds of observations -/

/-- An observation of an opponent. -/
inductive OppObservation (K : Type)
  | vision (wo : SavingModels.SeenOpponent K)
  | sonar (reading : SavingModels.SonarReading K)
  | bump (o : OppMeasurement K)
  | shared (o : OppMeasurement K)

namespace OppObservation

open SavingModels

variable (params : UpdateParams K)

/-- The update of the models from the observation. -/
def update : OppObservation K → SavingModels K → Except OppError (SavingModels K)
  | .vision wo => doOpponentVisionUpdate params wo
  | .sonar reading => doOpponentSonarUpdate params reading
  | .bump o => doOpponentBumpUpdate params o
  | .shared o => doSharedOpponentUpdate params o

/-- The update of one model. -/
def tryOn : OppObservation K → SavingUKF4 K → UKF4UpdateResult × SavingUKF4 K
  | .vision wo =>
    SavingUKF4.opponentDetection params.toSmallUKF4Params params.frameId wo.measurement
  | .sonar reading =>
    SavingUKF4.opponentDetection params.toSmallUKF4Params params.frameId reading.measurement
  | .bump o => SavingUKF4.opponentDetection params.toSmallUKF4Params params.frameId o
  | .shared o => SavingUKF4.linear2MeasurementUpdate params.toSmallUKF4Params o

/-- The observation is passed over, because nothing is seen or it is too far away. -/
def ignored : OppObservation K → Bool
  | .vision wo => !wo.seen || wo.visionDistance > params.ignoreVisionDist
  | .sonar reading => !reading.on || reading.distance * (1000 : ℕ) / (10 : ℕ) > params.ignoreSonarDist
  | .bump _ => false
  | .shared _ => false

end OppObservation

end NaoSoccer
