import NaoSoccer.Foundation.LabelledRun
import NaoSoccer.Foundation.Outcome
import Mathlib.Algebra.Order.Ring.Rat
import Mathlib.Data.Vector.Basic
import Mathlib.Tactic.NormNum

/-!
# The slots of the opponent filter

`OppModule` keeps its opponent models in an array of `c_MAX_MODELS` slots.  An observation that no
active model takes opens a model in the slot that `FindNextFreeModel` returns, and at the end of the
frame `MergeModels` merges models until few enough are active.

Of a `UKF4` only the two flags decide which slot is used next, so a slot is its two flags.  What the
filters answer to an observation, whether the opponent it shows stands on the grass, and which
models a pass of `MergeModelsBelowThreshold` finds close to each other are inputs of a frame.  An
access to `models` with an index outside the array is an error.
-/

namespace NaoSoccer

open LabelledRun Outcome

/-! ## The slots -/

/-- `OppModule::c_MAX_MODELS` -/
def cMaxModels : ℕ := 34

/-- The flags of a `UKF4`. -/
structure UKF4 where
  isActive : Bool
  toBeActivated : Bool
  deriving DecidableEq, Repr

/-- `ukf4UpdateResult` -/
inductive UKF4UpdateResult
  | outlier
  | ok
  | off
  deriving DecidableEq, Repr

/-- `State` of the game. -/
inductive GameState
  | undefinedState
  | initial
  | ready
  | set
  | playing
  | testing
  | penalised
  | finished
  | falling
  | bottomCam
  | topCam
  | testOdometry
  | manualControl
  deriving DecidableEq, Repr

/-- How a frame can end early: an index outside `models`, or a merge loop that has not ended after
the passes that are listed. -/
inductive OppError
  | outOfRange (index : ℤ)
  | stillMerging
  deriving DecidableEq, Repr

/-- `OppModule::models` -/
abbrev Models := Vector UKF4 cMaxModels

/-- `models[index]` -/
def slotIndex (index : ℤ) : Except OppError (Fin cMaxModels) :=
  if h : 0 ≤ index ∧ index < cMaxModels then .ok ⟨index.toNat, by omega⟩
  else .error (.outOfRange index)

/-- One observation of an opponent: what the filter of each slot would answer to it, and whether the
opponent stands on the grass. -/
structure Observation where
  result : Fin cMaxModels → UKF4UpdateResult
  onGrass : Bool

namespace Models

/-- `OppModule::getNumActiveModels` -/
def getNumActiveModels (models : Models) : ℕ := models.toList.countP UKF4.isActive

/-- `OppModule::FindNextFreeModel` -/
def findNextFreeModel (models : Models) : ℤ :=
  match models.toList.findIdx? fun model => !(model.isActive || model.toBeActivated) with
  | some i => i
  | none => -1

/-- The number of active models that take an observation. -/
def numSuccess (o : Observation) (models : Models) : ℕ :=
  (List.finRange cMaxModels).countP fun i => models[i].isActive && o.result i == .ok

/-- `models[i].isActive = active` -/
def setActive (i : Fin cMaxModels) (active : Bool) (models : Models) : Models :=
  models.set i { models[i] with isActive := active }

/-- `OppModule::initNewModel`.  `UKF4::reInit` leaves the flags as they are. -/
def initNewModel (modelID : ℤ) (o : Observation) (models : Models) :
    Except OppError (Models × Bool) := do
  let i ← slotIndex modelID
  if o.onGrass then return (models.setActive i true, true)
  else return (models.setActive i false, false)

/-- How `OppModule::doSharedOpponentUpdate` begins a model: it does not look at the grass. -/
def initSharedModel (modelID : ℤ) (_ : Observation) (models : Models) :
    Except OppError (Models × Bool) := do
  let i ← slotIndex modelID
  return (models.setActive i true, true)

/-- The attempt to update every active model, and a new model if all of them reject the
observation. -/
def attemptUpdates (create : ℤ → Observation → Models → Except OppError (Models × Bool))
    (o : Observation) (models : Models) : Except OppError Models :=
  if numSuccess o models = 0 then do
    let modelID := models.findNextFreeModel
    let (models, oppOk) ← create modelID o models
    if oppOk then
      -- the first update of the new model
      let _ ← slotIndex modelID
    return models
  else return models

/-- One observation in the update functions, where `create` begins a model. -/
def updateModels (create : ℤ → Observation → Models → Except OppError (Models × Bool))
    (o : Observation) (models : Models) : Except OppError Models :=
  if models.getNumActiveModels = 0 then do
    let (models, oppOk) ← create 0 o models
    if oppOk then attemptUpdates create o models else return models
  else attemptUpdates create o models

/-- `OppModule::doSharedOpponentUpdate` -/
def doSharedOpponentUpdate (o : Observation) (models : Models) : Except OppError Models :=
  updateModels initSharedModel o models

/-- `OppModule::doOpponentBumpUpdate` -/
def doOpponentBumpUpdate (o : Observation) (models : Models) : Except OppError Models :=
  updateModels initNewModel o models

/-- What `OppModule::doOpponentVisionUpdate` reads of an opponent object. -/
structure SeenOpponent where
  seen : Bool
  visionDistance : ℚ
  observation : Observation

/-- `OppModule::doOpponentVisionUpdate` -/
def doOpponentVisionUpdate (ignoreVisionDist : ℚ) (opponents : List SeenOpponent)
    (models : Models) : Except OppError Models :=
  opponents.foldlM (fun models wo =>
    if !wo.seen || wo.visionDistance > ignoreVisionDist then .ok models
    else updateModels initNewModel wo.observation models) models

/-- A direction of the sonar: whether something is there, and how far in meters. -/
structure SonarReading where
  on : Bool
  distance : ℚ
  observation : Observation

/-- `OppModule::doOpponentSonarUpdate`, over the left, the center and the right reading. -/
def doOpponentSonarUpdate (ignoreSonarDist : ℚ) (readings : List SonarReading)
    (models : Models) : Except OppError Models :=
  readings.foldlM (fun models reading =>
    if !reading.on || reading.distance * 1000 / 10 > ignoreSonarDist then .ok models
    else updateModels initNewModel reading.observation models) models

/-- An opponent in a team packet.  `bad` is the test for numbers that are not, standard deviations
that are zero and packets that are too old. -/
structure SharedOpponent where
  filled : Bool
  framesMissed : ℕ
  bad : Bool
  observation : Observation

/-- The opponents that a teammate has sent. -/
structure TeamPacket where
  oppUpdated : Bool
  state : GameState
  opponents : List SharedOpponent

/-- `OppModule::checkOpponentTeamPackets`, over the packets of the other robots of the team. -/
def checkOpponentTeamPackets (packets : List TeamPacket) (models : Models) :
    Except OppError Models :=
  packets.foldlM (fun models packet =>
    if !packet.oppUpdated then .ok models
    else if packet.state ≠ .ready && packet.state ≠ .set && packet.state ≠ .playing then .ok models
    else packet.opponents.foldlM (fun models tp =>
      if !tp.filled || 30 < tp.framesMissed || tp.bad then .ok models
      else doSharedOpponentUpdate tp.observation models) models) models

/-- `OppModule::MergeTwoModels` switches the second model off. -/
def mergeTwoModels (index2 : Fin cMaxModels) (models : Models) : Models :=
  models.set index2 ⟨false, false⟩

/-- `OppModule::MergeModelsBelowThreshold`; `close i j` is the outcome of the comparison of the
metric of the two models with the threshold. -/
def mergeModelsBelowThreshold (close : Fin cMaxModels → Fin cMaxModels → Bool) (models : Models) :
    Models :=
  (List.finRange cMaxModels).foldl (fun models i =>
    (List.finRange cMaxModels).foldl (fun models j =>
      if i < j && models[i].isActive && models[j].isActive && close i j then
        mergeTwoModels j models
      else models) models) models

/-- The loop of `OppModule::MergeModels`, with the comparisons of its passes. -/
def mergeLoop (maxAfterMerge : ℤ) :
    List (Fin cMaxModels → Fin cMaxModels → Bool) → Models → Except OppError Models
  | passes, models =>
    if (models.getNumActiveModels : ℤ) > maxAfterMerge then
      match passes with
      | [] => .error .stillMerging
      | close :: passes => mergeLoop maxAfterMerge passes (mergeModelsBelowThreshold close models)
    else .ok models

/-- The comparisons of the passes of `OppModule::MergeModels`. -/
structure MergePasses where
  first : Fin cMaxModels → Fin cMaxModels → Bool
  second : Fin cMaxModels → Fin cMaxModels → Bool
  loop : List (Fin cMaxModels → Fin cMaxModels → Bool)

/-- `OppModule::MergeModels` -/
def mergeModels (maxAfterMerge : ℤ) (passes : MergePasses) (models : Models) :
    Except OppError Models :=
  if maxAfterMerge ≤ 1 then .ok models
  else mergeLoop maxAfterMerge passes.loop
    (mergeModelsBelowThreshold passes.second (mergeModelsBelowThreshold passes.first models))

/-- All models are switched off. -/
def noModels : Models := Vector.replicate cMaxModels ⟨false, false⟩

/-- The flags after a reset: only the first model is active. -/
def oneModel : Models := noModels.set 0 ⟨true, false⟩ (by decide)

end Models

/-! ## The module -/

/-- The fields of `OppLocParams` that decide about slots. -/
structure OppLocParams where
  ignoreVisionDist : ℚ
  ignoreSonarDist : ℚ
  maxModelsAfterMerge : ℤ
  useVision : Bool
  useSonar : Bool
  useBump : Bool
  useTeam : Bool
  deriving DecidableEq, Repr

/-- The state of `OppModule`. -/
structure OppModule where
  models : Models
  ukfParams : OppLocParams
  previousGameState : GameState
  previousTeam : ℕ
  deriving DecidableEq

/-- What `OppModule::processFrame` reads in one frame. -/
structure OppFrame where
  isMemorySatisfied : Bool
  isPenaltyKick : Bool
  state : GameState
  team : ℕ
  packets : List Models.TeamPacket
  opponents : List Models.SeenOpponent
  sonar : List Models.SonarReading
  bumpLeft : Option Observation
  bumpRight : Option Observation
  passes : Models.MergePasses

/-- A call of the module. -/
inductive OppAct
  | reInit (state : GameState) (team : ℕ)
  | processFrame (frame : OppFrame)

namespace OppModule

/-- `OppModule::doOpponentReset` -/
def doOpponentReset (s : OppModule) : OppModule := { s with models := Models.oneModel }

/-- `OppModule::doPenaltyKickReset` -/
def doPenaltyKickReset (s : OppModule) : OppModule :=
  { s with
    ukfParams := { s.ukfParams with maxModelsAfterMerge := 1 }
    models := Models.oneModel }

/-- `OppModule::reInit` -/
def reInit (state : GameState) (team : ℕ) (s : OppModule) : OppModule :=
  doOpponentReset { s with
    models := Models.noModels
    previousGameState := state
    previousTeam := team }

/-- The frame is in a penalty kick that is not played yet. -/
def inPenaltyPhase (f : OppFrame) : Bool := f.isPenaltyKick && f.state ≠ .playing

/-- The reset of `OppModule::processFrame` for a penalty kick. -/
def penaltyReset (f : OppFrame) (s : OppModule) : OppModule :=
  if inPenaltyPhase f then doPenaltyKickReset s else s

/-- The reset of `OppModule::processFrame` when the game or the team has changed. -/
def playerReset (f : OppFrame) (s : OppModule) : OppModule :=
  if s.previousGameState ≠ f.state && s.previousGameState = .initial && !f.isPenaltyKick then
    doOpponentReset s
  else if s.previousTeam ≠ f.team then doOpponentReset s
  else s

/-- The resets at the beginning of `OppModule::processFrame`. -/
def resets (f : OppFrame) (s : OppModule) : OppModule := playerReset f (penaltyReset f s)

/-- The bump sensor of one side. -/
def bump (o : Option Observation) (models : Models) : Except OppError Models :=
  match o with
  | some o => models.doOpponentBumpUpdate o
  | none => .ok models

/-- An update that a switch of the parameters turns on. -/
def updateIf (on : Bool) (update : Models → Except OppError Models) (models : Models) :
    Except OppError Models :=
  if on then update models else .ok models

/-- The updates from observations in `OppModule::processFrame`. -/
def observations (params : OppLocParams) (f : OppFrame) (models : Models) :
    Except OppError Models := do
  let models ← updateIf params.useTeam (Models.checkOpponentTeamPackets f.packets) models
  -- none of this while penalised
  if f.state = .penalised then
    return models
  let models ← updateIf params.useVision
    (Models.doOpponentVisionUpdate params.ignoreVisionDist f.opponents) models
  let models ← updateIf params.useSonar
    (Models.doOpponentSonarUpdate params.ignoreSonarDist f.sonar) models
  updateIf params.useBump (fun models => bump f.bumpLeft models >>= bump f.bumpRight) models

/-- `OppModule::processFrame` -/
def processFrame (f : OppFrame) (s : OppModule) : Except OppError OppModule :=
  if !f.isMemorySatisfied then .ok s
  else do
    let s := resets f s
    let models ← observations s.ukfParams f s.models
    let models ← models.mergeModels s.ukfParams.maxModelsAfterMerge f.passes
    return { s with models := models, previousGameState := f.state, previousTeam := f.team }

/-- One call. -/
def call : OppAct → OppModule → Except OppError OppModule
  | .reInit state team, s => .ok (reInit state team s)
  | .processFrame f, s => processFrame f s

/-- One call, unless an error has ended the run. -/
def step (a : OppAct) (s : Except OppError OppModule) : Except OppError OppModule := s >>= call a

/-- The module before its first call; the previous state and team are unset. -/
def construct (params : OppLocParams) (state : GameState) (team : ℕ) : OppModule :=
  ⟨Models.noModels, params, state, team⟩

end OppModule

end NaoSoccer
