import Hailcast.Lib.Dict
import Hailcast.Lib.Retry
import Hailcast.Scaling.Engine
import Mathlib.Data.List.MinMax

/-!
# ScalerService

One `run_scaling` call is one run of `runScaling`, over the service object, the `minReplicaCount` of the
ScaledObject and the `scaling_history` table. What the outside answers during the call (the reader, the clock at
each reading, the traffic file, each attempt of a Kubernetes call, the database) is its `TickEnv`.
-/

namespace Hailcast

/-- The fields of `PredictSettings` that the modelled services read. -/
structure PredictSettings where
  predictionWindowMinutes : Int := 60
  scalingCooldownSeconds : ℚ := 300
  scalingDemandPerPod : ℚ := 500
  scalingBufferPods : Int := 1
  scalingMinReplicas : Int := 1
  scalingMaxReplicas : Int := 10
  predictionMaxAgeSeconds : ℚ := 14400
  scalingRetryCount : Nat := 3
  scalingWatermarkHigh : ℚ := 4 / 5
  scalingWatermarkLow : ℚ := 2 / 5
  scalingReactiveStep : Int := 1
  predictionAccuracyLogEnabled : Bool := false
  predictionAccuracyErrorRatioThreshold : ℚ := 3 / 10
  predictionHorizonHours : Int := 4
  forecastRetryCount : Nat := 3
  weatherCsvKey : String := "weather/nyc-forecast.csv"
  predictionKeepHistoryInS3 : Bool := true
  predictionIntervalSeconds : ℚ := 14400
  predictionS3Prefix : String := "predictions"
  modelS3Prefix : String := "models"
  healthQueueBacklogWarning : Int := 1000
  healthWeatherMaxAgeSeconds : ℚ := 18000
  sqsQueueName : String := "hailcast-dev-call-queue"
  sqsAutoCreateQueue : Bool := false
  s3Bucket : String := "hailcast-dev-model-artifacts"

/-- `get_decision_engine` -/
def PredictSettings.engine (cfg : PredictSettings) : ScalingDecisionEngine :=
  ⟨cfg.scalingDemandPerPod, cfg.scalingBufferPods, cfg.scalingMinReplicas, cfg.scalingMaxReplicas⟩

/-! ## State -/

/-- The texts of `last_decision`, with the utilization that they show. -/
inductive DecisionNote where
  | rule (r : MatchedRule)
  | reactiveHold (utilization : ExtRat)
  | reactiveUp (utilization : ExtRat)
  | reactiveDown (utilization : ExtRat)
deriving DecidableEq

/-- The fields of the `ScalerService` object. -/
structure ScalerService where
  lastPredictedDemand : Option ℚ := none
  lastDecision : Option DecisionNote := none
  lastScalingAt : Option Int := none
  reactiveHoldReplicas : Option Int := none

namespace ScalerService

def noteDemand (s : ScalerService) (demand : ℚ) : ScalerService := { s with lastPredictedDemand := some demand }

def noteDecision (s : ScalerService) (note : Option DecisionNote) : ScalerService := { s with lastDecision := note }

def noteScaling (s : ScalerService) (time : Int) : ScalerService := { s with lastScalingAt := some time }

def noteHold (s : ScalerService) (hold : Option Int) : ScalerService := { s with reactiveHoldReplicas := hold }

end ScalerService

inductive ScalingAction where
  | scaleUp
  | scaleDown
deriving DecidableEq

/-- A row of `scaling_history`. -/
structure ScalingEvent where
  predictedDemand : ℚ
  oldReplica : Int
  newReplica : Int
  action : ScalingAction
  reason : Option DecisionNote
  modelVersion : String
  createdAt : Int

/-- A patch that took effect on the ScaledObject. -/
structure Change where
  time : Int
  oldReplica : Int
  newReplica : Int

/-- Everything that `run_scaling` reads and writes. `patched` lists the arguments of `patch_min_replicas` and
`changes` the patches that took effect, the latest first; the code keeps neither. -/
structure World where
  service : ScalerService := {}
  minReplicaCount : Int
  scalingHistory : List ScalingEvent := []
  patched : List Int := []
  changes : List Change := []

def World.withService (w : World) (service : ScalerService) : World := { w with service := service }

def World.applyPatch (w : World) (time replicas : Int) : World :=
  { w with minReplicaCount := replicas, changes := ⟨time, w.minReplicaCount, replicas⟩ :: w.changes }

def World.callPatch (w : World) (replicas : Int) : World := { w with patched := replicas :: w.patched }

def World.saveEvent (w : World) (event : ScalingEvent) : World :=
  { w with scalingHistory := w.scalingHistory ++ [event] }

/-! ## The answers of the outside -/

/-- How an attempt of `patch_min_replicas` ends. -/
inductive PatchReply where
  | applied (time : Int)
  /-- It raises and nothing has changed. -/
  | refused (exc : PyError)
  /-- It takes effect, and the read after it raises. -/
  | lost (time : Int) (exc : PyError)

inductive HistoryReply where
  | commits (createdAt : Int)
  /-- The insert or the commit raises, and the transaction is rolled back. -/
  | fails (exc : PyError)

structure TickEnv where
  /-- `self._reader.read_latest()` -/
  document : Except PyError (Option PredictionDocument)
  ageClock : Int
  demandClock : Int
  /-- What attempt `k` of `get_min_replicas` raises, if it raises. -/
  kedaRead : Nat → Option PyError := fun _ => none
  /-- `self._store.read_json(traffic_json_key)` -/
  trafficBody : Except PyError (Option Json)
  /-- What the query of the last event raises, if it raises. -/
  lastEvent : Option PyError := none
  cooldownClock : Int
  patch : Nat → PatchReply
  appliedClock : Int
  history : HistoryReply

abbrev ScalerM := EStateM PyError World

def liftExcept {α : Type} : Except PyError α → ScalerM α
  | .ok a => pure a
  | .error e => throw e

def modifyService (f : ScalerService → ScalerService) : ScalerM Unit :=
  modify (fun w => w.withService (f w.service))

/-- `_with_retry`; without any attempt it is `raise None`, a `TypeError`. -/
def withRetry {α : Type} (count : Nat) (fn : Nat → ScalerM α) : ScalerM α := Retry.retry PyError.typeError count fn

/-! ## The demand of the current hour -/

/-- `min(keys, key=lambda t: abs(t - bucket))`: the first of the closest ones. -/
def closestTo (bucket : Int) (keys : List Int) : Option Int := keys.argmin (fun t => (t - bucket).natAbs)

/-- `{item.target_time: item.predicted_demand for item in document.predictions}` -/
def currentTotals (document : PredictionDocument) : Dict Int ℚ :=
  Dict.build PredictionItem.targetTime (fun _ item => item.predictedDemand) document.predictions

def currentDemand (cfg : PredictSettings) (document : PredictionDocument) (clock : Int) : ℚ :=
  let now := floorToHour clock
  let totals := currentTotals document
  match closestTo now totals.keys with
  | none => document.predictedTaxiDemand
  | some closest =>
      if timedeltaMinutes cfg.predictionWindowMinutes < (closest - now).natAbs then document.predictedTaxiDemand
      else (totals.get? closest).getD 0

/-! ## Reactive adjustment -/

/-- `_read_actual_traffic`: the number, or `None`, that `hourly_requests` holds. -/
def readActualTraffic (body : Except PyError (Option Json)) : Except PyError Json := do
  match ← body with
  | none => return .null
  | some body => if body.truthy then body.get "hourly_requests" .null else return .null

/-- `traffic / capacity if capacity > 0 else 1.0` -/
def utilization (cfg : PredictSettings) (traffic : Json) (current : Int) : Except PyError ExtRat :=
  let capacity := current * cfg.scalingDemandPerPod
  if 0 < capacity then (· / .fin capacity) <$> traffic.toNumber else .ok (.fin 1)

structure Adjustment where
  desired : Int
  note : Option DecisionNote
  hold : Option Int

/-- The part of the adjustment after the check of the hold. -/
def adjustReleased (cfg : PredictSettings) (lastDecision : Option DecisionNote) (baseline current : Int)
    (utilization : ExtRat) : Adjustment :=
  if utilization.AtLeast cfg.scalingWatermarkHigh then
    let bumped := current + cfg.scalingReactiveStep
    ⟨bumped, some (.reactiveUp utilization), some bumped⟩
  else if utilization.AtMost cfg.scalingWatermarkLow ∧ baseline < current then
    ⟨max baseline (current - cfg.scalingReactiveStep), some (.reactiveDown utilization), none⟩
  else ⟨baseline, lastDecision, none⟩

/-- `_apply_reactive_adjustment`, with the hold before and after it. -/
def applyReactiveAdjustment (cfg : PredictSettings) (traffic : Json) (hold : Option Int)
    (lastDecision : Option DecisionNote) (baseline current : Int) : Except PyError Adjustment :=
  match traffic with
  | .null => .ok ⟨baseline, lastDecision, none⟩
  | traffic => do
      let utilization ← utilization cfg traffic current
      match hold with
      | none => return adjustReleased cfg lastDecision baseline current utilization
      | some held =>
          if utilization.AtMost cfg.scalingWatermarkLow then
            return adjustReleased cfg lastDecision baseline current utilization
          else return ⟨max held baseline, some (.reactiveHold utilization), some held⟩

/-! ## Cooldown -/

def lastEventTime (rows : List ScalingEvent) : Option Int := (rows.map ScalingEvent.createdAt).max?

def cooldownRemaining (cfg : PredictSettings) (query : Option PyError) (clock : Int) : ScalerM ℚ := do
  let w ← get
  let last ←
    match w.service.lastScalingAt with
    | some last => pure (some last)
    | none =>
        match query with
        | some exc => throw exc
        | none =>
            match lastEventTime w.scalingHistory with
            | some last => do
                modifyService (fun s => s.noteScaling last)
                pure (some last)
            | none => pure none
  match last with
  | none => return 0
  | some last => return max 0 (cfg.scalingCooldownSeconds - totalSeconds (clock - last))

/-! ## One scaling run -/

def getMinReplicas (env : TickEnv) (attempt : Nat) : ScalerM Int := do
  match env.kedaRead attempt with
  | some exc => throw exc
  | none => return (← get).minReplicaCount

def patchMinReplicas (env : TickEnv) (replicas : Int) (attempt : Nat) : ScalerM Int := do
  modify (fun w => w.callPatch replicas)
  match env.patch attempt with
  | .applied time => do
      modify (fun w => w.applyPatch time replicas)
      return (← get).minReplicaCount
  | .refused exc => throw exc
  | .lost time exc => do
      modify (fun w => w.applyPatch time replicas)
      throw exc

/-- What `run_scaling` has found out when it has left the reactive layer. -/
structure Plan where
  document : PredictionDocument
  demand : ℚ
  current : Int
  desired : Int
  note : Option DecisionNote

/-- The arguments of `save_event`, with the `created_at` that the database sets. -/
def Plan.event (plan : Plan) (applied : Int) (createdAt : Int) : ScalingEvent where
  predictedDemand := plan.demand
  oldReplica := plan.current
  newReplica := applied
  action := if plan.current < applied then .scaleUp else .scaleDown
  reason := plan.note
  modelVersion := plan.document.modelVersion
  createdAt := createdAt

/-- `run_scaling` from the read of the current replicas to the reactive layer. -/
def adjustPlan (cfg : PredictSettings) (env : TickEnv) (document : PredictionDocument) (demand : ℚ)
    (baseline : ScalingDecision) : ScalerM Plan := do
  let current ← withRetry cfg.scalingRetryCount (getMinReplicas env)
  let traffic ← liftExcept (readActualTraffic env.trafficBody)
  let service := (← get).service
  let adjusted ← liftExcept (applyReactiveAdjustment cfg traffic service.reactiveHoldReplicas
    service.lastDecision baseline.desiredReplicas current)
  modifyService (fun s => (s.noteHold adjusted.hold).noteDecision adjusted.note)
  return ⟨document, demand, current, adjusted.desired, adjusted.note⟩

/-- `run_scaling` up to the reactive layer; `none` when the run is skipped. -/
def planScaling (cfg : PredictSettings) (env : TickEnv) : ScalerM (Option Plan) := do
  match ← liftExcept env.document with
  | none => return none
  | some document =>
      let age := totalSeconds (env.ageClock - document.generatedAt)
      if cfg.predictionMaxAgeSeconds < age then return none
      let demand := currentDemand cfg document env.demandClock
      modifyService (fun s => s.noteDemand demand)
      let signals ← liftExcept (ScalingSignals.ofDemand demand)
      let baseline ← liftExcept (cfg.engine.decide signals)
      modifyService (fun s => s.noteDecision (some (.rule baseline.matchedRule)))
      return some (← adjustPlan cfg env document demand baseline)

def saveHistoryEvent (env : TickEnv) (plan : Plan) (applied : Int) : ScalerM Unit := do
  match env.history with
  | .fails exc => throw exc
  | .commits createdAt => modify (fun w => w.saveEvent (plan.event applied createdAt))

/-- The patch with its retries, and the history of a patch that returned. -/
def changeReplicas (cfg : PredictSettings) (env : TickEnv) (plan : Plan) : ScalerM Unit := do
  let applied ← tryCatch (withRetry cfg.scalingRetryCount (patchMinReplicas env plan.desired))
    (fun exc => throw (.scalingError "keda patch failed after retries: " exc))
  modifyService (fun s => s.noteScaling env.appliedClock)
  saveHistoryEvent env plan applied

/-- `run_scaling` from the comparison of the desired with the current replicas on. -/
def applyPlan (cfg : PredictSettings) (env : TickEnv) (plan : Plan) : ScalerM Unit := do
  if plan.desired = plan.current then return
  else if plan.desired < plan.current then
    if 0 < (← cooldownRemaining cfg env.lastEvent env.cooldownClock) then return
    else changeReplicas cfg env plan
  else changeReplicas cfg env plan

def runScaling (cfg : PredictSettings) (env : TickEnv) : ScalerM Unit := do
  match ← planScaling cfg env with
  | none => return
  | some plan => applyPlan cfg env plan

/-- `preview`: the current replicas, and what the newest document asks for. -/
def preview (cfg : PredictSettings) (env : TickEnv) : ScalerM (Int × Option (ℚ × Int × Int)) := do
  let current ← getMinReplicas env 1
  match ← liftExcept env.document with
  | none => return (current, none)
  | some document =>
      let demand := currentDemand cfg document env.demandClock
      let decision ← liftExcept (ScalingSignals.ofDemand demand >>= cfg.engine.decide)
      return (current, some (demand, decision.desiredReplicas, document.generatedAt))

/-! ## Runs of the service -/

def finalWorld {α : Type} : EStateM.Result PyError World α → World
  | .ok _ w => w
  | .error _ w => w

/-- What happens to the service: scheduler ticks, status calls, and restarts of the process. -/
inductive ScalerStep where
  | tick (env : TickEnv)
  | cooldownStatus (query : Option PyError) (clock : Int)
  | preview (env : TickEnv)
  | restart

/-- A tick that raises is logged by the scheduler, and a status call that raises is answered with an error:
the service goes on from the state that the call left. -/
def World.step (cfg : PredictSettings) (w : World) : ScalerStep → World
  | .tick env => finalWorld (runScaling cfg env w)
  | .cooldownStatus query clock => finalWorld (cooldownRemaining cfg query clock w)
  | .preview env => finalWorld (Hailcast.preview cfg env w)
  | .restart => w.withService {}

end Hailcast
