import Hailcast.Common.Json

/-!
# Predictions, signals and decisions

The fields of the schema classes, with the constraints that the schema checks.
-/

namespace Hailcast

/-- `PredictionItem`: the forecast of one time window. -/
structure PredictionItem where
  targetTime : Int
  predictedDemand : ℚ
  confidence : Option ℚ := none
  temperature : Option ℚ := none
  humidity : Option ℚ := none
  isRaining : Option Bool := none
  demand_nonneg : 0 ≤ predictedDemand
  confidence_mem : ∀ c ∈ confidence, 0 ≤ c ∧ c ≤ 1

theorem PredictionItem.confidence_mem_none : ∀ c ∈ (none : Option ℚ), 0 ≤ c ∧ c ≤ 1 := by
  intro c hc
  cases hc

structure PredictionDocument where
  generatedAt : Int
  modelVersion : String
  predictionWindowMinutes : Int
  horizonSteps : Int
  predictedTaxiDemand : ℚ
  predictions : List PredictionItem

structure ScalingSignals where
  predictedDemand : ℚ
  demand_nonneg : 0 ≤ predictedDemand

/-- `ScalingSignals(predicted_demand=demand)` -/
def ScalingSignals.ofDemand (demand : ℚ) : Except PyError ScalingSignals :=
  if h : 0 ≤ demand then .ok ⟨demand, h⟩ else .error (.validationError "predicted_demand")

/-- The texts of `ScalingDecision.matched_rule`, with the values that they show. -/
inductive MatchedRule where
  /-- `"demand=0 -> 1 (버퍼 없음)"` -/
  | noDemand
  /-- `f"ceil({demand:g}/{demand_per_pod:g})+{buffer} -> {desired}"` -/
  | perPod (demand demandPerPod : ℚ) (buffer desired : Int)
deriving DecidableEq

/-- `f"predicted_demand={demand:g}, rule[{matched}]"`, with `f", clamped to [{min},{max}]"` when it was. -/
structure DecisionReason where
  demand : ℚ
  matched : MatchedRule
  clampedTo : Option (Int × Int)
deriving DecidableEq

structure ScalingDecision where
  desiredReplicas : Int
  matchedRule : MatchedRule
  reason : DecisionReason
deriving DecidableEq

end Hailcast
