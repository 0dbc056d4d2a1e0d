import Hailcast.Scaling.Service

/-!
# PodForecastService

How the dashboard turns a prediction document into replicas for an hour bucket, and when that agrees with what
the scaler makes of the same document.
-/

namespace Hailcast

def predictedReplicasFor (cfg : PredictSettings) (demand : ExtRat) : Except PyError Int := cfg.engine.decideFloat demand

/-- The totals are floats, each `+=` rounds. -/
def groupByTargetTime (document : PredictionDocument) : Dict Int ExtRat :=
  Dict.build PredictionItem.targetTime (fun total item => (total.getD 0 + .fin item.predictedDemand).toFloat)
    document.predictions

def nearestTotal (cfg : PredictSettings) (totals : Dict Int ExtRat) (bucket : Int) : Option ExtRat :=
  match closestTo bucket totals.keys with
  | none => none
  | some closest =>
      if timedeltaMinutes cfg.predictionWindowMinutes ≤ (closest - bucket).natAbs then none else totals.get? closest

def predictedForBucket (cfg : PredictSettings) (document : Option PredictionDocument) (bucket : Int) :
    Except PyError (Option Int) := do
  match document with
  | none => return none
  | some document =>
      match nearestTotal cfg (groupByTargetTime document) bucket with
      | none => return none
      | some demand => return some (← predictedReplicasFor cfg demand)

/-! ## Agreement with the scaler -/

def PredictionDocument.itemsAt (document : PredictionDocument) (time : Int) : List PredictionItem :=
  document.predictions.filter (fun item => item.targetTime = time)

/-- The demands of a time, added as floats in the order of the items. -/
def PredictionDocument.sumAt (document : PredictionDocument) (time : Int) : ExtRat :=
  ExtRat.floatSum ((document.itemsAt time).map PredictionItem.predictedDemand)

def PredictionDocument.lastAt (document : PredictionDocument) (time : Int) : ℚ :=
  (((document.itemsAt time).getLast?).map PredictionItem.predictedDemand).getD 0

def PredictionDocument.closestTime (document : PredictionDocument) (clock : Int) : Option Int :=
  closestTo (floorToHour clock) (currentTotals document).keys

/-- `_current_demand` takes the demand of a matched item. -/
def PicksItem (cfg : PredictSettings) (document : PredictionDocument) (clock : Int) : Prop :=
  ∃ closest, document.closestTime clock = some closest ∧
    (closest - floorToHour clock).natAbs ≤ timedeltaMinutes cfg.predictionWindowMinutes

/-- The dashboard has a value for the current hour exactly when the scaler matches an item, and it is the
scaler's. -/
def ForecastsAgree (cfg : PredictSettings) (document : PredictionDocument) (clock : Int) : Prop :=
  ((∃ replicas, predictedForBucket cfg (some document) (floorToHour clock) = .ok (some replicas)) ↔
      PicksItem cfg document clock) ∧
    ∀ replicas, predictedForBucket cfg (some document) (floorToHour clock) = .ok (some replicas) →
      predictedReplicasFor cfg (.fin (currentDemand cfg document clock)) = .ok replicas

/-- The engine gives both demands the same clamped number of replicas. -/
def ScalingDecisionEngine.SameLevel (e : ScalingDecisionEngine) (x y : ExtRat) : Prop :=
  ∃ a b, e.floatRule x = .ok a ∧ e.floatRule y = .ok b ∧ 0 ≤ e.clamp a ∧
    (a = b ∨ (a ≤ e.min ∧ b ≤ e.min) ∨ (e.max ≤ a ∧ e.max ≤ b) ∨ e.max ≤ e.min)

variable {cfg : PredictSettings} {document : PredictionDocument} {clock : Int}

theorem keys_groupByTargetTime (document : PredictionDocument) :
    (groupByTargetTime document).keys = (currentTotals document).keys := Dict.keys_build _ _ _ _

theorem mem_keys_currentTotals {time : Int} :
    time ∈ (currentTotals document).keys ↔ ∃ item ∈ document.predictions, item.targetTime = time :=
  Dict.mem_keys_build

theorem get?_groupByTargetTime {time : Int} (h : time ∈ (currentTotals document).keys) :
    (groupByTargetTime document).get? time = some (document.sumAt time) := by
  rw [groupByTargetTime, PredictionDocument.sumAt, ExtRat.floatSum, List.foldl_map]
  exact Dict.get?_build_fold _ (0 : ExtRat) (fun total item => (total + .fin item.predictedDemand).toFloat) _
    (mem_keys_currentTotals.mp h)

theorem get?_currentTotals (document : PredictionDocument) (time : Int) :
    ((currentTotals document).get? time).getD 0 = document.lastAt time :=
  congrArg (Option.getD · 0) (Dict.get?_build_last _ _ _ _)

theorem closestTo_mem {bucket time : Int} {keys : List Int} (h : closestTo bucket keys = some time) : time ∈ keys :=
  List.argmin_mem h

theorem sumAt_nonneg (document : PredictionDocument) (time : Int) : (document.sumAt time).AtLeast 0 := by
  apply ExtRat.floatSum_nonneg
  intro x hx
  obtain ⟨item, _, rfl⟩ := List.mem_map.mp hx
  exact item.demand_nonneg

theorem lastAt_nonneg (document : PredictionDocument) (time : Int) : 0 ≤ document.lastAt time := by
  unfold PredictionDocument.lastAt
  cases (document.itemsAt time).getLast? with
  | none => exact le_refl 0
  | some item => exact item.demand_nonneg

theorem sameLevel_iff (cfg : PredictSettings) {x y : ExtRat} (hx : x.AtLeast 0) (hy : y.AtLeast 0) :
    cfg.engine.SameLevel x y ↔
      ∃ replicas, predictedReplicasFor cfg x = .ok replicas ∧ predictedReplicasFor cfg y = .ok replicas := by
  simp only [predictedReplicasFor, ScalingDecisionEngine.decideFloat_eq_ok hx,
    ScalingDecisionEngine.decideFloat_eq_ok hy]
  constructor
  · rintro ⟨a, b, hma, hmb, hpos, hab⟩
    have hclamp := ScalingDecisionEngine.clamp_eq_iff.mpr hab
    exact ⟨_, ⟨a, hma, hpos, rfl⟩, b, hmb, hclamp ▸ hpos, hclamp⟩
  · rintro ⟨_, ⟨a, hma, hpos, rfl⟩, b, hmb, _, hclamp⟩
    exact ⟨a, b, hma, hmb, hpos, ScalingDecisionEngine.clamp_eq_iff.mp hclamp⟩

/-- What the dashboard shows for the current hour, in terms of the closest target time. -/
theorem predictedForBucket_closest {time : Int} (h : document.closestTime clock = some time) :
    predictedForBucket cfg (some document) (floorToHour clock) =
      if timedeltaMinutes cfg.predictionWindowMinutes ≤ (time - floorToHour clock).natAbs then .ok none
      else some <$> predictedReplicasFor cfg (document.sumAt time) := by
  have hkeys : closestTo (floorToHour clock) (groupByTargetTime document).keys = some time := by
    rw [keys_groupByTargetTime]; exact h
  unfold predictedForBucket nearestTotal
  simp only [hkeys]
  by_cases hd : timedeltaMinutes cfg.predictionWindowMinutes ≤ (time - floorToHour clock).natAbs
  · rw [if_pos hd, if_pos hd]; rfl
  · rw [if_neg hd, if_neg hd, get?_groupByTargetTime (closestTo_mem h)]
    simp only
    cases predictedReplicasFor cfg (document.sumAt time) <;> rfl

/-- What the scaler takes for the current hour, in terms of the closest target time. -/
theorem currentDemand_closest {time : Int} (h : document.closestTime clock = some time) :
    currentDemand cfg document clock =
      if timedeltaMinutes cfg.predictionWindowMinutes < (time - floorToHour clock).natAbs then
        document.predictedTaxiDemand
      else document.lastAt time := by
  have hkeys : closestTo (floorToHour clock) (currentTotals document).keys = some time := h
  simp only [currentDemand, hkeys, get?_currentTotals]

end Hailcast
