import Hailcast.Forecast.PodForecast

/-!
# The forecast of the current hour

The scaler and the dashboard read the same document by two nearest-match loops. They differ at the boundary of
the tolerance and on target times that occur more than once.
-/

namespace Hailcast

/-- The two readings of a document agree exactly when it has no item, the closest time is out of reach for both,
or it is in reach of both and its items do not change the level by their number. -/
theorem forecasts_agree_iff (cfg : PredictSettings) (document : PredictionDocument) (clock : Int) :
    ForecastsAgree cfg document clock ↔
      ∀ time, document.closestTime clock = some time →
        timedeltaMinutes cfg.predictionWindowMinutes < (time - floorToHour clock).natAbs ∨
        ((time - floorToHour clock).natAbs < timedeltaMinutes cfg.predictionWindowMinutes ∧
          cfg.engine.SameLevel (document.sumAt time) (.fin (document.lastAt time))) := by
  cases hc : document.closestTime clock with
  | none =>
      have hkeys : closestTo (floorToHour clock) (groupByTargetTime document).keys = none := by
        rw [keys_groupByTargetTime]; exact hc
      have hnone : predictedForBucket cfg (some document) (floorToHour clock) = .ok none := by
        simp only [predictedForBucket, nearestTotal, hkeys]; rfl
      simp [ForecastsAgree, PicksItem, hc, hnone]
  | some time =>
      have hlast : (ExtRat.fin (document.lastAt time)).AtLeast 0 := lastAt_nonneg document time
      have hsame := sameLevel_iff cfg (sumAt_nonneg document time) hlast
      simp only [ForecastsAgree, PicksItem, hc, predictedForBucket_closest hc, currentDemand_closest hc,
        Option.some.injEq, exists_eq_left', forall_eq']
      generalize ((time - floorToHour clock).natAbs : Int) = distance
      rcases lt_trichotomy distance (timedeltaMinutes cfg.predictionWindowMinutes) with h | h | h
      · rw [if_neg (not_le.mpr h), if_neg (not_lt.mpr h.le), hsame]
        cases predictedReplicasFor cfg (document.sumAt time) with
        | error exc => simp [h.le, h, not_lt.mpr h.le]
        | ok replicas => simp [h.le, h, not_lt.mpr h.le]
      · simp [h]
      · simp [h, h.le, not_le.mpr h, not_lt.mpr h.le]

/-- A document whose only item is for the hour that has just ended. -/
def endedDocument : PredictionDocument :=
  ⟨0, "v1", 60, 1, 1300, [⟨0, 1300, none, none, none, none, by norm_num, PredictionItem.confidence_mem_none⟩]⟩

/-- A document with two items for the current hour. -/
def doubledDocument : PredictionDocument :=
  ⟨0, "v1", 60, 2, 1300,
    [⟨0, 1300, none, none, none, none, by norm_num, PredictionItem.confidence_mem_none⟩,
      ⟨0, 400, none, none, none, none, by norm_num, PredictionItem.confidence_mem_none⟩]⟩

/-- One hour after its last target time the scaler still takes the item and the dashboard shows nothing; of two
items for one time the scaler takes the last and the dashboard the sum. -/
theorem forecasts_disagree :
    ¬ ForecastsAgree {} endedDocument hourMicros ∧ ¬ ForecastsAgree {} doubledDocument 0 := by
  constructor
  · intro h
    obtain ⟨replicas, hr⟩ := h.1.mpr ⟨0, by decide, by decide⟩
    have hnone : predictedForBucket {} (some endedDocument) (floorToHour hourMicros) = .ok none := by decide +kernel
    simp [hnone] at hr
  · intro h
    have hfive : predictedForBucket {} (some doubledDocument) (floorToHour 0) = .ok (some 5) := by decide +kernel
    exact absurd (h.2 5 hfive) (by decide +kernel)

end Hailcast
