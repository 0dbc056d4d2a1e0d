import Hailcast.Accuracy.Lemmas
import Hailcast.Prediction.Service

/-!
# The features of a forecast and of its record
-/

namespace Hailcast

variable {cfg : PredictSettings} {zone : Zone} {env : ForecastEnv}

/-! ## The row that wins -/

theorem tryRow_row {hour : Int} {best best' : BestRow} {row : WeatherRow}
    (h : tryRow cfg env hour best row = .ok best') : best'.row = best.row ∨ best'.row = row := by
  obtain ⟨raw, _, h⟩ := bind_eq_ok h
  obtain rfl := Except.ok.inj h
  split
  · exact Or.inr rfl
  · exact Or.inl rfl

theorem foldlM_tryRow {hour : Int} {rows : List WeatherRow} {best best' : BestRow}
    (h : rows.foldlM (tryRow cfg env hour) best = .ok best') : best'.row = best.row ∨ best'.row ∈ rows := by
  induction rows generalizing best with
  | nil =>
      obtain rfl := Except.ok.inj h
      exact Or.inl rfl
  | cons row rows ih =>
      obtain ⟨next, hnext, h⟩ := bind_eq_ok h
      rcases ih h with hrow | hrow
      · rcases tryRow_row hnext with hn | hn
        · exact Or.inl (hrow.trans hn)
        · exact Or.inr (by simp [hrow, hn])
      · exact Or.inr (by simp [hrow])

theorem forecastHour_row {hour : Int} {rows : List WeatherRow} {item : PredictionItem}
    (h : forecastHour cfg zone env hour rows = .ok item) :
    ∃ row ∈ rows, item.temperature = some row.temperature ∧ item.humidity = some row.humidity ∧
      item.isRaining = some row.isRaining := by
  cases rows with
  | nil => cases h
  | cons first rest =>
      obtain ⟨best, hbest, h⟩ := bind_eq_ok h
      obtain rfl := Except.ok.inj h
      refine ⟨best.row, ?_, rfl, rfl, rfl⟩
      rcases foldlM_tryRow hbest with hrow | hrow
      · simp [hrow]
      · exact hrow

/-! ## The record -/

theorem weekdaySundayZero_eq (wall : Int) : weekdaySundayZero wall = Features.weekdaySundayZero wall := by
  simp only [weekdaySundayZero, Features.weekdaySundayZero, Features.weekdayOf]
  omega

theorem toInt_n {n : Int} (h : 0 ≤ n) : (AttributeValue.n n).toInt = .ok n := by
  have hq : (0 : ℚ) ≤ (n : ℚ) := by exact_mod_cast h
  simp [AttributeValue.toInt, Json.toInt, hq]

theorem recordFeatures_entry {entry : AccuracyEntry} {temperature humidity : ℚ} {isRaining : Bool}
    (hweekday : 0 ≤ entry.weekday) (ht : entry.temperature = some temperature) (hh : entry.humidity = some humidity)
    (hr : entry.isRaining = some isRaining) :
    recordFeatures (DynamoTable.item entry.key entry.attributes) = .ok {
      hour := Features.hourOf entry.localDate
      weekday := entry.weekday
      isWeekend := Features.isWeekendOf entry.weekday
      temperature := temperature
      humidity := humidity
      isRaining := if isRaining then 1 else 0 } := by
  have hattributes : entry.attributes =
      [("predicted_demand", .n entry.predictedDemand), ("actual_demand", .n entry.actualDemand),
        ("diff", .n (entry.actualDemand - entry.predictedDemand)), ("날짜", .s (.naive entry.localDate)),
        ("요일", .n entry.weekday), ("승객수", .n entry.actualDemand), ("학습여부", .n 0), ("온도", .n temperature),
        ("습도", .n humidity), ("강수유무", .n (if isRaining then 1 else 0))] := by
    simp [AccuracyEntry.attributes, ht, hh, hr]
  have hrain : (AttributeValue.n (if isRaining then 1 else 0)).toInt = .ok (if isRaining then 1 else 0) := by
    cases isRaining <;> rfl
  rw [hattributes]
  generalize hrecord : DynamoTable.item entry.key _ = record
  have hdate : record.column "날짜" = .ok (.s (.naive entry.localDate)) := by rw [← hrecord]; rfl
  have hday : record.column "요일" = .ok (.n entry.weekday) := by rw [← hrecord]; rfl
  have htemp : record.column "온도" = .ok (.n temperature) := by rw [← hrecord]; rfl
  have hhum : record.column "습도" = .ok (.n humidity) := by rw [← hrecord]; rfl
  have hwet : record.column "강수유무" = .ok (.n (if isRaining then 1 else 0)) := by rw [← hrecord]; rfl
  simp only [recordFeatures, hdate, hday, htemp, hhum, hwet, bind, Except.bind, AttributeValue.toDatetime,
    AttributeValue.toFloat, toInt_n hweekday, hrain]
  rfl

theorem column_temperature_none {entry : AccuracyEntry} (ht : entry.temperature = none) :
    (DynamoTable.item entry.key entry.attributes).column "온도" = .error (.keyError "온도") := by
  have hattr : (DynamoTable.item entry.key entry.attributes).attr "온도" = none := by
    cases hh : entry.humidity <;> cases hr : entry.isRaining <;>
      simp [DynamoTable.item, AccuracyEntry.attributes, DynamoItem.attr, ht, hh, hr]
  simp [DynamoItem.column, hattr]

theorem recordFeatures_of_no_temperature {entry : AccuracyEntry} (ht : entry.temperature = none) (features : Features) :
    recordFeatures (DynamoTable.item entry.key entry.attributes) ≠ .ok features := by
  intro h
  obtain ⟨_, _, h⟩ := bind_eq_ok h
  obtain ⟨_, _, h⟩ := bind_eq_ok h
  obtain ⟨_, _, h⟩ := bind_eq_ok h
  obtain ⟨_, _, h⟩ := bind_eq_ok h
  obtain ⟨_, hcolumn, _⟩ := bind_eq_ok h
  rw [column_temperature_none ht] at hcolumn
  cases hcolumn

theorem dataframeToFeatures_row {records : List DynamoItem} {rows : List Features}
    (h : dataframeToFeatures records = .ok rows) (k : Nat) (record : DynamoItem) (hk : records[k]? = some record) :
    ∃ row, rows[k]? = some row ∧ recordFeatures record = .ok row := by
  induction records generalizing rows k with
  | nil => simp at hk
  | cons first records ih =>
      simp only [dataframeToFeatures, List.mapM_cons] at h
      obtain ⟨row, hrow, h⟩ := bind_eq_ok h
      obtain ⟨rest, hrest, h⟩ := bind_eq_ok h
      obtain rfl := Except.ok.inj h
      cases k with
      | zero =>
          obtain rfl : first = record := by simpa using hk
          exact ⟨row, rfl, hrow⟩
      | succ k => exact ih hrest k (by simpa using hk)

/-! ## The written entry -/

theorem recordFeatures_of_writes {s : AccuracyState} {check : CheckEnv} {entry : AccuracyEntry} {hour : Int}
    (hexists : zone.Exists hour) {document : PredictionDocument} {item : PredictionItem}
    (hnewest : s.newest = some document) (hitem : document.itemsAt (zone.utcOf hour) = [item])
    {temperature humidity : ℚ} {isRaining : Bool} (ht : item.temperature = some temperature)
    (hh : item.humidity = some humidity) (hr : item.isRaining = some isRaining)
    (hclock : floorToHour check.clock = zone.utcOf hour) (hwin : 0 ≤ cfg.predictionWindowMinutes)
    (hw : s.Writes cfg zone.offset check entry) :
    recordFeatures (DynamoTable.item entry.key entry.attributes) =
      .ok (buildFeatures hour temperature humidity isRaining) := by
  obtain ⟨_, _, _, htime, ⟨hdate, hday⟩, htemp, hhum, hrain⟩ := hw.entry_eq
  have hfound : findWeatherItem cfg s.newest entry.targetTime = some item := by
    rw [hnewest, htime, hclock]
    exact findWeatherItem_unique hwin hitem
  rw [hfound] at htemp hhum hrain
  -- the clocks show the label again at the instant that it was read as
  have hwall : entry.localDate = hour := by
    rw [hdate, htime, hclock]
    exact zone.wallAt_utcOf hexists
  have hweekday : entry.weekday = Features.weekdaySundayZero hour := by rw [hday, hwall, weekdaySundayZero_eq]
  have hnonneg : 0 ≤ entry.weekday := by
    rw [hday, weekdaySundayZero]
    exact Int.emod_nonneg _ (by decide)
  rw [recordFeatures_entry hnonneg (htemp.trans ht) (hhum.trans hh) (hrain.trans hr), hwall, hweekday]
  rfl

theorem findWeatherItem_negative {time : Int} (hwin : cfg.predictionWindowMinutes < 0)
    (newest : Option PredictionDocument) : findWeatherItem cfg newest time = none := by
  cases newest with
  | none => rfl
  | some document =>
      simp only [findWeatherItem]
      split
      · rfl
      · rw [if_pos (by unfold timedeltaMinutes; omega)]

theorem temperature_of_negative_window {s : AccuracyState} {check : CheckEnv} {entry : AccuracyEntry}
    (hwin : cfg.predictionWindowMinutes < 0) (hw : s.Writes cfg zone.offset check entry) :
    entry.temperature = none := by
  obtain ⟨_, _, _, _, _, htemp, _, _⟩ := hw.entry_eq
  rw [htemp, findWeatherItem_negative hwin]
  rfl

end Hailcast
