import Hailcast.Accuracy.Theorems
import Hailcast.Prediction.Lemmas
import Hailcast.Prediction.Saving
import Hailcast.Prediction.TargetTimes

/-!
# Forecasts and their records
-/

namespace Hailcast

/-! ## Features of a record -/

/-- A check in the hour of a label writes a record whose features are those that the model was given for the label,
wherever the record stands in a frame. Only a negative window keeps the weather out of the record, which then has
no features. -/
theorem logged_features_eq_forecast (cfg : PredictSettings) (zone : Zone) (s : AccuracyState) (env : CheckEnv)
    (entry : AccuracyEntry) {hour : Int} (hexists : zone.Exists hour) {document : PredictionDocument}
    {item : PredictionItem} (hnewest : s.newest = some document) (hitem : document.itemsAt (zone.utcOf hour) = [item])
    {temperature humidity : ℚ} {isRaining : Bool} (ht : item.temperature = some temperature)
    (hh : item.humidity = some humidity) (hr : item.isRaining = some isRaining)
    (hclock : floorToHour env.clock = zone.utcOf hour) (hw : s.Writes cfg zone.offset env entry) :
    let features := buildFeatures hour temperature humidity isRaining
    let table := (s.step cfg zone.offset (.check env)).accuracyLog
    (∃ record ∈ table.items, record.key = some entry.key) ∧
      (∀ record ∈ table.items, record.key = some entry.key →
        (0 ≤ cfg.predictionWindowMinutes → recordFeatures record = .ok features) ∧
        ∀ (records : List DynamoItem) (rows : List Features) (k : Nat), records[k]? = some record →
          dataframeToFeatures records = .ok rows → rows[k]? = some features) ∧
      ∀ (cfg' : PredictSettings) (env' : ForecastEnv) (rows : List WeatherRow),
        forecastHour cfg' zone env' hour rows = .ok item →
        ∃ row ∈ rows, buildFeatures hour row.temperature row.humidity row.isRaining = features := by
  intro features table
  have htable : table = DynamoTable.put s.accuracyLog entry.key entry.attributes := by
    have hcheck : checkAndRecord cfg zone.offset s.newest s.world.service env = .ok (some entry) := hw
    simp only [table, AccuracyState.step, hcheck]
  have hput : table.get? entry.key = some entry.attributes := by
    rw [htable, DynamoTable.put, Dict.get?_set, if_pos rfl]
  refine ⟨⟨_, DynamoTable.mem_items.mpr ⟨_, _, hput, rfl⟩, DynamoTable.key_item _ _⟩, ?_, ?_⟩
  · intro record hrecord hkey
    obtain rfl : record = DynamoTable.item entry.key entry.attributes := by
      obtain ⟨key, attributes, hget, rfl⟩ := DynamoTable.mem_items.mp hrecord
      obtain rfl : key = entry.key := Option.some.inj hkey
      rw [Option.some.inj (hget.symm.trans hput)]
    by_cases hwin : 0 ≤ cfg.predictionWindowMinutes
    · have hfeatures := recordFeatures_of_writes hexists hnewest hitem ht hh hr hclock hwin hw
      refine ⟨fun _ => hfeatures, ?_⟩
      intro records rows k hk hrows
      obtain ⟨row, hrow, hok⟩ := dataframeToFeatures_row hrows k _ hk
      obtain rfl : features = row := Except.ok.inj (hfeatures.symm.trans hok)
      exact hrow
    · refine ⟨fun h => absurd h hwin, ?_⟩
      intro records rows k hk hrows
      obtain ⟨row, _, hok⟩ := dataframeToFeatures_row hrows k _ hk
      exact absurd hok (recordFeatures_of_no_temperature (temperature_of_negative_window (by omega) hw) row)
  · intro cfg' env' rows hforecast
    obtain ⟨row, hrow, ht', hh', hr'⟩ := forecastHour_row hforecast
    refine ⟨row, hrow, ?_⟩
    rw [Option.some.inj (ht'.symm.trans ht), Option.some.inj (hh'.symm.trans hh), Option.some.inj (hr'.symm.trans hr)]

/-- The first hour after the clocks of New York go forward, 2026-03-08 03:00. -/
def springHour : Int := 1772938800000000

theorem springDemand_nonneg : (0 : ℚ) ≤ 1200 := by norm_num

def springItem : PredictionItem where
  targetTime := newYork.utcOf springHour
  predictedDemand := 1200
  temperature := some 20
  humidity := some 50
  isRaining := some true
  demand_nonneg := springDemand_nonneg
  confidence_mem := PredictionItem.confidence_mem_none

def springDocument : PredictionDocument := ⟨newYork.utcOf springHour, "v1", 60, 1, 1200, [springItem]⟩

/-- A tick has taken its demand from the document. -/
def springState : AccuracyState :=
  (AccuracyState.start (some springDocument) 3 [] Dict.empty).step loggingSettings newYork.offset
    (.tick { firstTick with ageClock := springItem.targetTime, demandClock := springItem.targetTime } none)

def springCheck : CheckEnv := { checkAt59 with clock := springItem.targetTime + 59 * 60000000 }

def springEntry : AccuracyEntry :=
  ⟨newYork.utcOf springHour, 1200, 2000, springHour, 0, some 20, some 50, some true⟩

theorem logged_features_eq_forecast_spring :
    ∃ record ∈ (springState.step loggingSettings newYork.offset (.check springCheck)).accuracyLog.items,
      record.key = some springEntry.key ∧ recordFeatures record = .ok ⟨3, 0, 1, 20, 50, 1⟩ := by
  have hw : springState.Writes loggingSettings newYork.offset springCheck springEntry := by
    unfold AccuracyState.Writes
    decide +kernel
  have hnewest : springState.newest = some springDocument := rfl
  have hexists : newYork.Exists springHour := ⟨newYork.utcOf springHour, by decide +kernel⟩
  obtain ⟨⟨record, hrecord, hkey⟩, hrecords, _⟩ := logged_features_eq_forecast loggingSettings newYork springState
    springCheck springEntry hexists hnewest rfl rfl rfl rfl (by decide +kernel) hw
  refine ⟨record, hrecord, hkey, ?_⟩
  rw [(hrecords record hrecord hkey).1 (by decide)]
  rfl

/-! ## The two readers -/

/-- As long as the documents come in the order of their times, the readers serve the same after every execution
exactly if every execution that writes `latest.json` also gets its rows into the table, just once. -/
theorem forecast_readers_agree (cfg : PredictSettings) (zone : Zone) (s : ForecastStore) (envs : List ForecastEnv)
    (hs : s.Agrees cfg)
    (hlater : EventRun.Along (ForecastStore.step cfg zone) (fun s env => env.Later cfg zone s) s envs) :
    EventRun.Along (ForecastStore.step cfg zone) (fun _ env => env.SavesBoth cfg zone) s envs ↔
      ∀ pre post, envs = pre ++ post → (EventRun.run (ForecastStore.step cfg zone) s pre).Agrees cfg :=
  EventRun.Along.iff_invariant (I := ForecastStore.Agrees cfg) (fun _ _ h hlater => h.step_iff hlater) hs hlater

/-- A forecast at 03:10 of the first summer hour in which everything answers, `k` hours later. -/
def springForecast (k : Int) : ForecastEnv where
  loadLatest := fun _ => .ok (some "v1")
  predict := fun _ _ => .ok 10
  weatherRows := .ok [⟨springHour + k * hourMicros, 20, 50, false⟩]
  clock := newYork.utcOf springHour + k * hourMicros + 600000000
  generatedClock := newYork.utcOf springHour + k * hourMicros + 600000001

/-- The same, with a database that refuses the rows at every attempt. -/
def refusedForecast (k : Int) : ForecastEnv := { springForecast k with dbWrite := fun _ => .refused .sqlAlchemyError }

/-- The same, with a store that refuses `latest.json` at every attempt. -/
def lostForecast (k : Int) : ForecastEnv := { springForecast k with latestWrite := fun _ => .refused .osError }

theorem agrees_empty (cfg : PredictSettings) : ({} : ForecastStore).Agrees cfg := ⟨none, rfl, trivial⟩

theorem forecast_readers_agree_thrice :
    (EventRun.run (ForecastStore.step {} newYork) {}
      [springForecast 0, lostForecast 2, springForecast 4]).Agrees {} := by
  have hlater : EventRun.Along (ForecastStore.step {} newYork) (fun s env => env.Later {} newYork s) {}
      [springForecast 0, lostForecast 2, springForecast 4] := by
    refine ⟨?_, ?_, ?_, trivial⟩
    · intro document _ row hrow
      cases hrow
    · intro document _
      decide +kernel
    · intro document _
      decide +kernel
  have hboth : EventRun.Along (ForecastStore.step {} newYork) (fun _ env => env.SavesBoth {} newYork) {}
      [springForecast 0, lostForecast 2, springForecast 4] :=
    ⟨fun _ _ => Or.inr (by decide), fun _ _ => Or.inl (by decide), fun _ _ => Or.inr (by decide), trivial⟩
  exact (forecast_readers_agree {} newYork {} [springForecast 0, lostForecast 2, springForecast 4] (agrees_empty {})
    hlater).mp hboth _ [] (List.append_nil _).symm

/-- The second forecast is published and its rows are refused: the dashboard has it, and the scaler the first. -/
theorem forecast_readers_differ :
    let s := EventRun.run (ForecastStore.step {} newYork) {} [springForecast 0, refusedForecast 4]
    s.latest.map PredictionDocument.generatedAt = some (refusedForecast 4).generatedClock ∧
      (readLatestDb 60 s.predictions).toOption.map (Option.map PredictionDocument.generatedAt) =
        some (some (springForecast 0).generatedClock) ∧
      ¬ s.Agrees {} := by
  intro s
  have hfile : s.latest.map PredictionDocument.generatedAt = some (refusedForecast 4).generatedClock := by
    decide +kernel
  have htable : (readLatestDb 60 s.predictions).toOption.map (Option.map PredictionDocument.generatedAt) =
      some (some (springForecast 0).generatedClock) := by
    decide +kernel
  refine ⟨hfile, htable, ?_⟩
  rintro ⟨document, hread, hsame⟩
  rw [hread] at htable
  cases hlatest : s.latest with
  | none => simp [hlatest] at hfile
  | some latest =>
      cases document with
      | none => cases htable
      | some document =>
          rw [hlatest] at hsame hfile
          have hnew : latest.generatedAt = (refusedForecast 4).generatedClock := Option.some.inj hfile
          have hold : document.generatedAt = (springForecast 0).generatedClock :=
            Option.some.inj (Option.some.inj htable)
          have htime := hsame.1
          rw [hnew, hold] at htime
          exact absurd htime (by decide +kernel)

/-! ## The table -/

/-- A table filled by saving shaped documents, each of a later time than those before it, gives back the last one. -/
theorem forecast_round_trip (windowMinutes : Int) (documents : List PredictionDocument)
    (hshaped : ∀ d ∈ documents, d.Shaped)
    (horder : documents.Pairwise (fun d d' => d.generatedAt < d'.generatedAt)) :
    readLatestDb windowMinutes (EventRun.run (fun s d => ForecastStore.saveDocument d s) {} documents).predictions =
      .ok documents.getLast? := by
  rw [rows_of_saves, List.nil_append]
  rcases List.eq_nil_or_concat documents with rfl | ⟨earlier, last, rfl⟩
  · rfl
  · rw [List.concat_eq_append] at hshaped horder ⊢
    rw [List.flatMap_append, List.flatMap_singleton, List.getLast?_concat]
    refine readLatestDb_shaped (hshaped last (by simp)) fun row hrow => ?_
    obtain ⟨d, hd, hrow⟩ := List.mem_flatMap.mp hrow
    obtain ⟨item, _, rfl⟩ := List.mem_map.mp hrow
    exact (List.pairwise_append.mp horder).2.2 d hd last (by simp)

theorem twoHours_demand : (0 : ℚ) ≤ 1200 ∧ (0 : ℚ) ≤ 700 := by norm_num

/-- A forecast of two hours, made `k` hours after the first one. -/
def twoHours (k : Int) : PredictionDocument where
  generatedAt := k * hourMicros + 180000000
  modelVersion := "v1"
  predictionWindowMinutes := 60
  horizonSteps := 2
  predictedTaxiDemand := 1200
  predictions := [
    ⟨k * hourMicros, 1200, none, some 20, none, some true, twoHours_demand.1, PredictionItem.confidence_mem_none⟩,
    ⟨(k + 1) * hourMicros, 700, none, none, none, none, twoHours_demand.2, PredictionItem.confidence_mem_none⟩]

theorem twoHours_shaped (k : Int) : (twoHours k).Shaped where
  items := List.cons_ne_nil _ _
  sorted := by simp [twoHours, hourMicros, Int.add_mul]
  demand := rfl
  steps := rfl
  window := show (0 : Int) < 60 by decide

theorem forecast_round_trip_twice :
    readLatestDb 60 (EventRun.run (fun s d => ForecastStore.saveDocument d s) {} [twoHours 0, twoHours 4]).predictions =
      .ok (some (twoHours 4)) :=
  forecast_round_trip 60 [twoHours 0, twoHours 4]
    (by
      intro d hd
      simp only [List.mem_cons, List.not_mem_nil, or_false] at hd
      rcases hd with rfl | rfl <;> exact twoHours_shaped _)
    (by simp [twoHours, hourMicros])

/-- The retried write adds the rows of a document at most once, whether it returns or raises, exactly if no attempt that
raises after its commit is followed by another commit, or there are no rows. -/
theorem db_write_once_iff (cfg : PredictSettings) (document : PredictionDocument)
    (reply : Nat → Retry.WriteReply PyError) (s : ForecastStore) :
    Retry.Ends (fun _ => document.WrittenOnce s) (document.WrittenOnce s)
        (withForecastRetry cfg (fun k => Retry.write (.saveDocument document) (reply k)) s) ↔
      ¬ Retry.CommitsTwice reply cfg.forecastRetryCount ∨ document.predictions = [] := by
  rw [retried_writtenOnce_iff, ← Retry.two_le_writes_iff, not_le, Nat.lt_succ_iff]

/-- The first commit takes effect and its answer is lost, and the second attempt returns. -/
theorem db_write_twice :
    ¬ Retry.Ends (fun _ => (twoHours 0).WrittenOnce {}) ((twoHours 0).WrittenOnce {})
      (withForecastRetry {}
        (fun k => Retry.write (.saveDocument (twoHours 0)) (if k = 1 then .lost .sqlAlchemyError else .ok)) {}) := by
  rw [retried_writtenOnce_iff]
  rintro (h | h)
  · exact absurd h (by decide)
  · cases h

/-! ## The worst case -/

/-- With a model that has been loaded and answers, the document has an item for each of the earliest hours of the rows
that are not past, as many as the horizon allows: the worst case of its hour, and the first of them is the demand of
the document. -/
theorem worst_case_selected (cfg : PredictSettings) (zone : Zone) (env : ForecastEnv) (model : Features → ℚ)
    (rows : List WeatherRow) (version : Option String)
    (hload : Retry.retry PyError.typeError cfg.forecastRetryCount env.loadLatest = .ok version)
    (hmodel : ∀ features attempt, env.predict features attempt = .ok (model features))
    (hrows : env.weatherRows = .ok rows) (hhorizon : 1 ≤ cfg.predictionHorizonHours) :
    let hours := upcomingHours zone env.clock rows
    (hours = [] → ∃ message, forecastDocument cfg zone env = .error (.predictionError message)) ∧
      (hours ≠ [] → ∃ document, forecastDocument cfg zone env = .ok document ∧
        List.Forall₂ (WorstCase zone model rows) (hours.take cfg.predictionHorizonHours.toNat) document.predictions ∧
        document.predictions.head?.map PredictionItem.predictedDemand = some document.predictedTaxiDemand) := by
  intro hours
  have hslice : sliceTo cfg.predictionHorizonHours hours = hours.take cfg.predictionHorizonHours.toNat :=
    if_pos (by omega)
  constructor
  · intro hnil
    refine forecastDocument_none hload hrows ?_
    change sliceTo _ hours = []
    rw [hslice, hnil, List.take_nil]
  · intro hne
    rw [← hslice]
    refine forecastDocument_worst hload hmodel hrows ?_
    change sliceTo _ hours ≠ []
    rw [hslice, ne_eq, List.take_eq_nil_iff]
    rintro (hzero | hnil)
    · omega
    · exact hne hnil

theorem worst_case_selected_spring :
    ∃ document, forecastDocument {} newYork (springForecast 0) = .ok document ∧
      List.Forall₂ (WorstCase newYork (fun _ => 10) [⟨springHour, 20, 50, false⟩])
        ((upcomingHours newYork (springForecast 0).clock [⟨springHour, 20, 50, false⟩]).take 4) document.predictions ∧
      document.predictions.head?.map PredictionItem.predictedDemand = some document.predictedTaxiDemand := by
  refine (worst_case_selected {} newYork (springForecast 0) (fun _ => 10) _ (some "v1") rfl (fun _ _ => rfl) ?_
    (by decide)).2 ?_
  · simp [springForecast]
  · apply List.ne_nil_of_mem
    exact mem_upcomingHours.mpr ⟨⟨_, List.mem_cons_self, rfl⟩, by decide⟩

/-! ## The published hours -/

/-- From a file with the half-hours from the current one on, a forecast publishes the consecutive hours exactly if it
does not go past a repeated hour: the current hour is none, and one that the horizon reaches is the last of the file.
A horizon below zero cuts off the last hours instead. -/
theorem target_times_consecutive_iff (cfg : PredictSettings) (zone : Zone) (env : ForecastEnv) (rows : List WeatherRow)
    (document : PredictionDocument) (hzone : zone.Hourly) (hrows : env.weatherRows = .ok rows)
    (hlabels : HalfHourly zone env.clock rows) (hok : forecastDocument cfg zone env = .ok document) :
    document.predictions.map PredictionItem.targetTime =
        (List.range document.predictions.length).map (hourAfter env.clock) ↔
      ∀ i : ℕ, zone.Repeated (hourAfter env.clock i) → 0 < i ∧
        ((0 ≤ cfg.predictionHorizonHours → i < cfg.predictionHorizonHours) →
          (laterHours rows (zone.wallAt (hourAfter env.clock i))).card ≤ (-cfg.predictionHorizonHours).toNat) := by
  have htimes := targetTimes_forecastDocument hrows hok
  have hlength : document.predictions.length =
      (sliceTo cfg.predictionHorizonHours (upcomingHours zone env.clock rows)).length := by
    simpa using congrArg List.length htimes
  rw [htimes, hlength, consecutive_iff hzone hlabels (prefix_sliceTo _ _)]
  exact not_repeated_iff hzone hlabels (upcomingHours_ne_nil hrows hok)

theorem target_times_consecutive_spring :
    ∃ document, forecastDocument {} newYork (springForecast 0) = .ok document ∧
      document.predictions.map PredictionItem.targetTime =
        (List.range document.predictions.length).map (hourAfter (springForecast 0).clock) := by
  have hhours : sliceTo 4 (upcomingHours newYork (springForecast 0).clock [⟨springHour, 20, 50, false⟩]) ≠ [] := by
    decide +kernel
  obtain ⟨document, hok, -⟩ := @forecastDocument_worst {} newYork (springForecast 0) _ (fun _ => 10) (some "v1") rfl
    (fun _ _ => rfl) (by simp [springForecast]) hhours
  refine ⟨document, hok, (target_times_consecutive_iff {} newYork (springForecast 0) [⟨springHour, 20, 50, false⟩]
    document newYork_hourly (by simp [springForecast]) (by unfold HalfHourly; decide +kernel) hok).mpr ?_⟩
  intro i hrep
  have hlate : 4 ≤ i := by
    have hback := (newYork_hourly.repeated_iff _).mp hrep
    have hclock : floorToHour (springForecast 0).clock = 1772953200000000 := by decide +kernel
    simp only [hourAfter, hclock, Zone.wallAt, newYork, hourMicros] at hback
    split_ifs at hback <;> omega
  refine ⟨by omega, fun hwithin => ?_⟩
  have hlt := hwithin (by decide)
  simp only at hlt
  omega

/-- The labels from 01:00 on 2026-11-01, the morning on which the clocks of New York go back. -/
def autumnRows : List WeatherRow :=
  (List.range 6).map fun k => ⟨newYork.wallAt (1793509200000000 + k * halfHourMicros), 10, 60, false⟩

/-- A forecast ten minutes after the first of them. -/
def autumnForecast : ForecastEnv where
  loadLatest := fun _ => .ok (some "v1")
  predict := fun _ _ => .ok 10
  weatherRows := .ok autumnRows
  clock := 1793509800000000
  generatedClock := 1793509800000001

theorem upcomingHours_autumn :
    upcomingHours newYork autumnForecast.clock autumnRows = [1793494800000000, 1793498400000000] := by
  have hset : (autumnRows.map fun row => floorToHour row.time).toFinset.filter
      (fun h => floorToHour (newYork.wallAt autumnForecast.clock) ≤ h) = {1793494800000000, 1793498400000000} := by
    decide +kernel
  rw [upcomingHours, hset, Finset.sort_insert _ (by simp) (by simp), Finset.sort_singleton]

/-- The hour from 06:00 UTC has the labels of the one before it, and no item. -/
theorem target_times_skip_autumn :
    HalfHourly newYork autumnForecast.clock autumnRows ∧
      ∃ document, forecastDocument {} newYork autumnForecast = .ok document ∧
        document.predictions.map PredictionItem.targetTime = [1793509200000000, 1793516400000000] ∧
        (List.range document.predictions.length).map (hourAfter autumnForecast.clock) =
          [1793509200000000, 1793512800000000] := by
  have hhours : sliceTo 4 (upcomingHours newYork autumnForecast.clock autumnRows) ≠ [] := by
    rw [upcomingHours_autumn]
    decide
  obtain ⟨document, hok, -⟩ := @forecastDocument_worst {} newYork autumnForecast autumnRows (fun _ => 10) (some "v1")
    rfl (fun _ _ => rfl) rfl hhours
  have htimes : document.predictions.map PredictionItem.targetTime = [1793509200000000, 1793516400000000] := by
    rw [targetTimes_forecastDocument rfl hok, upcomingHours_autumn]
    decide +kernel
  have hlength : document.predictions.length = 2 := by
    simpa using congrArg List.length htimes
  refine ⟨by unfold HalfHourly; decide +kernel, document, hok, htimes, ?_⟩
  rw [hlength]
  decide +kernel

end Hailcast
