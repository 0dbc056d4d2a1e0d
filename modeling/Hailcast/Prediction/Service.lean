import Hailcast.Common.Zone
import Hailcast.Lib.Dict
import Hailcast.Lib.Retry
import Hailcast.Prediction.Features
import Hailcast.Scaling.Service

/-!
# PredictionService

One `run_forecast` call is `runForecast`, over what the forecasts leave in the store and in the `predictions` table.
What the outside answers during the call is its `ForecastEnv`; the rows of the weather CSV are taken as they are
parsed.
-/

namespace Hailcast

/-- A row of the weather CSV; its time is the wall-clock reading of its label. -/
structure WeatherRow where
  time : Int
  temperature : ℚ
  humidity : ℚ
  isRaining : Bool
deriving DecidableEq

structure ForecastEnv where
  /-- What attempt `k` to load the model gives: the version in its metadata. -/
  loadLatest : Nat → Except PyError (Option String)
  /-- What attempt `k` to predict gives. -/
  predict : Features → Nat → Except PyError ℚ
  /-- `self._load_weather_rows()` -/
  weatherRows : Except PyError (List WeatherRow)
  clock : Int
  generatedClock : Int
  latestWrite : Nat → Retry.WriteReply PyError := fun _ => .ok
  historyWrite : Nat → Retry.WriteReply PyError := fun _ => .ok
  csvWrite : Retry.WriteReply PyError := .ok
  dbWrite : Nat → Retry.WriteReply PyError := fun _ => .ok

/-! ## The forecast -/

/-- `_group_by_hour`: the readings of the hours, each with its rows. -/
def groupByHour (rows : List WeatherRow) : Dict Int (List WeatherRow) :=
  Dict.build (fun row : WeatherRow => floorToHour row.time) (fun old row => old.getD [] ++ [row]) rows

/-- `xs[:n]` -/
def sliceTo {α : Type} (n : Int) (xs : List α) : List α :=
  if 0 ≤ n then xs.take n.toNat else xs.take (xs.length - (-n).toNat)

/-- The hours not before the current one, in order, as far as the horizon goes. -/
def targetHours (cfg : PredictSettings) (zone : Zone) (clock : Int) (hours : List Int) : List Int :=
  let nowLocal := floorToHour (zone.wallAt clock)
  sliceTo cfg.predictionHorizonHours
    ((hours.filter (fun h => decide (nowLocal ≤ h))).mergeSort (fun h h' => decide (h ≤ h')))

structure BestRow where
  demand : ℚ
  row : WeatherRow

def tryRow (cfg : PredictSettings) (env : ForecastEnv) (hour : Int) (best : BestRow) (row : WeatherRow) :
    Except PyError BestRow := do
  let features := buildFeatures hour row.temperature row.humidity row.isRaining
  let raw ← Retry.retry PyError.typeError cfg.forecastRetryCount (env.predict features)
  return if best.demand ≤ raw then ⟨raw, row⟩ else best

theorem pyRound_nonneg {x : ℚ} (h : 0 ≤ x) (digits : Nat) : 0 ≤ pyRound x digits := by
  unfold pyRound
  have hround : 0 ≤ roundHalfEven (x * 10 ^ digits) := roundHalfEven_nonneg (by positivity)
  have hcast : (0 : ℚ) ≤ (roundHalfEven (x * 10 ^ digits) : ℚ) := by exact_mod_cast hround
  positivity

/-- The item of one hour: the row with the greatest demand, of equal ones the last. -/
def forecastHour (cfg : PredictSettings) (zone : Zone) (env : ForecastEnv) (hour : Int) (rows : List WeatherRow) :
    Except PyError PredictionItem :=
  match rows with
  | [] => .error .indexError
  | first :: _ => do
      let best ← rows.foldlM (tryRow cfg env hour) ⟨0, first⟩
      return {
        targetTime := zone.utcOf hour
        predictedDemand := pyRound (max 0 best.demand) 2
        temperature := some best.row.temperature
        humidity := some best.row.humidity
        isRaining := some best.row.isRaining
        demand_nonneg := pyRound_nonneg (le_max_left 0 best.demand) 2
        confidence_mem := PredictionItem.confidence_mem_none }

/-- `_run` up to the document. -/
def forecastDocument (cfg : PredictSettings) (zone : Zone) (env : ForecastEnv) : Except PyError PredictionDocument := do
  let version ← Retry.retry PyError.typeError cfg.forecastRetryCount env.loadLatest
  let rows ← env.weatherRows
  if rows.isEmpty then
    throw (.predictionError
      ("weather forecast CSV empty/missing at '" ++ cfg.weatherCsvKey ++ "' — weather-cron이 먼저 돌아야 한다"))
  let buckets := groupByHour rows
  let hours := targetHours cfg zone env.clock buckets.keys
  if hours.isEmpty then throw (.predictionError "weather forecast CSV has no rows at/after current hour")
  let items ← hours.mapM (fun hour => forecastHour cfg zone env hour ((buckets.get? hour).getD []))
  return {
    generatedAt := env.generatedClock
    modelVersion := version.getD "unknown"
    predictionWindowMinutes := cfg.predictionWindowMinutes
    horizonSteps := items.length
    predictedTaxiDemand := (items.head?.map PredictionItem.predictedDemand).getD 0
    predictions := items }

/-! ## Saving it -/

/-- A row of `predictions`. -/
structure PredictionRow where
  targetTime : Int
  predictedDemand : ℚ
  confidence : Option ℚ
  temperature : Option ℚ
  humidity : Option ℚ
  isRaining : Option Int
  predictionWindowMinutes : Int
  modelVersion : String
  generatedAt : Int

/-- A row of `latest.csv`: `날짜`, `요일`, `시간` and `예측수요`. -/
structure ForecastCsvRow where
  day : Int
  weekday : Int
  hour : Int
  demand : ℚ

/-- What the forecasts leave: `latest.json`, the history by the second in its key, `latest.csv` and the table. The
JSON of a document is kept by the document that it shows. -/
structure ForecastStore where
  latest : Option PredictionDocument := none
  history : Dict Int PredictionDocument := Dict.empty
  csv : Option (List ForecastCsvRow) := none
  predictions : List PredictionRow := []

abbrev ForecastM := EStateM PyError ForecastStore

/-- The row that `save_document` adds for an item. -/
def PredictionDocument.row (document : PredictionDocument) (item : PredictionItem) : PredictionRow where
  targetTime := item.targetTime
  predictedDemand := item.predictedDemand
  confidence := item.confidence
  temperature := item.temperature
  humidity := item.humidity
  isRaining := item.isRaining.map (fun r => if r then 1 else 0)
  predictionWindowMinutes := document.predictionWindowMinutes
  modelVersion := document.modelVersion
  generatedAt := document.generatedAt

def csvRow (zone : Zone) (item : PredictionItem) : ForecastCsvRow :=
  let wall := zone.wallAt item.targetTime
  ⟨wall / dayMicros, Features.weekdaySundayZero wall, Features.hourOf wall, item.predictedDemand⟩

namespace ForecastStore

def putLatest (document : PredictionDocument) (s : ForecastStore) : ForecastStore := { s with latest := some document }

/-- The key has the second of `generated_at`. -/
def putHistory (document : PredictionDocument) (s : ForecastStore) : ForecastStore :=
  { s with history := s.history.set (document.generatedAt / 1000000) document }

def putCsv (zone : Zone) (document : PredictionDocument) (s : ForecastStore) : ForecastStore :=
  { s with csv := some (document.predictions.map (csvRow zone)) }

/-- `save_document` in a transaction of its own, which is committed or rolled back as a whole. -/
def saveDocument (document : PredictionDocument) (s : ForecastStore) : ForecastStore :=
  { s with predictions := s.predictions ++ document.predictions.map document.row }

end ForecastStore

/-- `_with_retry` -/
def withForecastRetry (cfg : PredictSettings) (fn : Nat → ForecastM Unit) : ForecastM Unit :=
  Retry.retry PyError.typeError cfg.forecastRetryCount fn

/-- `_save` -/
def saveForecast (cfg : PredictSettings) (zone : Zone) (env : ForecastEnv) (document : PredictionDocument) :
    ForecastM Unit := do
  withForecastRetry cfg (fun k => Retry.write (.putLatest document) (env.latestWrite k))
  if cfg.predictionKeepHistoryInS3 then
    withForecastRetry cfg (fun k => Retry.write (.putHistory document) (env.historyWrite k))
  Retry.write (.putCsv zone document) env.csvWrite
  withForecastRetry cfg (fun k => Retry.write (.saveDocument document) (env.dbWrite k))

/-- `run_forecast` -/
def runForecast (cfg : PredictSettings) (zone : Zone) (env : ForecastEnv) : ForecastM PredictionDocument :=
  tryCatch
    (do
      match forecastDocument cfg zone env with
      | .error exc => throw exc
      | .ok document => do
          saveForecast cfg zone env document
          return document)
    (fun exc => throw (.forecastFailed exc))

/-- The store after a run, whether it has returned or raised. -/
def ForecastStore.step (cfg : PredictSettings) (zone : Zone) (s : ForecastStore) (env : ForecastEnv) : ForecastStore :=
  match runForecast cfg zone env s with
  | .ok _ s' => s'
  | .error _ s' => s'

end Hailcast
