import Hailcast.Common.Dynamo
import Hailcast.Scaling.Step

/-!
# AccuracyCheckService and PredictionAccuracyLogger

One `check_and_record` call is `checkAndRecord`, over the state that it shares with the other schedulers: the
newest prediction document and the scaler. `nycOffset` is what `zoneinfo` gives for New York: the offset at each
instant.
-/

namespace Hailcast

/-! ## The log -/

/-- `_weekday_sunday_zero`: the first day of the epoch is a Thursday. -/
def weekdaySundayZero (wall : Int) : Int := (wall / dayMicros + 4) % 7

/-- The arguments of `record_if_needed` -/
structure AccuracyEntry where
  targetTime : Int
  predictedDemand : ℚ
  actualDemand : ℚ
  localDate : Int
  weekday : Int
  temperature : Option ℚ
  humidity : Option ℚ
  isRaining : Option Bool
deriving DecidableEq

/-- The primary key of the item that `record_if_needed` puts: the UTC date and time of the entry. -/
def AccuracyEntry.key (e : AccuracyEntry) : Str × Str := (.date (e.targetTime / dayMicros), .aware e.targetTime)

def AccuracyEntry.attributes (e : AccuracyEntry) : DynamoItem :=
  [("predicted_demand", .n e.predictedDemand),
    ("actual_demand", .n e.actualDemand),
    ("diff", .n (e.actualDemand - e.predictedDemand)),
    ("날짜", .s (.naive e.localDate)),
    ("요일", .n e.weekday),
    ("승객수", .n e.actualDemand),
    ("학습여부", .n 0)] ++
  (e.temperature.map (fun t => ("온도", AttributeValue.n t))).toList ++
  (e.humidity.map (fun h => ("습도", AttributeValue.n h))).toList ++
  (e.isRaining.map (fun r => ("강수유무", AttributeValue.n (if r then 1 else 0)))).toList

/-- `record_if_needed`: the entry that is put, if it is; `putItem` is what `put_item` raises. -/
def recordIfNeeded (threshold : ℚ) (putItem : Option PyError) (e : AccuracyEntry) :
    Except PyError (Option AccuracyEntry) :=
  let diff := e.actualDemand - e.predictedDemand
  if diff ≤ 0 then .ok none
  else
    let errorRatio := diff / max e.predictedDemand 1
    if errorRatio < threshold then .ok none
    else
      match putItem with
      | some exc => .error exc
      | none => .ok (some e)

/-! ## One check -/

/-- What the outside answers during a check. -/
structure CheckEnv where
  clock : Int
  /-- What the reader raises, if it raises. -/
  readLatest : Option PyError := none
  /-- `self._store.read_json(traffic_json_key)` -/
  trafficBody : Except PyError (Option Json)
  putItem : Option PyError := none

/-- `_read_actual_demand`, the same lines as `_read_actual_traffic` of the scaler -/
def readActualDemand (body : Except PyError (Option Json)) : Except PyError Json := readActualTraffic body

/-- `self._reader.read_latest()`, which raises or returns the newest document. -/
def readNewest (readLatest : Option PyError) (newest : Option PredictionDocument) :
    Except PyError (Option PredictionDocument) :=
  match readLatest with
  | some exc => .error exc
  | none => .ok newest

/-- `_find_weather_item` of the document that the reader returns -/
def findWeatherItem (cfg : PredictSettings) (document : Option PredictionDocument) (targetTime : Int) :
    Option PredictionItem :=
  match document with
  | none => none
  | some document =>
      match document.predictions.argmin (fun item => (item.targetTime - targetTime).natAbs) with
      | none => none
      | some closest =>
          if timedeltaMinutes cfg.predictionWindowMinutes < (closest.targetTime - targetTime).natAbs then none
          else some closest

/-- `check_and_record`: the entry that is put, if one is. -/
def checkAndRecord (cfg : PredictSettings) (nycOffset : Int → Int) (newest : Option PredictionDocument)
    (scaler : ScalerService) (env : CheckEnv) : Except PyError (Option AccuracyEntry) := do
  if !cfg.predictionAccuracyLogEnabled then return none
  match scaler.lastPredictedDemand with
  | none => return none
  | some predicted =>
      match ← readActualDemand env.trafficBody with
      | .null => return none
      | actual =>
          let targetTime := floorToHour env.clock
          let document ← readNewest env.readLatest newest
          let weather := findWeatherItem cfg document targetTime
          let wall := targetTime + nycOffset targetTime
          match ← actual.toNumber with
          | .fin actualDemand =>
              recordIfNeeded cfg.predictionAccuracyErrorRatioThreshold env.putItem {
                targetTime := targetTime
                predictedDemand := predicted
                actualDemand := actualDemand
                localDate := wall
                weekday := weekdaySundayZero wall
                temperature := weather.bind PredictionItem.temperature
                humidity := weather.bind PredictionItem.humidity
                isRaining := weather.bind PredictionItem.isRaining }
          | .inf true => return none
          -- above every threshold; DynamoDB refuses the item, since `inf` and `nan` are no numbers there
          | _ => throw (env.putItem.getD (.awsError "dynamodb" "put_item" "prediction-log"))

/-! ## Runs of the three schedulers -/

/-- The newest saved document, the scaler, and the table of the log. `demandFrom` is the document and the hour
that `last_predicted_demand` was computed from, which the code does not keep. -/
structure AccuracyState where
  newest : Option PredictionDocument := none
  world : World
  accuracyLog : DynamoTable := Dict.empty
  demandFrom : Option (PredictionDocument × Int) := none

inductive AccuracyStep where
  /-- A forecast run saves a document. -/
  | save (document : PredictionDocument)
  /-- A scaling tick, whose reader raises or returns the newest document. -/
  | tick (env : TickEnv) (readLatest : Option PyError)
  | check (env : CheckEnv)
  /-- The process, with both services, starts again. -/
  | restart

def AccuracyState.tickEnv (s : AccuracyState) (env : TickEnv) (readLatest : Option PyError) : TickEnv :=
  { env with document := readNewest readLatest s.newest }

def AccuracyState.step (cfg : PredictSettings) (nycOffset : Int → Int) (s : AccuracyState) :
    AccuracyStep → AccuracyState
  | .save document => { s with newest := some document }
  | .tick env readLatest =>
      let env := s.tickEnv env readLatest
      { s with
        world := s.world.step cfg (.tick env)
        demandFrom :=
          match env.freshDemand cfg with
          | some _ => s.newest.map (fun document => (document, floorToHour env.demandClock))
          | none => s.demandFrom }
  | .check env =>
      match checkAndRecord cfg nycOffset s.newest s.world.service env with
      | .ok (some e) => { s with accuracyLog := DynamoTable.put s.accuracyLog e.key e.attributes }
      | .ok none => s
      | .error _ => s
  | .restart => { s with world := s.world.step cfg .restart, demandFrom := none }

/-- The processes start, with the stored documents and the table as they are. -/
def AccuracyState.start (newest : Option PredictionDocument) (live : Int) (history : List ScalingEvent)
    (log : DynamoTable) : AccuracyState where
  newest := newest
  world := { minReplicaCount := live, scalingHistory := history }
  accuracyLog := log

end Hailcast
