import Hailcast.Common.Datetime
import Hailcast.Prediction.Service

/-!
# The weather forecast

`OpenMeteoAdapter.fetch_forecast`, `WeatherService.collect`, and `PredictionService._load_weather_rows`, which reads
the CSV that `collect` writes.
-/

namespace Hailcast

/-- What `response.json()` returns; a number is an `int` or a `float`, and `1e999`, `Infinity` and `NaN` are floats. -/
inductive ApiJson where
  | null
  | bool (b : Bool)
  | int (n : Int)
  | float (x : ExtRat)
  | str (s : String)
  | arr (xs : List ApiJson)
  | obj (kvs : List (String × ApiJson))

namespace ApiJson

/-- `len(x)` -/
def len : ApiJson → Except PyError Nat
  | .str s => .ok s.toList.length
  | .arr xs => .ok xs.length
  | .obj kvs => .ok kvs.length
  | _ => .error .typeError

/-- `x[i]`; the keys of an object are strings. -/
def item : ApiJson → Nat → Except PyError ApiJson
  | .str s, i =>
      match s.toList[i]? with
      | some c => .ok (.str (String.singleton c))
      | none => .error .indexError
  | .arr xs, i =>
      match xs[i]? with
      | some x => .ok x
      | none => .error .indexError
  | .obj _, i => .error (.keyError (toString i))
  | _, _ => .error .typeError

/-- `x[i] if i < len(x) else default` -/
def itemOr (x : ApiJson) (i : Nat) (default : ApiJson) : Except PyError ApiJson := do
  let length ← x.len
  if i < length then x.item i else return default

/-- `x > 0` -/
def positive : ApiJson → Except PyError Bool
  | .bool b => .ok b
  | .int n => .ok (decide (0 < n))
  | .float (.fin q) => .ok (decide (0 < q))
  | .float (.inf negative) => .ok !negative
  | .float .nan => .ok false
  | _ => .error .typeError

/-- What `for t in x` goes through. -/
def elements : ApiJson → Except PyError (List ApiJson)
  | .str s => .ok (s.toList.map (fun c => .str (String.singleton c)))
  | .arr xs => .ok xs
  | .obj kvs => .ok (kvs.map (fun kv => .str kv.1))
  | _ => .error .typeError

end ApiJson

/-! ## OpenMeteoAdapter -/

structure ForecastPoint where
  time : String
  temperature : ApiJson
  humidity : ApiJson
  isRaining : Bool

inductive HttpReply where
  /-- `httpx.HTTPError`: no connection, no answer in time, or an error status -/
  | httpError (message : String)
  /-- The body is not JSON. -/
  | notJson
  | json (payload : ApiJson)

inductive FetchError where
  /-- `ExternalApiError` -/
  | external (message : String)
  | raised (exc : PyError)

namespace OpenMeteoAdapter

/-- `t.endswith(":00") or t.endswith(":30")` -/
def isHalfHourly (t : String) : Bool := ":00".toList.isSuffixOf t.toList || ":30".toList.isSuffixOf t.toList

/-- The list of the points, from index `i` on. -/
def pointsFrom (temps hums precs : ApiJson) : Nat → List ApiJson → Except PyError (List ForecastPoint)
  | _, [] => .ok []
  | i, .str t :: times =>
      if isHalfHourly t then do
        let temperature ← temps.itemOr i .null
        let humidity ← hums.itemOr i .null
        let precipitation ← precs.itemOr i (.int 0)
        let isRaining ← precipitation.positive
        let points ← pointsFrom temps hums precs (i + 1) times
        return ⟨t, temperature, humidity, isRaining⟩ :: points
      else pointsFrom temps hums precs (i + 1) times
  | _, _ :: _ => .error .attributeError

/-- `block.get(name, [])` -/
def series (block : List (String × ApiJson)) (name : String) : ApiJson := (Dict.lookup name block).getD (.arr [])

/-- The points of a `minutely_15` block with these times. -/
def blockPoints (block : List (String × ApiJson)) (times : ApiJson) : Except PyError (List ForecastPoint) := do
  let times ← times.elements
  pointsFrom (series block "temperature_2m") (series block "relative_humidity_2m") (series block "precipitation") 0
    times

def fetchForecast : HttpReply → Except FetchError (List ForecastPoint)
  | .httpError message => .error (.external ("open-meteo request failed: " ++ message))
  | .notJson => .error (.raised .valueError)
  | .json (.obj payload) =>
      match Dict.lookup "minutely_15" payload with
      | some (.obj block) =>
          match Dict.lookup "time" block with
          | some times => (blockPoints block times).mapError .raised
          | none => .error (.external "open-meteo response missing 'minutely_15' block")
      | _ => .error (.external "open-meteo response missing 'minutely_15' block")
  | .json _ => .error (.raised .attributeError)

end OpenMeteoAdapter

/-! ## The CSV -/

/-- A field of a CSV file, by what it can be read as; `text` is what spells no number. -/
inductive Cell where
  | text (s : String)
  | int (n : Int)
  | float (x : ExtRat)

structure WeatherCsv where
  header : List String
  rows : List (List Cell)

namespace Cell

/-- `float(x)`, where `None` stands for a field that the row does not have; digits beyond the greatest float are
infinite. -/
def toFloat : Option Cell → Except PyError ExtRat
  | some (.int n) => .ok (.ofRat n)
  | some (.float x) => .ok x
  | some (.text _) => .error .valueError
  | none => .error .typeError

/-- `int(x)` -/
def toInt : Option Cell → Except PyError Int
  | some (.int n) => .ok n
  | some _ => .error .valueError
  | none => .error .typeError

/-- `datetime.strptime(x, "%Y-%m-%d %H:%M:%S")` -/
def toDatetime : Option Cell → Except PyError Datetime
  | some (.text s) => Datetime.strptime s
  | some _ => .error .valueError
  | none => .error .typeError

end Cell

/-! ## WeatherService -/

structure WeatherSettings where
  weatherRetryCount : Nat := 3

/-- The stored CSV, and `last_row_count`. -/
structure WeatherState where
  csv : Option WeatherCsv := none
  lastRowCount : Option Nat := none

structure WeatherEnv where
  /-- What attempt `k` of a call is answered. -/
  reply : Nat → HttpReply
  /-- What the store raises for the write, if it raises. -/
  writeFault : Option PyError := none

namespace WeatherService

def csvFields : List String := ["날짜", "요일", "온도", "습도", "강수유무"]

/-- `round(x, ...) if x is not None else ""`, where `rounded` is what becomes of a float -/
def roundedCell (rounded : ExtRat → Except PyError Cell) : ApiJson → Except PyError Cell
  | .null => .ok (.text "")
  | .bool b => .ok (.int (if b then 1 else 0))
  | .int n => .ok (.int n)
  | .float x => rounded x
  | _ => .error .typeError

/-- `round(x, 1)` of a float -/
def roundTenth : ExtRat → ExtRat
  | .fin q => .fin (pyRound q 1)
  | x => x

/-- `round(x)` of a float -/
def roundWhole : ExtRat → Except PyError Int
  | .fin q => .ok (roundHalfEven q)
  | .inf _ => .error .overflowError
  | .nan => .error .valueError

/-- `round(temperature, 1)` -/
def temperatureCell : ApiJson → Except PyError Cell := roundedCell (fun x => .ok (.float (roundTenth x)))

/-- `round(humidity)` -/
def humidityCell : ApiJson → Except PyError Cell := roundedCell (fun x => (roundWhole x).map .int)

/-- Sunday is 0. -/
def weekdaySundayZero (dt : Datetime) : Int := (dt.weekday + 1) % 7

def toRow (point : ForecastPoint) : Except PyError (List Cell) := do
  let dt ← Datetime.fromisoformat point.time
  let temperature ← temperatureCell point.temperature
  let humidity ← humidityCell point.humidity
  return [.text dt.strftime, .int (weekdaySundayZero dt), temperature, humidity,
    .int (if point.isRaining then 1 else 0)]

/-- `last` is the message of the last failure; without an attempt `raise None` is a `TypeError`. -/
def fetchFrom (reply : Nat → HttpReply) : (left attempt : Nat) → (last : Option String) →
    Except FetchError (List ForecastPoint)
  | 0, _, some message => .error (.external message)
  | 0, _, none => .error (.raised .typeError)
  | left + 1, attempt, _ =>
      match OpenMeteoAdapter.fetchForecast (reply attempt) with
      | .error (.external message) => fetchFrom reply left (attempt + 1) (some message)
      | .error (.raised exc) => .error (.raised exc)
      | .ok points => .ok points

def fetchWithRetry (cfg : WeatherSettings) (reply : Nat → HttpReply) : Except FetchError (List ForecastPoint) :=
  fetchFrom reply cfg.weatherRetryCount 1 none

def collect (cfg : WeatherSettings) (env : WeatherEnv) (s : WeatherState) : Except PyError Nat × WeatherState :=
  match fetchWithRetry cfg env.reply with
  | .error (.external _) => (.ok 0, { s with lastRowCount := some 0 })
  | .error (.raised exc) => (.error exc, s)
  | .ok points =>
      match points.mapM toRow, env.writeFault with
      | .ok rows, none => (.ok rows.length, ⟨some ⟨csvFields, rows⟩, some rows.length⟩)
      | .ok _, some exc => (.error exc, s)
      | .error exc, _ => (.error exc, s)

end WeatherService

/-! ## PredictionService._load_weather_rows -/

/-- A row of `csv.DictReader`: a short one has `None` in its last fields. -/
def dictRow (header : List String) (row : List Cell) : List (String × Option Cell) :=
  header.zip (row.map some ++ List.replicate (header.length - row.length) none)

/-- `r[key]` -/
def rowField (header : List String) (row : List Cell) (key : String) : Except PyError (Option Cell) :=
  match Dict.lookup key (dictRow header row) with
  | some cell => .ok cell
  | none => .error (.keyError key)

/-- A row as it is read; the fields of a `WeatherRow` that are no finite numbers are here too. -/
structure ParsedRow where
  time : Int
  temperature : ExtRat
  humidity : ExtRat
  isRaining : Bool

def WeatherRow.parsed (row : WeatherRow) : ParsedRow :=
  ⟨row.time, .fin row.temperature, .fin row.humidity, row.isRaining⟩

def loadWeatherRow (header : List String) (row : List Cell) : Except PyError ParsedRow := do
  let dt ← Cell.toDatetime (← rowField header row "날짜")
  let temperature ← Cell.toFloat (← rowField header row "온도")
  let humidity ← Cell.toFloat (← rowField header row "습도")
  let rain ← Cell.toInt (← rowField header row "강수유무")
  return ⟨dt.wall, temperature, humidity, decide (rain ≠ 0)⟩

/-- The reader leaves empty lines out. -/
def loadWeatherRows : Option WeatherCsv → Except PyError (List ParsedRow)
  | some csv => (csv.rows.filter (fun row => !row.isEmpty)).mapM (loadWeatherRow csv.header)
  | none => .ok []

end Hailcast
