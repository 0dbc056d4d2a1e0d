import Hailcast.Batch.Predict
import Hailcast.Lib.LeftJoin
import Hailcast.Prediction.Service

/-!
# The training data

`ml/preprocess.py`, which joins the taxi counts with the archived weather, and what `ml/train.py` makes of the file
that it writes. Frames are lists of rows, floats are rationals, and the cells of the file are kept by what they read as.
NaN and NaT are `none`.
-/

namespace Hailcast

/-! ## Preprocessing -/

/-- A row of `taxi_df`. -/
structure TaxiRow where
  pickupTimestamp : Option Int
  passengerCount : Option ℚ

/-- `hourly` of the archive's answer -/
structure ArchiveHourly where
  time : List Int
  temperature2m : List (Option ℚ)
  relativeHumidity2m : List (Option ℚ)
  precipitation : List (Option ℚ)

/-- A row of `weather_df`. -/
structure ArchiveRow where
  hour : Int
  temperature : Option ℚ
  humidity : Option ℚ
  precipitation : Option ℚ

inductive DatasetError where
  /-- `requests.RequestException` -/
  | request
  | valueError
  /-- `ValueError(f"날씨 미매칭 타임스탬프 {count}건: {first} ...")` -/
  | unmatched (count : Nat) (first : List (Option Int))

/-- A row of `nycTaxiWeather.csv`: `날짜`, `요일`, `승객수`, `온도`, `습도` and `강수유무`. -/
structure DatasetRow where
  date : Int
  weekday : Int
  passengers : Int
  temperature : ℚ
  humidity : Int
  isRaining : Int
deriving DecidableEq

/-- `int(q)` -/
def truncate (q : ℚ) : Int := if 0 ≤ q then ⌊q⌋ else ⌈q⌉

/-- The frame of `fetch_weather`; its columns need one length. -/
def fetchWeather (hourly : ArchiveHourly) : Except DatasetError (List ArchiveRow) :=
  if hourly.time.length = hourly.temperature2m.length ∧ hourly.time.length = hourly.relativeHumidity2m.length ∧
      hourly.time.length = hourly.precipitation.length then
    .ok ((hourly.time.zip (hourly.temperature2m.zip (hourly.relativeHumidity2m.zip hourly.precipitation))).map
      fun row => ⟨row.1, row.2.1, row.2.2.1, row.2.2.2⟩)
  else .error .valueError

/-- `Series.round(1)`: ten times the number is rounded, and that product is a float. -/
def seriesRound (x : ℚ) : ℚ := roundHalfEven (FloatFormat.binary64.round (x * 10)) / 10

abbrev MergedRow := TaxiRow × Option ArchiveRow

namespace MergedRow

def temperature (row : MergedRow) : Option ℚ := row.2.bind ArchiveRow.temperature

def humidity (row : MergedRow) : Option ℚ := row.2.bind ArchiveRow.humidity

def precipitation (row : MergedRow) : Option ℚ := row.2.bind ArchiveRow.precipitation

/-- One of the three columns is NaN. -/
def isna (row : MergedRow) : Bool := row.temperature.isNone || row.humidity.isNone || row.precipitation.isNone

/-- The row of `out`; the time of a row with weather is one, and a NaN among the counts is no `int`. -/
def toOut (row : MergedRow) : Except DatasetError DatasetRow :=
  match row.1.pickupTimestamp, row.1.passengerCount, row.temperature, row.humidity, row.precipitation with
  | some dt, some count, some temperature, some humidity, some precipitation => .ok {
      date := dt / 1000000 * 1000000
      weekday := Features.weekdaySundayZero dt
      passengers := truncate count
      temperature := seriesRound temperature
      humidity := roundHalfEven humidity
      isRaining := if 0 < precipitation then 1 else 0 }
  | _, _, _, _, _ => .error .valueError

end MergedRow

/-- `taxi_df.merge(weather_df, on="hour", how="left")` -/
def mergeWeather (taxi : List TaxiRow) (weather : List ArchiveRow) : List MergedRow :=
  leftJoin (fun row => row.pickupTimestamp.map floorToHour) ArchiveRow.hour taxi weather

def buildDataset (taxi : List TaxiRow) (weather : List ArchiveRow) : Except DatasetError (List DatasetRow) :=
  let merged := mergeWeather taxi weather
  if merged.any MergedRow.isna then
    -- a row that lacks another value than the temperature is not counted
    let missing := (merged.filter fun row => row.temperature.isNone).map fun row => row.1.pickupTimestamp
    .error (.unmatched missing.length (missing.take 5))
  else merged.mapM MergedRow.toOut

/-- `main`; `archive` answers for the days from the first to the second. -/
def preprocess (archive : Int → Int → Except DatasetError ArchiveHourly) (taxi : List TaxiRow) :
    Except DatasetError (List DatasetRow) :=
  let pickups := taxi.filterMap TaxiRow.pickupTimestamp
  match pickups.min?, pickups.max? with
  | some first, some last => do
      let hourly ← archive (first / dayMicros) (last / dayMicros)
      let weather ← fetchWeather hourly
      buildDataset taxi weather
  | _, _ => .error .valueError

/-! ## Training -/

/-- `df.sort_values("날짜")`, which is free to order the rows of one time. -/
structure SortValues where
  sort : List DatasetRow → List DatasetRow
  perm : ∀ rows, (sort rows).Perm rows
  sorted : ∀ rows, (sort rows).Pairwise fun a b => a.date ≤ b.date

def loadDataset (order : SortValues) (csv : List DatasetRow) : List DatasetRow := order.sort csv

def validRatio : ℚ := 15 / 100

/-- `xs[n:]` -/
def sliceFrom {α : Type} (n : Int) (xs : List α) : List α :=
  if 0 ≤ n then xs.drop n.toNat else xs.drop (xs.length - (-n).toNat)

def timeBasedSplit (df : List DatasetRow) (validRatio : ℚ) : List DatasetRow × List DatasetRow :=
  let splitIdx := truncate (df.length * (1 - validRatio))
  (sliceTo splitIdx df, sliceFrom splitIdx df)

namespace DatasetRow

/-- The row of `dataframe_to_features`. -/
def features (row : DatasetRow) : Features :=
  PredictBatch.BatchRow.features ⟨row.date, row.weekday, row.temperature, row.humidity, row.isRaining⟩

/-- `승객수` as a float. -/
def label (row : DatasetRow) : ℚ := row.passengers

end DatasetRow

/-- What `train` gives to the fit. -/
structure FitInput where
  xTrain : List Features
  yTrain : List ℚ
  xValid : List Features
  yValid : List ℚ

def fitInput (order : SortValues) (csv : List DatasetRow) : FitInput :=
  let (train, valid) := timeBasedSplit (loadDataset order csv) validRatio
  ⟨train.map DatasetRow.features, train.map DatasetRow.label, valid.map DatasetRow.features,
    valid.map DatasetRow.label⟩

end Hailcast
