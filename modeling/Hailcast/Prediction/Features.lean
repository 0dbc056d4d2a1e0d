import Hailcast.Common.Dynamo

/-!
# Features

`ml/features.py`, which the forecast and the training share. A naive `datetime`, and an aware one whose zone is
that of the weather rows, is its wall-clock reading.
-/

namespace Hailcast

/-- A row of the features, with the columns `FEATURE_COLUMNS`. -/
structure Features where
  hour : Int
  weekday : Int
  isWeekend : Int
  temperature : ℚ
  humidity : ℚ
  isRaining : Int
deriving DecidableEq

namespace Features

/-- `dt.hour` -/
def hourOf (wall : Int) : Int := wall / hourMicros % 24

/-- `dt.weekday()`, which counts from Monday; the first day of the epoch is a Thursday. -/
def weekdayOf (wall : Int) : Int := (wall / dayMicros + 3) % 7

def weekdaySundayZero (wall : Int) : Int := (weekdayOf wall + 1) % 7

/-- `int(weekday in (0, 6))` -/
def isWeekendOf (weekday : Int) : Int := if weekday = 0 ∨ weekday = 6 then 1 else 0

end Features

def buildFeatures (dt : Int) (temperature humidity : ℚ) (isRaining : Bool) : Features where
  hour := Features.hourOf dt
  weekday := Features.weekdaySundayZero dt
  isWeekend := Features.isWeekendOf (Features.weekdaySundayZero dt)
  temperature := temperature
  humidity := humidity
  isRaining := if isRaining then 1 else 0

/-! ## Features of logged records -/

namespace AttributeValue

/-- An element of `pd.to_datetime(column)`. -/
def toDatetime : AttributeValue → Except PyError Int
  | .s (.naive wall) => .ok wall
  | .s (.date day) => .ok (day * dayMicros)
  | .s (.aware t) => .ok t
  | .s (.iso _ (.aware t)) => .ok t
  | .s (.iso _ (.naive wall)) => .ok wall
  | .s (.text _) => .error .valueError
  | .n _ => .error .typeError
  | .other _ => .error .typeError

/-- An element of `column.astype(float)`; a text is not read as a number. -/
def toFloat : AttributeValue → Except PyError ℚ
  | .n q => .ok q
  | .s _ => .error .valueError
  | .other _ => .error .typeError

end AttributeValue

/-- The value of a record in a column of the frame. -/
def DynamoItem.column (record : DynamoItem) (name : String) : Except PyError AttributeValue :=
  match record.attr name with
  | some value => .ok value
  | none => .error (.keyError name)

/-- The row of `dataframe_to_features` for one record. -/
def recordFeatures (record : DynamoItem) : Except PyError Features := do
  let dt ← (← record.column "날짜").toDatetime
  let weekday ← (← record.column "요일").toInt
  let temperature ← (← record.column "온도").toFloat
  let humidity ← (← record.column "습도").toFloat
  let isRaining ← (← record.column "강수유무").toInt
  return {
    hour := Features.hourOf dt
    weekday := weekday
    isWeekend := Features.isWeekendOf weekday
    temperature := temperature
    humidity := humidity
    isRaining := isRaining }

def dataframeToFeatures (records : List DynamoItem) : Except PyError (List Features) := records.mapM recordFeatures

end Hailcast
