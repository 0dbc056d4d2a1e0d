import Hailcast.Common.Python
import Hailcast.Lib.Series
import Hailcast.Prediction.Features

/-!
# predict_batch

`ml/predict_batch.py` over the rows of its input, with rationals for its floats. A date is its wall-clock reading.
The series over the rows of the frame all have the index of the frame, so they are lists.
-/

namespace Hailcast

namespace PredictBatch

/-- `HOURLY_REFERENCE` -/
def hourlyReference : List (Int × ℚ) :=
  [(0, 70677), (2, 40145), (4, 33208), (6, 43148), (8, 70402), (10, 73592), (12, 72568), (14, 71678), (16, 70674),
    (18, 73416), (20, 80999), (22, 86364)]

/-- `DAWN_BUCKETS` -/
def dawnBuckets : List Int := [0, 2, 4, 6]

/-- `BUCKET_DAMPING` -/
def bucketDamping : List (Int × ℚ) :=
  dawnBuckets.map (fun b => (b, 85 / 100)) ++ ([8, 10, 12, 14, 16, 18, 20, 22] : List Int).map (fun b => (b, 15 / 100))

/-- A row of the input: `날짜`, `요일`, `온도`, `습도` and `강수유무`. -/
structure BatchRow where
  date : Int
  weekday : Int
  temperature : ℚ
  humidity : ℚ
  isRaining : Int

/-- A row of `dataframe_to_features` -/
def BatchRow.features (row : BatchRow) : Features where
  hour := Features.hourOf row.date
  weekday := row.weekday
  isWeekend := Features.isWeekendOf row.weekday
  temperature := row.temperature
  humidity := row.humidity
  isRaining := row.isRaining

/-- A model returns one number for each row of features. -/
structure Model where
  predict : List Features → List ℚ
  length_predict : ∀ X, (predict X).length = X.length

/-- A row of the output: `날짜`, `요일` and `예측승객수`. -/
structure OutputRow where
  date : Int
  weekday : Int
  demand : Option Int
deriving DecidableEq

/-- `_hour_bucket` of one date -/
def hourBucket (date : Int) : Int := Features.hourOf date / 2 * 2

def computeCorrectionFactors (dates : List Int) (rawPred : List ExtRat) (reference bucketDamping : List (Int × ℚ)) :
    Series Int :=
  let bucket := dates.map hourBucket
  let ref := Series.ofEntries reference
  let refShape := ref.map (· / ref.mean)
  let modelAvg := Series.groupMean (bucket.zip rawPred)
  let modelShape := modelAvg.map (· / modelAvg.mean)
  let ratio := ((Series.align (· / ·) refShape modelShape).reindex refShape.index).fillna 1
  let damping := ((Series.ofEntries bucketDamping).reindex refShape.index).fillna 0
  (Series.align (· * ·) damping (ratio.map (· - 1))).map (1 + ·)

/-- `model.predict(X).clip(min=0)` -/
def rawPrediction (model : Model) (rows : List BatchRow) : List ExtRat :=
  (model.predict (rows.map BatchRow.features)).map fun q => (ExtRat.fin q).clipMin 0

/-- `corrected_pred` of `predict` -/
def correctedPrediction (model : Model) (rows : List BatchRow) : List ExtRat :=
  let rawPred := rawPrediction model rows
  let dates := rows.map BatchRow.date
  let factorByBucket := computeCorrectionFactors dates rawPred hourlyReference bucketDamping
  let correction := dates.map fun date => factorByBucket.get (hourBucket date)
  (List.zipWith (· * ·) rawPred correction).map (ExtRat.clipMin 0)

/-- `.round().astype(int)`: there is no integer for NaN, an infinity, and what is out of the range of `int64`. -/
def toInteger : ExtRat → Option Int
  | .fin q =>
      let n := roundHalfEven q
      if -2 ^ 63 ≤ n ∧ n < 2 ^ 63 then some n else none
  | _ => none

def predict (model : Model) (rows : List BatchRow) : List OutputRow :=
  List.zipWith (fun (row : BatchRow) demand => ⟨row.date, row.weekday, toInteger demand⟩) rows
    (correctedPrediction model rows)

end PredictBatch

end Hailcast
