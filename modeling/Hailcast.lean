import Hailcast.Lib.JsonReader
import Hailcast.Lib.JsonLines
import Hailcast.Lib.Machine
import Hailcast.Lib.Words
import Hailcast.Lib.Cursor
import Hailcast.Lib.LeftJoin
import Hailcast.Call.Message
import Hailcast.Call.Service
import Hailcast.Call.System
import Hailcast.Call.Lemmas
import Hailcast.Call.Theorems
import Hailcast.Lib.EventRun
import Hailcast.Lib.Prog
import Hailcast.Lib.Concurrent
import Hailcast.Lib.Knowledge
import Hailcast.Lib.Alone
import Hailcast.Lib.TimedRun
import Hailcast.Lib.Dict
import Hailcast.Lib.Retry
import Hailcast.Lib.LatestKeys
import Hailcast.Lib.Coalesce
import Hailcast.Lib.ExtRat
import Hailcast.Lib.Rounding
import Hailcast.Lib.Series
import Hailcast.Common.Python
import Hailcast.Common.Json
import Hailcast.Common.Dynamo
import Hailcast.Common.Csv
import Hailcast.Common.Datetime
import Hailcast.Scaling.Engine
import Hailcast.Scaling.Service
import Hailcast.Scaling.Step
import Hailcast.Scaling.Theorems
import Hailcast.Scaling.Calm
import Hailcast.Scaling.Recovery
import Hailcast.Forecast.Theorems
import Hailcast.Forecast.Snapshot
import Hailcast.Accuracy.Theorems
import Hailcast.Retrain.Runs
import Hailcast.Retrain.Threshold
import Hailcast.Retrain.Theorems
import Hailcast.Retrain.Scan
import Hailcast.Ci.Detect
import Hailcast.Ci.Theorems
import Hailcast.Ci.Manifests
import Hailcast.Ci.Deploy
import Hailcast.Loader.System
import Hailcast.Loader.Lemmas
import Hailcast.Loader.Theorems
import Hailcast.Store.Lemmas
import Hailcast.Store.Working
import Hailcast.Store.LocalStore
import Hailcast.Store.Theorems
import Hailcast.Store.Backends
import Hailcast.Store.Refinement
import Hailcast.Traffic.Shards
import Hailcast.Traffic.Buckets
import Hailcast.Traffic.Counter
import Hailcast.Traffic.Rebucket
import Hailcast.Traffic.Theorems
import Hailcast.Common.Isoformat
import Hailcast.Common.Zone
import Hailcast.Prediction.Features
import Hailcast.Prediction.Service
import Hailcast.Prediction.Reader
import Hailcast.Prediction.Saving
import Hailcast.Prediction.Lemmas
import Hailcast.Prediction.Selection
import Hailcast.Prediction.TargetTimes
import Hailcast.Prediction.Theorems
import Hailcast.Prediction.Serving
import Hailcast.Prediction.Timetable
import Hailcast.History.Snapshots
import Hailcast.History.Theorems
import Hailcast.History.Timeline
import Hailcast.Worker.Theorems
import Hailcast.Worker.Lemmas.Provenance
import Hailcast.Worker.Lemmas.Draining
import Hailcast.Simulator.Theorems
import Hailcast.Simulator.Uptime
import Hailcast.Simulator.Bursts
import Hailcast.Weather.Service
import Hailcast.Weather.Theorems
import Hailcast.Schedule.Interval
import Hailcast.Schedule.Theorems
import Hailcast.Health.Service
import Hailcast.Health.Theorems
import Hailcast.Batch.Predict
import Hailcast.Batch.Theorems
import Hailcast.Training.Dataset
import Hailcast.Training.Theorems
