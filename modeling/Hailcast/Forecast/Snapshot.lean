import Hailcast.Forecast.PodForecast
import Hailcast.Store.FileStore

/-!
# PodForecastService.snapshot_current_hour
-/

namespace Hailcast

def podHistoryKey : String := "dashboard/pod-history.json"

namespace PodHistory

/-- `_HISTORY_MAX_POINTS` -/
def maxPoints : Nat := 24 * 30

def intOrNull : Option Int → Json
  | some n => .num n
  | none => .null

def entry (bucket : Int) (predicted actual : Option Int) (modelVersion : Option String) : Json :=
  .obj [("bucket_time", isoformat bucket), ("predicted_replicas", intOrNull predicted),
    ("actual_replicas", intOrNull actual),
    ("model_version", match modelVersion with
      | some version => .str (.text version)
      | none => .null)]

/-- `h["bucket_time"] == bucket_iso`, for a value of that field -/
def isBucket (bucket : Int) : Json → Bool
  | .str x => x = .aware bucket
  | _ => false

/-- `[h for h in history if h["bucket_time"] != bucket_iso]` -/
def withoutBucket (bucket : Int) : List Json → Except PyError (List Json)
  | [] => .ok []
  | h :: history => do
      let time ← h.index "bucket_time"
      let rest ← withoutBucket bucket history
      return if isBucket bucket time then rest else h :: rest

/-- The sort keys as strings, when they all are. -/
def strings : List (Json × Json) → Option (List (Str × Json))
  | [] => some []
  | (.str x, h) :: rest => (strings rest).map (fun pairs => (x, h) :: pairs)
  | _ => none

def numbers : List (Json × Json) → Option (List (ℚ × Json))
  | [] => some []
  | (.num q, h) :: rest => (numbers rest).map (fun pairs => (q, h) :: pairs)
  | (.bool b, h) :: rest => (numbers rest).map (fun pairs => (if b then 1 else 0, h) :: pairs)
  | _ => none

def bucketTimes : List Json → Except PyError (List (Json × Json))
  | [] => .ok []
  | h :: history => do
      let time ← h.index "bucket_time"
      let rest ← bucketTimes history
      return (time, h) :: rest

/-- `history.sort(key=lambda h: h["bucket_time"])`: values of different types cannot be compared. -/
def sortByBucket (history : List Json) : Except PyError (List Json) := do
  let pairs ← bucketTimes history
  if pairs.length ≤ 1 then return history
  else
    match strings pairs with
    | some pairs => return (pairs.mergeSort (fun x y => x.1.le y.1)).map Prod.snd
    | none =>
        match numbers pairs with
        | some pairs => return (pairs.mergeSort (fun x y => decide (x.1 ≤ y.1))).map Prod.snd
        | none => throw .typeError

def snapshotCurrentHour (cfg : PredictSettings) (autoCreate : Bool) : StoreM Unit := do
  let time ← storeRequest .now
  let bucket := floorToHour time
  let document ← storeRequest .readLatest
  let predicted ← Prog.ofExcept (predictedForBucket cfg document bucket)
  let actual ← tryCatch (do return some (← storeRequest .getActualReplicas)) (fun _ => return none)
  let body ← FileStore.readJson podHistoryKey
  let history ← Prog.ofExcept (listOrEmpty .typeError body)
  let history ← Prog.ofExcept (withoutBucket bucket history)
  let entry := entry bucket predicted actual (document.map PredictionDocument.modelVersion)
  let history ← Prog.ofExcept (sortByBucket (history ++ [entry]))
  FileStore.writeJson autoCreate podHistoryKey (.arr (history.drop (history.length - maxPoints)))

end PodHistory

end Hailcast
