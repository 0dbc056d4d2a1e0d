import Hailcast.Store.FileStore

/-!
# TrafficCounter and TrafficAggregatorService
-/

namespace Hailcast

def trafficInstancePrefix : String := "traffic/instances/"

def trafficHistoryKey : String := "dashboard/traffic-history.json"

/-- `TRAFFIC_JSON_KEY`, the default of `traffic_json_key` -/
def trafficJsonKey : String := "dashboard/traffic.json"

def staleAfterSeconds : ℚ := 30

namespace Traffic

def historyMaxPoints : Nat := 3 * 60 * 6

/-- `traffic_aggregate_interval_seconds`, in microseconds -/
def aggregateInterval : Int := 2000000

/-! ## The counter of a pod -/

def shardKey (instanceId : String) : String := trafficInstancePrefix ++ instanceId ++ ".json"

def flush (autoCreate : Bool) (instanceId : String) : StoreM Unit := do
  let count ← storeRequest .takeCount
  let time ← storeRequest .now
  FileStore.writeJson autoCreate (shardKey instanceId)
    (.obj [("count", .num count), ("updated_at", isoformat time)])

/-! ## Aggregation -/

/-- The count of one shard file, and 0 for a file that is skipped. -/
def shardCount (now : Int) (body : Option Json) : Except PyError Int :=
  match body with
  | none => .ok 0
  | some body =>
      if body.truthy then
        match body.index "updated_at" >>= fromisoformat with
        | .error (.keyError _) => .ok 0
        | .error .valueError => .ok 0
        | .error exc => .error exc
        | .ok updatedAt => do
            let age ← updatedAt.before now
            if staleAfterSeconds < totalSeconds age then return 0
            else (← body.get "count" (.num 0)).toInt
      else .ok 0

def sumActiveInstances (now : Int) : StoreM Int := do
  let keys ← S3Adapter.listKeys trafficInstancePrefix
  Prog.foldEach (fun total key => do
    let body ← FileStore.readJson key
    let count ← Prog.ofExcept (shardCount now body)
    return total + count) 0 keys

/-- `{"timestamp": now.isoformat(), "requests": count}` -/
def historyPoint (now : Int) (count : Int) : Json :=
  .obj [("timestamp", isoformat now), ("requests", .num count)]

/-- `history[-n:]` -/
def lastPoints (n : Nat) (history : List Json) : List Json := history.drop (history.length - n)

def appendHistory (autoCreate : Bool) (now count : Int) : StoreM (List Json) := do
  let body ← FileStore.readJson trafficHistoryKey
  let history ← Prog.ofExcept (listOrEmpty .attributeError body)
  let history := lastPoints historyMaxPoints (history ++ [historyPoint now count])
  FileStore.writeJson autoCreate trafficHistoryKey (.arr history)
  return history

/-- `.timestamp()`, in microseconds; the process runs in UTC. -/
def timestamp : Stamp → Int
  | .aware t => t
  | .naive wall => wall

/-- The sum of the points from `cutoff` on; the history holds integers, whose sum is exact. -/
def sumSince (cutoff : Int) : List Json → Except PyError ExtRat
  | [] => .ok 0
  | point :: history => do
      let stamp ← point.index "timestamp" >>= fromisoformat
      let requests ← if cutoff ≤ timestamp stamp then point.index "requests" >>= Json.toNumber else .ok 0
      let rest ← sumSince cutoff history
      return requests + rest

def trailingHourSum (now : Int) (history : List Json) : Except PyError ExtRat :=
  sumSince (now - hourMicros) history >>= pyFloat

def aggregate (autoCreate : Bool) : StoreM Int := do
  let now ← storeRequest .now
  let total ← sumActiveInstances now
  let history ← appendHistory autoCreate now total
  let hourly ← Prog.ofExcept (trailingHourSum now history)
  FileStore.writeJson autoCreate trafficJsonKey
    (.obj [("hourly_requests", .ofNumber hourly), ("current_bucket_requests", .num total),
      ("updated_at", isoformat now)])
  return total

end Traffic

end Hailcast
