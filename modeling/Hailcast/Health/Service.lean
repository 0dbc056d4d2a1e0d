import Hailcast.Common.Csv
import Hailcast.Common.Datetime
import Hailcast.Common.Zone
import Hailcast.Scaling.Service
import Hailcast.Schedule.Interval
import Hailcast.Store.FileStore
import Mathlib.Data.List.MinMax

/-!
# HealthService

The five checks are programs over the requests that `SqsAdapter`, `S3Adapter` and `FileStore` make for them. What
the outside answers to a request is its `HealthEnv`, so that each of them may fail, and an object may vanish between
its HEAD and its GET.
-/

namespace Hailcast

inductive HealthStatus where
  | healthy
  | warning
  | unhealthy
deriving DecidableEq

/-- `_SEVERITY` -/
def HealthStatus.severity : HealthStatus → Nat
  | .healthy => 0
  | .warning => 1
  | .unhealthy => 2

/-- The texts of `ComponentHealth.detail`, with the values that they show. -/
inductive HealthDetail where
  | text (s : String)
  /-- `str(exc)[:120]` -/
  | failure (exc : PyError)
  /-- `f"backlog={backlog}"` -/
  | backlog (backlog : Int)
  /-- `f"version={metadata.get('version')}"` -/
  | version (version : Json)
  /-- `f"age={age:.0f}s"` -/
  | age (age : ℚ)
  /-- `f"stale ({age:.0f}s old)"` -/
  | stale (age : ℚ)
  /-- `f"first_row_age={age:.0f}s"` -/
  | firstRowAge (age : ℚ)
  /-- `f"stale (first row {age:.0f}s in the past)"` -/
  | staleFirstRow (age : ℚ)
  /-- `f"stopped: {stopped}"` -/
  | stopped (names : List String)
  /-- `f"last_error: {failing}"` -/
  | lastError (names : List String)

structure ComponentHealth where
  name : String
  status : HealthStatus
  detail : Option HealthDetail := none

structure HealthResponse where
  status : HealthStatus
  components : List ComponentHealth
  checkedAt : Int

/-- A scheduler as the service reads it. -/
structure NamedScheduler where
  name : String
  state : SchedulerState

/-- `json_store_backend` -/
inductive StoreBackend where
  | «local»
  | s3

/-- The characters of an object; those of a JSON text are given by `jsonText`. -/
def Blob.chars (jsonText : Json → String) : Blob → String
  | .json body => jsonText body
  | .text s => s

/-! ## Requests -/

inductive HealthRequest where
  | s3 (o : StoreRequest)
  /-- `(self._local_dir / key).exists()` -/
  | localExists (key : String)
  /-- `(self._local_dir / key).read_text(encoding="utf-8")` -/
  | localReadText (key : String)
  /-- `self._queue_url` is set. -/
  | isResolved
  | setResolved
  | getQueueUrl
  | createQueue
  /-- `Attributes` of the response, when it has them. -/
  | getQueueAttributes
  /-- `datetime.now(timezone.utc)` -/
  | now

@[reducible] def HealthRequest.Answer : HealthRequest → Type
  | .s3 o => o.Answer
  | .localExists _ => Bool
  | .localReadText _ => Blob
  | .isResolved => Bool
  | .getQueueAttributes => Option Json
  | .now => Int
  | _ => Unit

abbrev HealthM := Prog HealthRequest HealthRequest.Answer PyError

def healthRequest (o : HealthRequest) : HealthM o.Answer := Prog.perform o

/-- The classes below `Exception`. -/
def PyError.IsException : PyError → Prop
  | .systemExit _ => False
  | _ => True

/-- `try: ... except Exception as exc: ...`, where the rest of the function looks at how it ended. -/
def attempt {α : Type} (p : HealthM α) : HealthM (Except PyError α) :=
  tryCatch (do return .ok (← p)) fun
    | .systemExit code => throw (.systemExit code)
    | exc => return .error exc

/-! ## SqsAdapter and S3Adapter -/

namespace HealthService

/-- `except (ClientError, BotoCoreError) as exc: raise self._wrap(operation, exc)` of the `SqsAdapter` -/
def wrap {α : Type} (cfg : PredictSettings) (operation : String) (p : HealthM α) : HealthM α :=
  tryCatch p fun
    | .clientError _ => throw (.awsError "sqs" operation cfg.sqsQueueName)
    | .botoCoreError => throw (.awsError "sqs" operation cfg.sqsQueueName)
    | exc => throw exc

def queueUrl (cfg : PredictSettings) : HealthM Unit := do
  if ← healthRequest .isResolved then return
  else
    tryCatch (healthRequest .getQueueUrl) fun
      | .clientError code =>
          if cfg.sqsAutoCreateQueue ∧
              (code = "AWS.SimpleQueueService.NonExistentQueue" ∨ code = "QueueDoesNotExist") then
            healthRequest .createQueue
          else throw (.awsError "sqs" "get_queue_url" cfg.sqsQueueName)
      | .botoCoreError => throw (.awsError "sqs" "get_queue_url" cfg.sqsQueueName)
      | exc => throw exc
    healthRequest .setResolved

/-- `resp.get("Attributes", {})` -/
def queueAttributes (cfg : PredictSettings) : HealthM Json :=
  wrap cfg "get_queue_attributes" do
    queueUrl cfg
    return (← healthRequest .getQueueAttributes).getD (.obj [])

/-- A program of the `S3Adapter`. -/
def s3 {α : Type} (p : StoreM α) : HealthM α := Prog.lift .s3 (fun _ answer => answer) p

def downloadJson (key : String) : HealthM Json :=
  s3 (S3Adapter.wrap "get_object" key do
    let body ← storeRequest (.getObject key)
    Prog.ofExcept body.loads)

/-! ## FileStore -/

def readText (backend : StoreBackend) (key : String) : HealthM (Option Blob) :=
  match backend with
  | .s3 => s3 (FileStore.readText key)
  | .local => do
      if ← healthRequest (.localExists key) then return some (← healthRequest (.localReadText key))
      else return none

def readJson (backend : StoreBackend) (key : String) : HealthM (Option Json) := do
  match ← readText backend key with
  | some text => return some (← Prog.ofExcept text.loads)
  | none => return none

/-! ## The checks -/

def checkQueue (cfg : PredictSettings) : HealthM ComponentHealth := do
  let backlog ← attempt do
    let attrs ← queueAttributes cfg
    Prog.ofExcept (attrs.get "ApproximateNumberOfMessages" (.num 0) >>= Json.toInt)
  match backlog with
  | .ok backlog =>
      let status := if cfg.healthQueueBacklogWarning < backlog then .warning else .healthy
      return ⟨"queue", status, some (.backlog backlog)⟩
  | .error exc => return ⟨"queue", .unhealthy, some (.failure exc)⟩

def checkModel (cfg : PredictSettings) : HealthM ComponentHealth := do
  let version ← attempt do
    let metadata ← downloadJson (cfg.modelS3Prefix ++ "/latest/metadata.json")
    Prog.ofExcept (metadata.get "version" .null)
  match version with
  | .ok version => return ⟨"model", .healthy, some (.version version)⟩
  | .error _ => return ⟨"model", .warning, some (.text "latest model not found in S3")⟩

def ageCheck (name : String) (latest : Option Stamp) (maxAge : ℚ) : HealthM ComponentHealth :=
  match latest with
  | none => return ⟨name, .warning, some (.text "no data yet")⟩
  | some latest => do
      let now ← healthRequest .now
      let age := totalSeconds (← Prog.ofExcept (latest.before now))
      if maxAge < age then return ⟨name, .warning, some (.stale age)⟩
      else return ⟨name, .healthy, some (.age age)⟩

/-- What `_check_prediction` makes of the body; `null` is read as `None` too. -/
def predictionHealth (cfg : PredictSettings) : Option Json → HealthM ComponentHealth
  | none | some .null => return ⟨"prediction", .warning, some (.text "no data yet")⟩
  | some body => do
      let latest ← Prog.ofExcept (body.index "generated_at" >>= fromisoformat)
      ageCheck "prediction" (some latest) (cfg.predictionIntervalSeconds * 2)

def checkPrediction (cfg : PredictSettings) (backend : StoreBackend) : HealthM ComponentHealth := do
  match ← attempt (readJson backend (cfg.predictionS3Prefix ++ "/latest.json")) with
  | .error exc => return ⟨"prediction", .unhealthy, some (.failure exc)⟩
  | .ok body => predictionHealth cfg body

/-- `datetime.strptime(x, "%Y-%m-%d %H:%M:%S")` of a field of a row -/
def firstRowTime : Option String → Except PyError Datetime
  | some date => Datetime.strptime date
  | none => .error .typeError

/-- What `_check_weather` makes of a text that is not empty. -/
def weatherHealth (cfg : PredictSettings) (zone : Zone) (text : String) : HealthM ComponentHealth := do
  let table ← Prog.ofExcept (Csv.dictReader text)
  match table.rows with
  | [] => return ⟨"weather", .warning, some (.text "csv empty")⟩
  | row :: _ => do
      let date ← Prog.ofExcept (table.item row "날짜" >>= firstRowTime)
      let first := zone.utcOf date.wall
      let now ← healthRequest .now
      let age := totalSeconds (now - first)
      if cfg.healthWeatherMaxAgeSeconds < age then return ⟨"weather", .warning, some (.staleFirstRow age)⟩
      else return ⟨"weather", .healthy, some (.firstRowAge age)⟩

def checkWeather (cfg : PredictSettings) (zone : Zone) (jsonText : Json → String) (backend : StoreBackend) :
    HealthM ComponentHealth := do
  match ← attempt (readText backend cfg.weatherCsvKey) with
  | .error exc => return ⟨"weather", .unhealthy, some (.failure exc)⟩
  | .ok none => return ⟨"weather", .warning, some (.text "no data yet")⟩
  | .ok (some blob) =>
      if blob.chars jsonText = "" then return ⟨"weather", .warning, some (.text "no data yet")⟩
      else weatherHealth cfg zone (blob.chars jsonText)

/-- A last error without a text counts as none. -/
def checkSchedulers (schedulers : List NamedScheduler) : ComponentHealth :=
  let stopped := (schedulers.filter (fun s => !s.state.running)).map NamedScheduler.name
  let failing := (schedulers.filter (fun s => s.state.lastError.any (· ≠ ""))).map NamedScheduler.name
  if !stopped.isEmpty then ⟨"scheduler", .unhealthy, some (.stopped stopped)⟩
  else if !failing.isEmpty then ⟨"scheduler", .warning, some (.lastError failing)⟩
  else ⟨"scheduler", .healthy, none⟩

/-! ## health and ready -/

/-- `max` of the statuses is the first of the worst; of no status it is a `ValueError`. -/
def health (cfg : PredictSettings) (zone : Zone) (jsonText : Json → String) (backend : StoreBackend)
    (schedulers : List NamedScheduler) : HealthM HealthResponse := do
  let queue ← checkQueue cfg
  let model ← checkModel cfg
  let prediction ← checkPrediction cfg backend
  let weather ← checkWeather cfg zone jsonText backend
  let components := [queue, model, prediction, weather, checkSchedulers schedulers]
  match List.argmax HealthStatus.severity (components.map ComponentHealth.status) with
  | some overall => return ⟨overall, components, ← healthRequest .now⟩
  | none => throw .valueError

/-- The checks of `ready`, by their names. -/
def ready (cfg : PredictSettings) : HealthM (Bool × List (String × Bool)) := do
  let queue ← checkQueue cfg
  let model ← checkModel cfg
  let checks := [("queue", decide (queue.status ≠ .unhealthy)), ("model", decide (model.status = .healthy)),
    ("config", decide (cfg.s3Bucket ≠ "" ∧ cfg.sqsQueueName ≠ ""))]
  return (checks.all Prod.snd, checks)

end HealthService

/-! ## The environment -/

/-- What the outside answers; the clock is read one reading after the other. -/
structure HealthEnv where
  answer : (o : HealthRequest) → Except PyError o.Answer
  clock : Nat → Int
  exceptions : ∀ o exc, answer o = .error exc → exc.IsException

structure HealthState where
  resolved : Bool := false
  readings : Nat := 0

namespace HealthState

def handler (env : HealthEnv) : Prog.Handler HealthRequest HealthRequest.Answer PyError HealthState
  | .isResolved, s => (.ok s.resolved, s)
  | .setResolved, s => (.ok (), { s with resolved := true })
  | .now, s => (.ok (env.clock s.readings), { s with readings := s.readings + 1 })
  | o, s => (env.answer o, s)

def exec {α : Type} (env : HealthEnv) (p : HealthM α) (s : HealthState) : Except PyError α × HealthState :=
  Prog.exec (handler env) p s

end HealthState

end Hailcast
