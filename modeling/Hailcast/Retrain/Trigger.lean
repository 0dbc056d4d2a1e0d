import Hailcast.Common.Dynamo
import Hailcast.Lib.Prog

/-!
# The retrain trigger

`main` of the trigger is a program over its requests: the scan of the table, the terminal, the download of the
model, the training, the uploads and the updates of the single records. What pandas and LightGBM make of a batch
is an answer from outside; a model is kept by what it was trained on.
-/

namespace Hailcast

/-- The version texts of `metadata.json`, by the second that they show. -/
inductive ModelVersion where
  | trained (second : Int)
  | continued (second : Int)
deriving DecidableEq

/-- A fitted model: from scratch, or boosted further on a batch of records. -/
inductive Model where
  | scratch (version : ModelVersion)
  | continued (base : Model) (records : List DynamoItem)

/-- The records that the last training of the model used. -/
def Model.trainingSet : Model → List DynamoItem
  | .scratch _ => []
  | .continued _ records => records

structure ModelMetadata where
  version : ModelVersion
  continuedTrainingRecords : Nat
  mae : ℚ
  rmse : ℚ

/-- The trees before and after a fit, and the metrics on its own batch. -/
structure FitReport where
  before : Nat
  after : Nat
  mae : ℚ
  rmse : ℚ

structure RetrainTriggerSettings where
  modelS3Prefix : String := "models"
  mlS3UploadEnabled : Bool := false

/-! ## Requests -/

inductive RetrainRequest where
  | scanAll
  | isatty
  | input
  /-- `dataframe_to_features` of the batch, and its label column as floats -/
  | trainingFrame (items : List DynamoItem)
  | downloadFile (key : String)
  | fit (base : Model) (items : List DynamoItem)
  | dump (model : Model)
  | now
  | uploadFile (key : String) (model : Model)
  | uploadJson (key : String) (body : ModelMetadata)
  | updateItem (key : Str × Str)

@[reducible] def RetrainRequest.Answer : RetrainRequest → Type
  | .scanAll => List DynamoItem
  | .isatty => Bool
  | .input => String
  | .trainingFrame _ => Unit
  | .downloadFile _ => Model
  | .fit _ _ => FitReport
  | .dump _ => Unit
  | .now => Int
  | .uploadFile _ _ => Unit
  | .uploadJson _ _ => Unit
  | .updateItem _ => Unit

abbrev RetrainM := Prog RetrainRequest RetrainRequest.Answer PyError

def retrainRequest (o : RetrainRequest) : RetrainM o.Answer := Prog.perform o

/-! ## Selecting the records -/

def minRecordsForTraining : Nat := 20

def requiredColumns : List String := ["날짜", "요일", "온도", "습도", "강수유무", "승객수"]

/-- `int(item.get("학습여부", 0))` -/
def trainedFlag (item : DynamoItem) : Except PyError Int :=
  match item.attr "학습여부" with
  | none => .ok 0
  | some value => value.toInt

def filterUntrained : List DynamoItem → Except PyError (List DynamoItem)
  | [] => .ok []
  | item :: items => do
      let flag ← trainedFlag item
      let rest ← filterUntrained items
      return if flag = 0 then item :: rest else rest

/-- The first component of `split_usable`; the skipped records are only counted. -/
def splitUsable (items : List DynamoItem) : List DynamoItem :=
  items.filter (fun item => requiredColumns.all (fun column => (item.attr column).isSome))

/-! ## The trigger -/

/-- `answer.strip().lower() == "y"`; no other letter is a `y` in lower case. -/
def answersYes (answer : String) : Bool := strip answer = "y" || strip answer = "Y"

/-- The question before the training, unless `--yes` was given. -/
def confirmed (yes : Bool) : RetrainM Bool := do
  if yes then return true
  else
    if ← retrainRequest .isatty then return answersYes (← retrainRequest .input)
    else throw (.systemExit 1)

def modelKey (settings : RetrainTriggerSettings) : String := settings.modelS3Prefix ++ "/latest/model.pkl"

def metadataKey (settings : RetrainTriggerSettings) : String := settings.modelS3Prefix ++ "/latest/metadata.json"

def continueTrain (items : List DynamoItem) (settings : RetrainTriggerSettings) : RetrainM (Model × FitReport) := do
  retrainRequest (.trainingFrame items)
  let base ← retrainRequest (.downloadFile (modelKey settings))
  let report ← retrainRequest (.fit base items)
  if report.after ≤ report.before then throw (.runtimeError "이어학습에서 트리가 추가되지 않았습니다")
  else return (.continued base items, report)

def uploadContinuedModel (model : Model) (report : FitReport) (settings : RetrainTriggerSettings)
    (recordCount : Nat) : RetrainM Unit := do
  retrainRequest (.dump model)
  if settings.mlS3UploadEnabled then
    let time ← retrainRequest .now
    retrainRequest (.uploadFile (modelKey settings) model)
    retrainRequest (.uploadJson (metadataKey settings)
      ⟨.continued (time / 1000000), recordCount, report.mae, report.rmse⟩)
  else return

/-- `dynamodb.mark_trained(item["prediction_date"], item["target_time"])` -/
def markTrained (item : DynamoItem) : RetrainM Unit :=
  match item.key with
  | some key => retrainRequest (.updateItem key)
  | none => throw (.keyError "prediction_date")

def markUsedAsTrained (items : List DynamoItem) : RetrainM Unit := Prog.forEach markTrained items

/-- The part of `main` that trains, publishes and marks. -/
def retrain (settings : RetrainTriggerSettings) (usable : List DynamoItem) : RetrainM Unit := do
  let (model, report) ← continueTrain usable settings
  uploadContinuedModel model report settings usable.length
  markUsedAsTrained usable

/-- `main` -/
def retrainMain (settings : RetrainTriggerSettings) (force yes : Bool) : RetrainM Unit := do
  let allItems ← retrainRequest .scanAll
  let untrained ← Prog.ofExcept (filterUntrained allItems)
  if untrained.length < minRecordsForTraining ∧ ¬ force then return
  else
    let usable := splitUsable untrained
    if usable.isEmpty then return
    else
      if ← confirmed yes then retrain settings usable
      else return

/-! ## Running it -/

/-- The table, the stored model and metadata, and the models that have been uploaded, with their keys. -/
structure RetrainState where
  table : DynamoTable
  model : Option Model := none
  metadata : Option ModelMetadata := none
  uploads : List (String × Model) := []
  requests : Nat := 0

/-- What the outside answers; `fault` is what a request raises, if it raises, by its number. -/
structure RetrainEnv where
  fault : Nat → RetrainRequest → Option PyError := fun _ _ => none
  isatty : Bool := false
  answer : String := ""
  fit : Model → List DynamoItem → FitReport
  clock : Int := 0

namespace RetrainState

/-- The answer to a request that does not raise, and its effect. -/
def answer (env : RetrainEnv) (s : RetrainState) :
    (o : RetrainRequest) → Except PyError o.Answer × RetrainState
  | .scanAll => (.ok s.table.items, s)
  | .isatty => (.ok env.isatty, s)
  | .input => (.ok env.answer, s)
  | .trainingFrame _ => (.ok (), s)
  | .downloadFile key =>
      match s.model with
      | some model => (.ok model, s)
      | none => (.error (.awsError "s3" "download_file" key), s)
  | .fit base items => (.ok (env.fit base items), s)
  | .dump _ => (.ok (), s)
  | .now => (.ok env.clock, s)
  | .uploadFile key model => (.ok (), { s with model := some model, uploads := (key, model) :: s.uploads })
  | .uploadJson _ body => (.ok (), { s with metadata := some body })
  | .updateItem key => (.ok (), { s with table := s.table.update key "학습여부" (.n 1) })

def handler (env : RetrainEnv) : Prog.Handler RetrainRequest RetrainRequest.Answer PyError RetrainState :=
  fun o s =>
    let s' := { s with requests := s.requests + 1 }
    match env.fault s.requests o with
    | some exc => (.error exc, s')
    | none => s'.answer env o

end RetrainState

end Hailcast
