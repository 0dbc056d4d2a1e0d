import Hailcast.Lib.Concurrent
import Hailcast.Retrain.Trigger

/-!
# ModelLoader and the uploads

Any number of `ModelLoader` objects and of training runs over one bucket. Every upload of a `model.pkl` has a
number, its source, which no thread reads: a `metadata.json` belongs to the model that its run uploaded before it.
-/

namespace Hailcast

/-! ## Metadata and requests -/

/-- What `upload_to_s3` writes; `trained_at` is the version again. -/
structure TrainMetadata where
  version : ModelVersion
  mae : ℚ
  rmse : ℚ

/-- A `metadata.json`, by what wrote it. -/
inductive StoredMetadata where
  | trained (body : TrainMetadata)
  | continued (body : ModelMetadata)

def StoredMetadata.version : StoredMetadata → ModelVersion
  | .trained body => body.version
  | .continued body => body.version

structure MlTrainSettings where
  mlS3UploadEnabled : Bool := false
  modelS3Prefix : String := "models"

/-- `os.path.join(self._cache_dir, f"model-{version}.pkl")` -/
structure LocalPath where
  cacheDir : String
  version : ModelVersion
deriving DecidableEq

/-- The fields of a `ModelLoader`; `_metadata` starts as an empty dict. -/
structure LoaderFields where
  cachedVersion : Option ModelVersion := none
  model : Option Model := none
  metadata : Option StoredMetadata := none

inductive ModelRequest where
  | retrain (o : RetrainRequest)
  | uploadTrainJson (key : String) (body : TrainMetadata)
  | downloadJson (key : String)
  | fields
  | makedirs (dir : String)
  | downloadFile (key : String) (path : LocalPath)
  | joblibLoad (path : LocalPath)
  | setFields (fields : LoaderFields)
  | deliver (model : Option Model) (metadata : Option StoredMetadata)

@[reducible] def ModelRequest.Answer : ModelRequest → Type
  | .retrain o => o.Answer
  | .uploadTrainJson _ _ => Unit
  | .downloadJson _ => StoredMetadata
  | .fields => LoaderFields
  | .makedirs _ => Unit
  | .downloadFile _ _ => Unit
  | .joblibLoad _ => Model
  | .setFields _ => Unit
  | .deliver _ _ => Unit

abbrev ModelM := Prog ModelRequest ModelRequest.Answer PyError

def modelRequest (o : ModelRequest) : ModelM o.Answer := Prog.perform o

/-! ## The programs -/

/-- `ModelLoader.load_latest` -/
def loadLatest (modelPrefix cacheDir : String) : ModelM (Option Model × Option StoredMetadata) := do
  let metadata ← modelRequest (.downloadJson (modelPrefix ++ "/latest/metadata.json"))
  let version := metadata.version
  let self ← modelRequest .fields
  if self.cachedVersion ≠ some version ∨ self.model.isNone then
    modelRequest (.makedirs cacheDir)
    modelRequest (.downloadFile (modelPrefix ++ "/latest/model.pkl") ⟨cacheDir, version⟩)
    let model ← modelRequest (.joblibLoad ⟨cacheDir, version⟩)
    modelRequest (.setFields ⟨some version, some model, some metadata⟩)
  let self ← modelRequest .fields
  return (self.model, self.metadata)

/-- `upload_to_s3`, of the model in the local file. -/
def uploadToS3 (model : Model) (mae rmse : ℚ) (settings : MlTrainSettings) : ModelM Unit := do
  if settings.mlS3UploadEnabled then
    let time ← modelRequest (.retrain .now)
    modelRequest (.retrain (.uploadFile (settings.modelS3Prefix ++ "/latest/model.pkl") model))
    modelRequest (.uploadTrainJson (settings.modelS3Prefix ++ "/latest/metadata.json")
      ⟨.trained (time / 1000000), mae, rmse⟩)
  else return

/-- The end of a training or a retraining, with what it has fitted. -/
inductive TrainJob where
  | train (model : Model) (mae rmse : ℚ) (settings : MlTrainSettings)
  | retrain (model : Model) (report : FitReport) (settings : RetrainTriggerSettings) (recordCount : Nat)

def TrainJob.upload : TrainJob → ModelM Unit
  | .train model mae rmse settings => uploadToS3 model mae rmse settings
  | .retrain model report settings recordCount =>
      (uploadContinuedModel model report settings recordCount).lift .retrain (fun _ answer => answer)

/-! ## The shared state -/

structure ModelObject where
  model : Model
  source : Nat

structure MetadataObject where
  body : StoredMetadata
  source : Nat

/-- A model and the version in the `metadata.json` uploaded with it. -/
structure ModelUpload where
  version : ModelVersion
  model : Model

inductive ModelThread (ι κ : Type) where
  | loader (i : ι)
  | trainer (k : κ)
deriving DecidableEq

structure ModelState (ι κ : Type) where
  models : String → Option ModelObject := fun _ => none
  metadata : String → Option MetadataObject := fun _ => none
  files : LocalPath → Option Model := fun _ => none
  fields : ι → LoaderFields := fun _ => {}
  delivered : List (Option Model × Option StoredMetadata) := []
  /-- The models uploaded so far; a source is a place here. -/
  sent : List Model := []
  /-- The source of a run's own model. -/
  pending : κ → Nat := fun _ => 0
  /-- What a loader has last found as `metadata.json`. -/
  found : ι → Option MetadataObject := fun _ => none
  uploads : List ModelUpload := []

/-- How the outside answers a request. One that raises may have happened. -/
structure ModelChoice where
  error : Option PyError := none
  happened : Bool := false
  time : Int := 0

namespace ModelState

variable {ι κ : Type} [DecidableEq ι] [DecidableEq κ]

def putModel (s : ModelState ι κ) (k : κ) (key : String) (model : Model) : ModelState ι κ :=
  { s with
    models := Function.update s.models key (some ⟨model, s.sent.length⟩)
    sent := s.sent ++ [model]
    pending := Function.update s.pending k s.sent.length }

def putMetadata (s : ModelState ι κ) (k : κ) (key : String) (body : StoredMetadata) : ModelState ι κ :=
  { s with
    metadata := Function.update s.metadata key (some ⟨body, s.pending k⟩)
    uploads := s.uploads ++ (s.sent[s.pending k]?.map (fun model => ⟨body.version, model⟩)).toList }

/-- A call to the outside with this effect. -/
def reply {α : Type} (c : ModelChoice) (a : α) (s s' : ModelState ι κ) :
    Option (Except PyError α × ModelState ι κ) :=
  match c.error with
  | some exc => some (.error exc, if c.happened then s' else s)
  | none => some (.ok a, s')

/-- The answer to a request; `none` for one that the thread does not make. -/
def answer (t : ModelThread ι κ) (o : ModelRequest) (c : ModelChoice) (s : ModelState ι κ) :
    Option (Except PyError o.Answer × ModelState ι κ) :=
  match t, o with
  | .trainer _, .retrain (.dump _) => reply c () s s
  | .trainer _, .retrain .now => some (.ok c.time, s)
  | .trainer k, .retrain (.uploadFile key model) => reply c () s (s.putModel k key model)
  | .trainer k, .retrain (.uploadJson key body) => reply c () s (s.putMetadata k key (.continued body))
  | .trainer k, .uploadTrainJson key body => reply c () s (s.putMetadata k key (.trained body))
  | .loader i, .downloadJson key =>
      match s.metadata key with
      | some object => reply c object.body s { s with found := Function.update s.found i (some object) }
      | none => some (.error (.awsError "s3" "get_object" key), s)
  | .loader i, .fields => some (.ok (s.fields i), s)
  | .loader _, .makedirs _ => reply c () s s
  | .loader _, .downloadFile key path =>
      match s.models key with
      | some object => reply c () s { s with files := Function.update s.files path (some object.model) }
      | none => some (.error (.awsError "s3" "download_file" key), s)
  | .loader _, .joblibLoad path =>
      match s.files path with
      | some model => reply c model s s
      | none => some (.error .osError, s)
  | .loader i, .setFields fields => some (.ok (), { s with fields := Function.update s.fields i fields })
  | .loader _, .deliver model metadata => some (.ok (), { s with delivered := s.delivered ++ [(model, metadata)] })
  | _, _ => none

/-- A `model.pkl` is downloaded only while it is the one that the `metadata.json` found by the loader belongs to, and
the versions are all distinct. -/
def undisturbed (t : ModelThread ι κ) (o : ModelRequest) (s : ModelState ι κ) : Bool :=
  match t, o with
  | .loader i, .downloadFile key _ =>
      (s.models key).all (fun object => (s.found i).map MetadataObject.source = some object.source)
  | .trainer _, .retrain (.uploadJson _ body) => s.uploads.all (fun upload => upload.version ≠ body.version)
  | .trainer _, .uploadTrainJson _ body => s.uploads.all (fun upload => upload.version ≠ body.version)
  | _, _ => true

end ModelState

end Hailcast
