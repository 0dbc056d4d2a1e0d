import Hailcast.Lib.Dict
import Hailcast.Lib.Prog
import Hailcast.Scaling.Document

/-!
# FileStore on S3

`S3Adapter` and the S3 backend of `FileStore`, as programs over the requests of the services that share state
through the store. The clock, the counter of a pod, the prediction reader and the Kubernetes adapter are requests
too.
-/

namespace Hailcast

inductive StoreRequest where
  | headBucket
  | createBucket
  /-- `self._ensured` of the adapter -/
  | isEnsured
  | setEnsured
  | headObject (key : String)
  | getObject (key : String)
  | putObject (key : String) (body : Blob)
  | listObjects (pfx : String)
  /-- `datetime.now(timezone.utc)` -/
  | now
  /-- The count of this pod, read and reset under its lock. -/
  | takeCount
  /-- `self._reader.read_latest()` -/
  | readLatest
  /-- `self._keda.get_actual_replicas()` -/
  | getActualReplicas

@[reducible] def StoreRequest.Answer : StoreRequest → Type
  | .headBucket => Unit
  | .createBucket => Unit
  | .isEnsured => Bool
  | .setEnsured => Unit
  | .headObject _ => Unit
  | .getObject _ => Blob
  | .putObject _ _ => Unit
  | .listObjects _ => List String
  | .now => Int
  | .takeCount => Nat
  | .readLatest => Option PredictionDocument
  | .getActualReplicas => Int

abbrev StoreM := Prog StoreRequest StoreRequest.Answer PyError

def storeRequest (o : StoreRequest) : StoreM o.Answer := Prog.perform o

/-! ## S3Adapter -/

namespace S3Adapter

/-- `except (ClientError, BotoCoreError) as exc: raise self._wrap(operation, key, exc)` -/
def wrap {α : Type} (operation key : String) (p : StoreM α) : StoreM α :=
  tryCatch p fun
    | .clientError _ => throw (.awsError "s3" operation key)
    | .botoCoreError => throw (.awsError "s3" operation key)
    | exc => throw exc

def ensureBucket (autoCreate : Bool) : StoreM Unit := do
  if autoCreate then
    if ← storeRequest .isEnsured then return
    else
      tryCatch (storeRequest .headBucket) fun
        | .clientError _ => storeRequest .createBucket
        | exc => throw exc
      storeRequest .setEnsured
  else return

def uploadText (autoCreate : Bool) (key : String) (body : Blob) : StoreM Unit :=
  wrap "put_object" key do
    ensureBucket autoCreate
    storeRequest (.putObject key body)

def downloadText (key : String) : StoreM Blob := wrap "get_object" key (storeRequest (.getObject key))

def listKeys (pfx : String) : StoreM (List String) := wrap "list_objects_v2" pfx (storeRequest (.listObjects pfx))

/-- `exists`: any `ClientError` is an absent object. -/
def «exists» (key : String) : StoreM Bool :=
  tryCatch (do storeRequest (.headObject key); return true) fun
    | .clientError _ => return false
    | exc => throw exc

end S3Adapter

/-! ## FileStore -/

namespace FileStore

def readText (key : String) : StoreM (Option Blob) := do
  if ← S3Adapter.exists key then return some (← S3Adapter.downloadText key)
  else return none

def readJson (key : String) : StoreM (Option Json) := do
  match ← readText key with
  | some text => return some (← Prog.ofExcept text.loads)
  | none => return none

def listKeys (pfx : String) : StoreM (List String) := S3Adapter.listKeys pfx

def writeText (autoCreate : Bool) (key : String) (content : Blob) : StoreM Unit :=
  S3Adapter.uploadText autoCreate key content

def writeJson (autoCreate : Bool) (key : String) (data : Json) : StoreM Unit :=
  S3Adapter.uploadText autoCreate key (.json data)

end FileStore

/-- `read_json(key) or []`, as a list; `exc` is what the next step raises for a value that is not a list. -/
def listOrEmpty (exc : PyError) : Option Json → Except PyError (List Json)
  | none => .ok []
  | some body =>
      if body.truthy then
        match body with
        | .arr xs => .ok xs
        | _ => .error exc
      else .ok []

/-! ## The bucket -/

/-- The objects of the bucket, and the flag of the adapter. -/
structure S3State where
  objects : Dict String Blob := Dict.empty
  ensured : Bool := false

/-- What the outside answers during one operation. Within an operation a request occurs once, so `fault` says for
each request what it raises, if it raises. -/
structure StoreEnv where
  fault : StoreRequest → Option PyError := fun _ => none
  clock : Int
  count : Nat := 0
  latest : Option PredictionDocument := none
  actualReplicas : Int := 0

/-- `list_objects_v2` returns the first thousand keys with the prefix, in their order. -/
def S3State.listObjects (s : S3State) (pfx : String) : List String :=
  ((s.objects.keys.filter (fun key => pfx.toList.isPrefixOf key.toList)).mergeSort
    (fun a b => decide (a ≤ b))).take 1000

namespace S3State

/-- The answer to a request that does not raise by `fault`. -/
def answer (env : StoreEnv) (s : S3State) : (o : StoreRequest) → Except PyError o.Answer × S3State
  | .headBucket => (.ok (), s)
  | .createBucket => (.ok (), s)
  | .isEnsured => (.ok s.ensured, s)
  | .setEnsured => (.ok (), { s with ensured := true })
  | .headObject key => (if (s.objects.get? key).isSome then .ok () else .error (.clientError "404"), s)
  | .getObject key =>
      match s.objects.get? key with
      | some body => (.ok body, s)
      | none => (.error (.clientError "NoSuchKey"), s)
  | .putObject key body => (.ok (), { s with objects := s.objects.set key body })
  | .listObjects pfx => (.ok (s.listObjects pfx), s)
  | .now => (.ok env.clock, s)
  | .takeCount => (.ok env.count, s)
  | .readLatest => (.ok env.latest, s)
  | .getActualReplicas => (.ok env.actualReplicas, s)

def handler (env : StoreEnv) : Prog.Handler StoreRequest StoreRequest.Answer PyError S3State :=
  fun o s =>
    match env.fault o with
    | some exc => (.error exc, s)
    | none => s.answer env o

end S3State

end Hailcast
