import Hailcast.Call.Service
import Hailcast.Worker.System

/-!
# Call API, queue and workers

The threads that serve `POST /api/call`, in any number of processes, and the workers behind the queue.
-/

namespace Hailcast.CallApi

open JsonText Concurrent

variable {φ δ : Type}

/-! ## One request -/

/-- What `str(uuid.uuid4())` can be. -/
abbrev Uuid := { s : String // s.length = 36 }

/-- How the outside answers a request. A send publishes `copies` of the body, and one more if it does not raise. -/
structure ApiChoice where
  error : Option PyError := none
  copies : Nat := 0
  text : String := ""
  time : Int := 0
  uuid : Uuid
  resolved : Bool := false

structure ApiState (ι : Type) where
  /-- The body that each thread serves. -/
  current : ι → String := fun _ => ""
  received : List String := []
  /-- The request ids, each with the thread that drew it. -/
  drawn : List (ι × String) := []
  /-- The bodies in the queue, in the order of their sends. -/
  sent : List String := []
  /-- The bodies that have been answered, with their answers. -/
  exchanges : List (String × Response) := []
  counters : Counter → Nat := fun _ => 0
  recorded : Nat := 0

namespace ApiState

variable {ι : Type} [DecidableEq ι]

/-- The answer to a request of thread `i`. A request id never comes twice. -/
def answer (i : ι) (o : ApiRequest) (c : ApiChoice) (s : ApiState ι) :
    Option (Except PyError o.Answer × ApiState ι) :=
  match o with
  | .receive =>
      some (.ok c.text, { s with current := Function.update s.current i c.text, received := s.received ++ [c.text] })
  | .increment name => some (.ok (), { s with counters := Function.update s.counters name (s.counters name + 1) })
  | .now => some (.ok c.time, s)
  | .uuid4 =>
      if c.uuid.1 ∈ s.drawn.map Prod.snd then none
      else some (.ok c.uuid.1, { s with drawn := s.drawn ++ [(i, c.uuid.1)] })
  | .sqs .isResolved => some (.ok c.resolved, s)
  | .sqs .setResolved => some (.ok (), s)
  | .sqs .getQueueUrl | .sqs .createQueue =>
      match c.error with
      | some exc => some (.error exc, s)
      | none => some (.ok (), s)
  | .sqs _ => none
  | .sendMessage body =>
      match c.error with
      | some exc => some (.error exc, { s with sent := s.sent ++ List.replicate c.copies body })
      | none => some (.ok (), { s with sent := s.sent ++ List.replicate (c.copies + 1) body })
  | .record => some (.ok (), { s with recorded := s.recorded + 1 })
  | .respond response => some (.ok (), { s with exchanges := s.exchanges ++ [(s.current i, response)] })

end ApiState

/-! ## What holds between two requests -/

/-- The request id of a call that was accepted. -/
def Response.acceptedId : Response → Option String
  | .accepted response => some response.requestId
  | _ => none

/-- The text of the message of a call. -/
def publishedBody (C : Datetimes φ δ) (F : FloatFormat φ) (request : CallRequest C) (requestId : String) (now : Int) :
    String :=
  messageBody F (request.message C requestId now).dump

namespace ApiState

variable {ι : Type}

def acceptedIds (s : ApiState ι) : List String := s.exchanges.filterMap fun x => x.2.acceptedId

/-- The body is the message of a valid request that was received, under a request id that was drawn. -/
structure Published (C : Datetimes φ δ) (F : FloatFormat φ) (s : ApiState ι) (body requestId : String) (now : Int)
    (text : String) (request : CallRequest C) : Prop where
  body_eq : body = publishedBody C F request requestId now
  drawn : requestId ∈ s.drawn.map Prod.snd
  received : text ∈ s.received
  valid : readRequest C F text = .ok request

/-- The answer fits the request. -/
def Fitting (C : Datetimes φ δ) (F : FloatFormat φ) (s : ApiState ι) (text : String) : Response → Prop
  | .accepted r =>
      r.accepted = true ∧ r.status = .queued ∧
        ∃ request body, s.Published C F body r.requestId r.createdAt text request ∧ body ∈ s.sent
  | .validationError details =>
      ∃ errors, readRequest C F text = .error errors ∧ validationResponse errors = .validationError details
  | .appError _ _ => ∃ request, readRequest C F text = .ok request
  | .internalError =>
      (∃ request, readRequest C F text = .ok request) ∨
        ∃ errors, readRequest C F text = .error errors ∧ validationResponse errors = .internalError

structure Inv (C : Datetimes φ δ) (F : FloatFormat φ) (s : ApiState ι) : Prop where
  unique : (s.drawn.map Prod.snd).Nodup
  published : ∀ body ∈ s.sent, ∃ requestId now text request, s.Published C F body requestId now text request
  /-- Messages with one request id are copies of each other. -/
  copies : ∀ body ∈ s.sent, ∀ body' ∈ s.sent, ∀ m m', CallMessage.fromBody C F body = some m →
    CallMessage.fromBody C F body' = some m' → m.requestId = m'.requestId → body = body'
  fitting : ∀ x ∈ s.exchanges, s.Fitting C F x.1 x.2
  acceptedOnce : s.acceptedIds.Nodup

/-- What thread `i` can rely on: what has happened stays, and nobody else uses its request ids. -/
structure Rely (C : Datetimes φ δ) (F : FloatFormat φ) (i : ι) (s s' : ApiState ι) : Prop where
  current : s'.current i = s.current i
  received : ∀ text ∈ s.received, text ∈ s'.received
  drawn : ∀ x ∈ s.drawn, x ∈ s'.drawn
  sent : ∀ body ∈ s.sent, body ∈ s'.sent
  unsent : ∀ requestId, (i, requestId) ∈ s.drawn → ∀ body ∈ s'.sent, ∀ m, CallMessage.fromBody C F body = some m →
    m.requestId = requestId → body ∈ s.sent
  unanswered : ∀ requestId, (i, requestId) ∈ s.drawn → requestId ∈ s'.acceptedIds → requestId ∈ s.acceptedIds

theorem Rely.refl (C : Datetimes φ δ) (F : FloatFormat φ) (i : ι) (s : ApiState ι) : s.Rely C F i s :=
  ⟨rfl, fun _ h => h, fun _ h => h, fun _ h => h, fun _ _ _ h _ _ _ => h, fun _ _ h => h⟩

theorem Rely.trans (C : Datetimes φ δ) (F : FloatFormat φ) (i : ι) (s s' s'' : ApiState ι) (h : s.Rely C F i s')
    (h' : s'.Rely C F i s'') : s.Rely C F i s'' where
  current := h'.current.trans h.current
  received text ht := h'.received text (h.received text ht)
  drawn x hx := h'.drawn x (h.drawn x hx)
  sent body hb := h'.sent body (h.sent body hb)
  unsent requestId hd body hb m hm hid :=
    h.unsent requestId hd body (h'.unsent requestId (h.drawn _ hd) body hb m hm hid) m hm hid
  unanswered requestId hd ha := h.unanswered requestId hd (h'.unanswered requestId (h.drawn _ hd) ha)

end ApiState

/-! ## The systems -/

/-- Every thread serves one request after another; it can be lost at any point with its process. -/
def apiSystem (ι : Type) [DecidableEq ι] (C : Datetimes φ δ) (F : FloatFormat φ) (settings : CallApiSettings) :
    Concurrent.System ι ApiRequest ApiRequest.Answer ApiChoice Empty (ApiState ι) PyError where
  answer := ApiState.answer
  allow _ _ _ _ := True
  inv := ApiState.Inv C F
  rely := ApiState.Rely C F
  rely_refl := ApiState.Rely.refl C F
  rely_trans := ApiState.Rely.trans C F
  body _ := createCall C F settings
  crashes := true
  reset _ _ s := s
  environment e _ := e.elim
  done _ _ := True

/-- The call API over the workers: what it publishes is in the workers' queue. -/
structure Pipeline (ι κ : Type) where
  api : Config ι ApiRequest ApiRequest.Answer (ApiState ι) PyError
  workers : Config κ WorkerRequest WorkerRequest.Answer (WorkerState κ) PyError

inductive PipelineEvent (ι κ : Type) where
  | api (e : Event ι ApiChoice Empty)
  /-- The next request of a worker. -/
  | worker (k : κ) (c : WorkerChoice)
  | startWorker (k : κ)

section Pipeline

variable {ι κ : Type} [DecidableEq ι] [DecidableEq κ] [Fintype κ]

/-- The messages that a step of the call API has put into the queue. -/
def deliveries (before after : ApiState ι) : List (Event κ WorkerChoice String) :=
  (after.sent.drop before.sent.length).map .environment

variable (C : Datetimes φ δ) (F : FloatFormat φ) (api : CallApiSettings) (worker : WorkerSettings)

/-- What an event is for the workers. -/
def workerEvents (p : Pipeline ι κ) : PipelineEvent ι κ → List (Event κ WorkerChoice String)
  | .api e => deliveries p.api.shared ((apiSystem ι C F api).step p.api e).shared
  | .worker k c => [.act k c]
  | .startWorker k => [.start k]

def Pipeline.step (p : Pipeline ι κ) (e : PipelineEvent ι κ) : Pipeline ι κ where
  api :=
    match e with
    | .api e => (apiSystem ι C F api).step p.api e
    | _ => p.api
  workers :=
    EventRun.run (workerSystem κ (workerFromBody C F) worker).step p.workers (workerEvents C F api p e)

def Pipeline.initial : Pipeline ι κ := ⟨System.initial {}, System.initial {}⟩

/-- The state after a run from empty services. -/
def pipelineRun (ι κ : Type) [DecidableEq ι] [DecidableEq κ] [Fintype κ] (C : Datetimes φ δ) (F : FloatFormat φ)
    (api : CallApiSettings) (worker : WorkerSettings) (events : List (PipelineEvent ι κ)) : Pipeline ι κ :=
  EventRun.run (Pipeline.step C F api worker) Pipeline.initial events

end Pipeline

/-! ## Status queries -/

/-- A session that reads the committed rows; `error` says which of its requests fail. -/
def reading (rows : List Call) (error : WorkerRequest → Option PyError) :
    Prog.Handler WorkerRequest WorkerRequest.Answer PyError Unit := fun o s =>
  match error o, o with
  | some exc, _ => (.error exc, s)
  | none, .select callId =>
      match rows.filter (fun row => row.callId = callId) with
      | [] => (.ok none, s)
      | [row] => (.ok (some row), s)
      | _ => (.error .sqlAlchemyError, s)
  | none, .commit | none, .rollback => (.ok (), s)
  | none, _ => (.error .sqlAlchemyError, s)

def statusReply (rows : List Call) (error : WorkerRequest → Option PyError) (requestId : String) : StatusReply :=
  getCallStatus (Prog.exec (reading rows error) (getStatus requestId) ()).1

end Hailcast.CallApi
