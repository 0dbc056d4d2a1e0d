import Hailcast.Call.Message

/-!
# CallService

`POST /api/call`: the body of a request is checked, and a valid call is published under a new request id and
answered without waiting for a worker. A body comes as `application/json` and is given by the text that it is decoded
to; the interpreter's limits on nesting and on the digits of an integer are left out.
-/

namespace Hailcast.CallApi

open JsonText

variable {φ δ : Type} (C : Datetimes φ δ) (F : FloatFormat φ)

structure CallResponse where
  accepted : Bool
  requestId : String
  createdAt : Int
  status : CallStatus
deriving DecidableEq

structure CallApiSettings where
  sqsQueueName : String := "hailcast-dev-call-queue"
  sqsAutoCreateQueue : Bool := false

/-- `get_sqs_adapter` -/
def CallApiSettings.adapter (settings : CallApiSettings) : WorkerSettings where
  sqsQueueName := settings.sqsQueueName
  sqsAutoCreateQueue := settings.sqsAutoCreateQueue

inductive Response where
  | accepted (response : CallResponse)
  | validationError (errors : List ErrorDetail)
  | appError (statusCode : Nat) (code : String)
  | internalError
deriving DecidableEq

def Response.statusCode : Response → Nat
  | .accepted _ => 202
  | .validationError _ => 400
  | .appError statusCode _ => statusCode
  | .internalError => 500

/-- The counters that `accept_call` increments. -/
inductive Counter where
  | requestTotal
  | queuePublishTotal
deriving DecidableEq

inductive ApiRequest where
  /-- The body of the next HTTP request. -/
  | receive
  | increment (name : Counter)
  | now
  | uuid4
  /-- A request of the adapter, to find the queue. -/
  | sqs (o : WorkerRequest)
  | sendMessage (body : String)
  /-- `traffic_counter.record()` -/
  | record
  | respond (response : Response)

@[reducible] def ApiRequest.Answer : ApiRequest → Type
  | .receive => String
  | .now => Int
  | .uuid4 => String
  | .sqs o => o.Answer
  | _ => Unit

abbrev ApiM := Prog ApiRequest ApiRequest.Answer PyError

def apiRequest (o : ApiRequest) : ApiM o.Answer := Prog.perform o

/-! ## Publishing -/

/-- `SqsAdapter.send_message` -/
def sendMessage (settings : CallApiSettings) (body : Value String φ) : ApiM Unit :=
  tryCatch (do
    Prog.lift .sqs (fun _ r => r) (SqsAdapter.queueUrl settings.adapter)
    apiRequest (.sendMessage (messageBody F body))) fun
    | .clientError _ => throw (.awsError "sqs" "send_message" settings.sqsQueueName)
    | .botoCoreError => throw (.awsError "sqs" "send_message" settings.sqsQueueName)
    | exc => throw exc

/-- A request without a time is given the time of its arrival. -/
def CallRequest.atArrival (now : Int) (request : CallRequest C) : CallRequest C :=
  match request.requestedAt with
  | none => { request with requestedAt := some (.utc C now) }
  | some _ => request

/-- The message of a call. -/
def CallRequest.message (requestId : String) (now : Int) (request : CallRequest C) : CallMessage C :=
  { requestId := requestId, timestamp := C.utc now, data := request.atArrival C now }

/-- `accept_call` -/
def acceptCall (settings : CallApiSettings) (request : CallRequest C) : ApiM CallResponse := do
  apiRequest (.increment .requestTotal)
  let now ← apiRequest .now
  let requestId ← apiRequest .uuid4
  match (request.message C requestId now).toBody F with
  | none => throw .valueError
  | some body =>
      sendMessage F settings body
      apiRequest (.increment .queuePublishTotal)
      apiRequest .record
      return { accepted := true, requestId := requestId, createdAt := now, status := .queued }

/-! ## The route -/

/-- The body of a request as FastAPI reads it: an empty one and `null` are missing. -/
def readRequest (text : String) : Except (List (FieldError φ)) (CallRequest C) :=
  if text = "" then .error [⟨⟨none, .missing⟩, .null⟩]
  else
    match loads F text with
    | some .null => .error [⟨⟨none, .missing⟩, .null⟩]
    | some v => CallRequest.validate C v
    | none => .error [⟨⟨none, .jsonInvalid⟩, .obj []⟩]

/-- `validation_handler`. The text of the answer is strict JSON in UTF-8; a value that it cannot show makes the handler
raise. -/
def validationResponse (errors : List (FieldError φ)) : Response :=
  if errors.all fun e => e.input.isStandard then .validationError (errors.map FieldError.detail) else .internalError

/-- The handlers of `register_exception_handlers`. -/
def errorResponse : PyError → Response
  | .awsError _ _ _ => .appError 502 "AWS_ERROR"
  | .databaseError _ => .appError 503 "DATABASE_ERROR"
  | .kubernetesError _ => .appError 502 "KUBERNETES_ERROR"
  | .scalingError _ _ => .appError 500 "SCALING_ERROR"
  | .predictionError _ => .appError 500 "PREDICTION_ERROR"
  | .forecastFailed _ => .appError 500 "PREDICTION_ERROR"
  | _ => .internalError

/-- `create_call`, from the request to its response. -/
def createCall (settings : CallApiSettings) : ApiM Unit := do
  let text ← apiRequest .receive
  match readRequest C F text with
  | .error errors => apiRequest (.respond (validationResponse errors))
  | .ok request =>
      let response ← tryCatch (do
        let response ← acceptCall C F settings request
        return Response.accepted response) fun exc => return errorResponse exc
      apiRequest (.respond response)

/-! ## CallQueryService -/

structure CallStatusResponse where
  requestId : String
  status : CallStatus
  requestedAt : Stamp
  processedAt : Option Int

/-- `get_status` -/
def getStatus (requestId : String) : WorkerM (Option CallStatusResponse) :=
  sessionScope do
    match ← CallRepository.getByCallId requestId with
    | none => return none
    | some call =>
        return some
          { requestId := call.callId, status := call.status, requestedAt := call.requestedAt
            processedAt := call.processedAt }

/-- The answer of `GET /api/call/{request_id}`. -/
inductive StatusReply where
  | found (response : CallStatusResponse)
  | notFound
  | failed (response : Response)

/-- `get_call_status`, with the handlers of the exceptions. -/
def getCallStatus : Except PyError (Option CallStatusResponse) → StatusReply
  | .ok (some response) => .found response
  | .ok none => .notFound
  | .error exc => .failed (errorResponse exc)

end Hailcast.CallApi
