import Hailcast.Common.Json
import Hailcast.Lib.Prog

/-!
# WorkerService

The consumer of the call queue: deliveries are parsed, saved in the `calls` table in one transaction each, and
then deleted from the queue.
-/

namespace Hailcast

inductive CallStatus where
  | queued
  | processing
  | done
  | failed
deriving DecidableEq

/-- A row of `calls`. The columns that are filled at the INSERT are `none` before it. -/
structure Call where
  callId : String
  requestedAt : Stamp
  status : CallStatus
  messageVersion : String
  enqueuedAt : Option Stamp
  processedAt : Option Int := none
  receiveCount : Int
  createdAt : Option Int := none
  updatedAt : Option Int := none

/-- What the worker reads of a message body that `CallMessage` accepts. -/
structure CallMessage where
  requestId : String
  version : String
  timestamp : Stamp
  /-- `data.requested_at`; its validator makes it an aware time. -/
  requestedAt : Option Int

/-- A receipt handle stands for one receive of one message. -/
structure ReceiptHandle where
  message : Nat
  receive : Nat

/-- An element of `receive_messages`. -/
structure Delivery where
  receiptHandle : ReceiptHandle
  body : String
  receiveCount : Nat

structure WorkerSettings where
  sqsQueueName : String := "hailcast-dev-call-queue"
  sqsRetryCount : Int := 5
  sqsAutoCreateQueue : Bool := false

/-- An assignment to an attribute of the call that the session holds. -/
inductive Assignment where
  | receiveCount (n : Int)
  | status (status : CallStatus)
  | processedAt (time : Int)

inductive WorkerRequest where
  /-- `self._queue_url` is set. -/
  | isResolved
  | setResolved
  | getQueueUrl
  | createQueue
  | receiveMessages
  | deleteMessage (receiptHandle : ReceiptHandle)
  /-- `session.execute(select(Call).where(Call.call_id == call_id)).scalar_one_or_none()` -/
  | select (callId : String)
  /-- `session.add(call)` and `session.flush()` -/
  | insert (call : Call)
  | assign (change : Assignment)
  /-- `session.commit()`: the UPDATE of what has been assigned, and the COMMIT. -/
  | commit
  | rollback
  | warnTransition (current new : CallStatus)
  | now

@[reducible] def WorkerRequest.Answer : WorkerRequest → Type
  | .isResolved => Bool
  | .receiveMessages => List Delivery
  | .select _ => Option Call
  | .now => Int
  | _ => Unit

abbrev WorkerM := Prog WorkerRequest WorkerRequest.Answer PyError

def workerRequest (o : WorkerRequest) : WorkerM o.Answer := Prog.perform o

/-! ## SqsAdapter -/

namespace SqsAdapter

/-- `except (ClientError, BotoCoreError) as exc: raise self._wrap(operation, exc)` -/
def wrap {α : Type} (settings : WorkerSettings) (operation : String) (p : WorkerM α) : WorkerM α :=
  tryCatch p fun
    | .clientError _ => throw (.awsError "sqs" operation settings.sqsQueueName)
    | .botoCoreError => throw (.awsError "sqs" operation settings.sqsQueueName)
    | exc => throw exc

def queueUrl (settings : WorkerSettings) : WorkerM Unit := do
  if ← workerRequest .isResolved then return
  else
    tryCatch (workerRequest .getQueueUrl) fun
      | .clientError code =>
          if settings.sqsAutoCreateQueue ∧
              (code = "AWS.SimpleQueueService.NonExistentQueue" ∨ code = "QueueDoesNotExist") then
            workerRequest .createQueue
          else throw (.awsError "sqs" "get_queue_url" settings.sqsQueueName)
      | .botoCoreError => throw (.awsError "sqs" "get_queue_url" settings.sqsQueueName)
      | exc => throw exc
    workerRequest .setResolved

def receiveMessages (settings : WorkerSettings) : WorkerM (List Delivery) :=
  wrap settings "receive_message" do
    queueUrl settings
    workerRequest .receiveMessages

def deleteMessage (settings : WorkerSettings) (receiptHandle : ReceiptHandle) : WorkerM Unit :=
  wrap settings "delete_message" do
    queueUrl settings
    workerRequest (.deleteMessage receiptHandle)

end SqsAdapter

/-! ## Database and CallRepository -/

def sessionScope {α : Type} (p : WorkerM α) : WorkerM α :=
  tryCatch (do
    let a ← p
    workerRequest .commit
    return a) fun exc => do
      workerRequest .rollback
      throw exc

namespace CallRepository

/-- `except SQLAlchemyError as exc: raise self._wrap(operation, exc)` -/
def wrap {α : Type} (operation : String) (p : WorkerM α) : WorkerM α :=
  tryCatch p fun
    | .sqlAlchemyError => throw (.databaseError operation)
    | exc => throw exc

def getByCallId (callId : String) : WorkerM (Option Call) := wrap "select_call" (workerRequest (.select callId))

def insertFromMessage (message : CallMessage) (status : CallStatus) (receiveCount : Int) : WorkerM Call := do
  let call : Call :=
    { callId := message.requestId
      requestedAt := (message.requestedAt.map Stamp.aware).getD message.timestamp
      status := status
      messageVersion := message.version
      enqueuedAt := some message.timestamp
      receiveCount := receiveCount }
  wrap "insert_call" (workerRequest (.insert call))
  return call

end CallRepository

/-! ## StateManager -/

namespace StateManager

/-- `_ALLOWED_TRANSITIONS` -/
def allowedTransition : CallStatus → CallStatus → Bool
  | .queued, .processing | .queued, .failed => true
  | .processing, .done | .processing, .failed => true
  | .failed, .processing => true
  | _, _ => false

/-- `transition`: a transition that is not allowed is made all the same, with a warning. -/
def transition (call : Call) (new : CallStatus) : WorkerM Unit := do
  if allowedTransition call.status new then pure ()
  else workerRequest (.warnTransition call.status new)
  workerRequest (.assign (.status new))
  if new = .done then
    let time ← workerRequest .now
    workerRequest (.assign (.processedAt time))
  else return

def markDone (call : Call) : WorkerM Unit := transition call .done

end StateManager

/-! ## WorkerService -/

namespace WorkerService

/-- The transaction of `_process_message`. -/
def save (message : CallMessage) (receiveCount : Int) : WorkerM Unit := do
  match ← CallRepository.getByCallId message.requestId with
  | some existing =>
      workerRequest (.assign (.receiveCount receiveCount))
      if existing.status ≠ .done then StateManager.markDone existing
      else return
  | none =>
      let call ← CallRepository.insertFromMessage message .processing receiveCount
      StateManager.markDone call

def handlePoison (settings : WorkerSettings) (msg : Delivery) : WorkerM Bool := do
  if settings.sqsRetryCount < msg.receiveCount then
    SqsAdapter.deleteMessage settings msg.receiptHandle
    return false
  else return false

/-- `_process_message`; `fromBody` is `CallMessage.from_body`, and `none` its `ValidationError`. -/
def processMessage (fromBody : String → Option CallMessage) (settings : WorkerSettings) (msg : Delivery) :
    WorkerM Bool := do
  match fromBody msg.body with
  | none => handlePoison settings msg
  | some message =>
      let saved ← tryCatch
        (do
          sessionScope (save message msg.receiveCount)
          return true) fun
        | .databaseError _ => return false
        | exc => throw exc
      if saved then
        SqsAdapter.deleteMessage settings msg.receiptHandle
        let time ← workerRequest .now
        let _ ← Prog.ofExcept (message.timestamp.before time)
        return true
      else return false

/-- `poll_once`; the result is the number of processed messages. -/
def pollOnce (fromBody : String → Option CallMessage) (settings : WorkerSettings) : WorkerM Nat := do
  let messages ← SqsAdapter.receiveMessages settings
  Prog.foldEach (fun processed msg => do
    if ← processMessage fromBody settings msg then return processed + 1
    else return processed) 0 messages

end WorkerService

end Hailcast
