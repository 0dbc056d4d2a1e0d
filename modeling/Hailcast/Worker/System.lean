import Hailcast.Lib.Concurrent
import Hailcast.Worker.Service
import Mathlib.Data.Fintype.Basic

/-!
# Queue, database and workers

Any number of workers over one queue and one `calls` table. A worker's session holds one call, which becomes
visible to the others when it is committed.
-/

namespace Hailcast

/-! ## Sessions -/

def Assignment.apply (call : Call) : Assignment → Call
  | .receiveCount n => { call with receiveCount := n }
  | .status new => { call with status := new }
  | .processedAt time => { call with processedAt := some time }

/-- The open transaction of a worker: no call yet, one that was selected, or one that was inserted; with the call
as the database gave or took it, and as it is after the assignments. -/
inductive Session where
  | empty
  | existing (loaded current : Call)
  | inserted (loaded current : Call)

namespace Session

def assign (change : Assignment) : Session → Session
  | .empty => .empty
  | .existing loaded current => .existing loaded (change.apply current)
  | .inserted loaded current => .inserted loaded (change.apply current)

/-- The `call_id` of the uncommitted row. -/
def uncommitted : Session → Option String
  | .inserted loaded _ => some loaded.callId
  | _ => none

end Session

/-- The UPDATE of a row: the columns whose attribute differs from what was loaded, and `updated_at`. -/
def Call.update (time : Int) (loaded current row : Call) : Call :=
  if current.receiveCount = loaded.receiveCount ∧ current.status = loaded.status ∧
      current.processedAt = loaded.processedAt then row
  else
    { row with
      receiveCount := if current.receiveCount = loaded.receiveCount then row.receiveCount else current.receiveCount
      status := if current.status = loaded.status then row.status else current.status
      processedAt := if current.processedAt = loaded.processedAt then row.processedAt else current.processedAt
      updatedAt := some time }

def Session.commit (time : Int) (rows : List Call) : Session → List Call
  | .empty => rows
  | .existing loaded current =>
      rows.map fun row => if row.callId = loaded.callId then loaded.update time current row else row
  | .inserted loaded current => rows ++ [loaded.update time current loaded]

def Call.fits (call : Call) : Bool := call.callId.length ≤ 36 && call.messageVersion.length ≤ 8

/-! ## The queue -/

/-- A message of the queue: how often it has been received, and whether it has been deleted. After the deletion it is
not received any more, so `received` stays as it was then. -/
structure SqsMessage where
  body : String
  received : Nat := 0
  deleted : Bool := false

/-- A receive of these messages. Deleted messages are not delivered, and the receive count grows. -/
def deliver (queue : List SqsMessage) : List Nat → List Delivery × List SqsMessage
  | [] => ([], queue)
  | id :: ids =>
      match queue[id]? with
      | some message =>
          if message.deleted then deliver queue ids
          else
            let (messages, queue) :=
              deliver (queue.modify id fun m => { m with received := m.received + 1 }) ids
            (⟨⟨id, message.received + 1⟩, message.body, message.received + 1⟩ :: messages, queue)
      | none => deliver queue ids

/-! ## One request -/

/-- How the outside answers a request: with an exception or without one, and then with these messages and this
time. A queue operation that raises may have happened. -/
structure WorkerChoice where
  error : Option PyError := none
  happened : Bool := false
  messages : List Nat := []
  time : Int := 0

structure WorkerState (ι : Type) where
  rows : List Call := []
  sessions : ι → Session := fun _ => .empty
  resolved : ι → Bool := fun _ => false
  queue : List SqsMessage := []

namespace WorkerState

variable {ι : Type} [DecidableEq ι]

def setSession (s : WorkerState ι) (i : ι) (session : Session) : WorkerState ι :=
  { s with sessions := Function.update s.sessions i session }

/-- The answer to a request of worker `i`; `none` for an INSERT that waits for the end of another transaction. -/
def answer [Fintype ι] (i : ι) (o : WorkerRequest) (c : WorkerChoice) (s : WorkerState ι) :
    Option (Except PyError o.Answer × WorkerState ι) :=
  match o with
  | .isResolved => some (.ok (s.resolved i), s)
  | .setResolved => some (.ok (), { s with resolved := Function.update s.resolved i true })
  | .getQueueUrl | .createQueue =>
      match c.error with
      | some exc => some (.error exc, s)
      | none => some (.ok (), s)
  | .receiveMessages =>
      let (messages, queue) := deliver s.queue c.messages
      match c.error with
      | some exc => some (.error exc, if c.happened then { s with queue := queue } else s)
      | none => some (.ok messages, { s with queue := queue })
  | .deleteMessage receiptHandle =>
      let queue := s.queue.modify receiptHandle.message fun m => { m with deleted := true }
      match c.error with
      | some exc => some (.error exc, if c.happened then { s with queue := queue } else s)
      | none => some (.ok (), { s with queue := queue })
  | .select callId =>
      match c.error with
      | some exc => some (.error exc, s)
      | none =>
          match s.rows.filter (fun row => row.callId = callId) with
          | [] => some (.ok none, s)
          | [row] => some (.ok (some row), s.setSession i (.existing row row))
          | _ => some (.error .sqlAlchemyError, s)
  | .insert call =>
      match c.error with
      | some exc => some (.error exc, s)
      | none =>
          if !call.fits ∨ call.callId ∈ s.rows.map Call.callId then some (.error .sqlAlchemyError, s)
          else if ∃ j, j ≠ i ∧ (s.sessions j).uncommitted = some call.callId then none
          else
            let call := { call with createdAt := some c.time, updatedAt := some c.time }
            some (.ok (), s.setSession i (.inserted call call))
  | .assign change => some (.ok (), s.setSession i ((s.sessions i).assign change))
  | .commit =>
      match c.error with
      | some exc => some (.error exc, s.setSession i .empty)
      | none => some (.ok (), { s with rows := (s.sessions i).commit c.time s.rows }.setSession i .empty)
  | .rollback => some (.ok (), s.setSession i .empty)
  | .warnTransition _ _ => some (.ok (), s)
  | .now => some (.ok c.time, s)

/-! ## What holds between two requests -/

def callIds (s : WorkerState ι) : List String := s.rows.map Call.callId

end WorkerState

def Call.Finished (call : Call) : Prop := call.status = .done ∧ call.processedAt.isSome

/-- The message has a row, or it is invalid and was received more often than the limit. -/
def SqsMessage.Settled (fromBody : String → Option CallMessage) (settings : WorkerSettings) (callIds : List String)
    (m : SqsMessage) : Prop :=
  (∃ message, fromBody m.body = some message ∧ message.requestId ∈ callIds) ∨
  (fromBody m.body = none ∧ settings.sqsRetryCount < m.received)

/-- The queue goes on: every message keeps its body, and its receive count does not fall. -/
def QueueLe (queue queue' : List SqsMessage) : Prop :=
  ∀ (id : Nat) (m : SqsMessage), queue[id]? = some m →
    ∃ m', queue'[id]? = some m' ∧ m'.body = m.body ∧ m.received ≤ m'.received

theorem QueueLe.refl (queue : List SqsMessage) : QueueLe queue queue := fun _ m h => ⟨m, h, rfl, le_refl _⟩

theorem QueueLe.trans {q q' q'' : List SqsMessage} (h : QueueLe q q') (h' : QueueLe q' q'') : QueueLe q q'' := by
  intro id m hm
  obtain ⟨m', hm', hbody, hle⟩ := h id m hm
  obtain ⟨m'', hm'', hbody', hle'⟩ := h' id m' hm'
  exact ⟨m'', hm'', hbody'.trans hbody, hle.trans hle'⟩

structure WorkerState.Inv {ι : Type} (fromBody : String → Option CallMessage) (settings : WorkerSettings)
    (s : WorkerState ι) : Prop where
  unique : s.callIds.Nodup
  finished : ∀ row ∈ s.rows, row.Finished
  /-- An uncommitted row is a new one, and the only one. -/
  fresh : ∀ i callId, (s.sessions i).uncommitted = some callId → callId ∉ s.callIds
  apart : ∀ i j callId, (s.sessions i).uncommitted = some callId → (s.sessions j).uncommitted = some callId → i = j
  settled : ∀ m ∈ s.queue, m.deleted = true → m.Settled fromBody settings s.callIds

/-- What worker `i` can rely on: its session, the committed rows and the messages stay. -/
def WorkerState.Rely {ι : Type} (i : ι) (s s' : WorkerState ι) : Prop :=
  s'.sessions i = s.sessions i ∧ (∀ callId ∈ s.callIds, callId ∈ s'.callIds) ∧ QueueLe s.queue s'.queue

theorem WorkerState.rely_refl {ι : Type} (i : ι) (s : WorkerState ι) : s.Rely i s :=
  ⟨rfl, fun _ h => h, QueueLe.refl _⟩

theorem WorkerState.rely_trans {ι : Type} (i : ι) (s s' s'' : WorkerState ι) (h : s.Rely i s') (h' : s'.Rely i s'') :
    s.Rely i s'' :=
  ⟨h'.1.trans h.1, fun callId hc => h'.2.1 callId (h.2.1 callId hc), h.2.2.trans h'.2.2⟩

/-! ## The system -/

def WorkerState.send {ι : Type} (s : WorkerState ι) (body : String) : WorkerState ι :=
  { s with queue := s.queue ++ [{ body := body }] }

/-- The next poll of worker `i`, in the same process if the last one has returned. Otherwise the process is a new one,
which does not know the URL of the queue. -/
def WorkerState.start {ι : Type} [DecidableEq ι] (returned : Bool) (i : ι) (s : WorkerState ι) : WorkerState ι :=
  { s.setSession i .empty with
    resolved := if returned then s.resolved else Function.update s.resolved i false }

/-- Every worker polls again and again; a crash, which is possible anywhere, ends its transaction. -/
def workerSystem (ι : Type) [DecidableEq ι] [Fintype ι] (fromBody : String → Option CallMessage)
    (settings : WorkerSettings) :
    Concurrent.System ι WorkerRequest WorkerRequest.Answer WorkerChoice String (WorkerState ι) PyError where
  answer := WorkerState.answer
  allow _ _ _ _ := True
  inv := WorkerState.Inv fromBody settings
  rely := WorkerState.Rely
  rely_refl := WorkerState.rely_refl
  rely_trans := WorkerState.rely_trans
  body _ := do let _ ← WorkerService.pollOnce fromBody settings
  crashes := true
  reset := WorkerState.start
  environment body s := s.send body
  done _ _ := True

end Hailcast
