import Hailcast.Worker.Service

/-!
# The polling loop

`run_forever` over the answers of the services, and what of them ends it.
-/

namespace Hailcast

open WorkerService

variable {σ : Type}

/-! ## run_forever -/

inductive LoopRequest where
  | worker (o : WorkerRequest)
  /-- `self._running` -/
  | isRunning
  /-- `path.parent.mkdir` and `path.touch` of the heartbeat file -/
  | touch
  | sleep (seconds : Nat)

@[reducible] def LoopRequest.Answer : LoopRequest → Type
  | .worker o => o.Answer
  | .isRunning => Bool
  | _ => Unit

abbrev LoopM := Prog LoopRequest LoopRequest.Answer PyError

def loopRequest (o : LoopRequest) : LoopM o.Answer := Prog.perform o

namespace WorkerService

def touchHeartbeat : LoopM Unit :=
  tryCatch (loopRequest .touch) fun
    | .osError => return
    | exc => throw exc

/-- The body of the `while`. -/
def pollRound (fromBody : String → Option CallMessage) (settings : WorkerSettings) : LoopM Unit :=
  tryCatch (do
    let _ ← Prog.lift .worker (fun _ r => r) (pollOnce fromBody settings)
    touchHeartbeat) fun
    | .awsError _ _ _ => loopRequest (.sleep 5)
    | exc => throw exc

/-- `run_forever` for `n` rounds at most: `false` after `stop`, and `true` where the loop goes on. -/
def runForever (fromBody : String → Option CallMessage) (settings : WorkerSettings) : Nat → LoopM Bool
  | 0 => return true
  | n + 1 => do
      if ← loopRequest .isRunning then
        pollRound fromBody settings
        runForever fromBody settings n
      else return false

end WorkerService

/-! ## What the services raise -/

def WorkerRequest.Raises : WorkerRequest → PyError → Prop
  | .getQueueUrl, exc | .createQueue, exc | .receiveMessages, exc | .deleteMessage _, exc =>
      (∃ code, exc = .clientError code) ∨ exc = .botoCoreError
  | .select _, exc | .insert _, exc | .commit, exc | .rollback, exc => exc = .sqlAlchemyError
  | _, _ => False

def LoopRequest.Raises : LoopRequest → PyError → Prop
  | .worker o, exc => o.Raises exc
  | .touch, exc => exc = .osError
  | _, _ => False

abbrev WorkerHandler (σ : Type) := Prog.Handler WorkerRequest WorkerRequest.Answer PyError σ

abbrev LoopHandler (σ : Type) := Prog.Handler LoopRequest LoopRequest.Answer PyError σ

abbrev WorkerTrace := List ((o : WorkerRequest) × Except PyError o.Answer)

def LoopHandler.worker (h : LoopHandler σ) : WorkerHandler σ := fun o s => h (.worker o) s

def WorkerHandler.Documented (h : WorkerHandler σ) : Prop := ∀ o s exc, (h o s).1 = .error exc → o.Raises exc

def LoopHandler.Documented (h : LoopHandler σ) : Prop := ∀ o s exc, (h o s).1 = .error exc → o.Raises exc

/-! ## What the loop survives -/

/-- No commit and no rollback fails. -/
def Committed (trace : WorkerTrace) : Prop :=
  ∀ exc, ⟨.commit, .error exc⟩ ∉ trace ∧ ⟨.rollback, .error exc⟩ ∉ trace

/-- No commit and no rollback fails, and a call that is deleted from the queue has an aware timestamp. -/
structure Survivable (fromBody : String → Option CallMessage) (msg : Delivery) (trace : WorkerTrace) : Prop where
  committed : Committed trace
  aware : ∀ message handle, fromBody msg.body = some message → ⟨.deleteMessage handle, .ok ()⟩ ∈ trace →
    ∃ t, message.timestamp = .aware t

/-- The messages of a batch that are processed, each with the state it is processed from. -/
def processed (h : WorkerHandler σ) (fromBody : String → Option CallMessage) (settings : WorkerSettings) :
    List Delivery → σ → List (Delivery × σ)
  | [], _ => []
  | msg :: msgs, s =>
      (msg, s) ::
        match Prog.exec h (processMessage fromBody settings msg) s with
        | (.ok _, s') => processed h fromBody settings msgs s'
        | (.error _, _) => []

/-- Every message of the poll that is processed is `Survivable`. -/
def SurvivablePoll (h : WorkerHandler σ) (fromBody : String → Option CallMessage) (settings : WorkerSettings) (s : σ) :
    Prop :=
  ∀ msgs s', Prog.exec h (SqsAdapter.receiveMessages settings) s = (.ok msgs, s') →
    ∀ x ∈ processed h fromBody settings msgs s',
      Survivable fromBody x.1 (Prog.trace h (processMessage fromBody settings x.1) x.2)

/-- The states in which the polls of the loop begin. -/
def polls (h : LoopHandler σ) (fromBody : String → Option CallMessage) (settings : WorkerSettings) : Nat → σ → List σ
  | 0, _ => []
  | n + 1, s =>
      match h .isRunning s with
      | (.ok true, s₁) =>
          s₁ ::
            match Prog.exec h (pollRound fromBody settings) s₁ with
            | (.ok _, s₂) => polls h fromBody settings n s₂
            | (.error _, _) => []
      | _ => []

/-- After `n` rounds the loop goes on, or `stop` has been called. -/
def KeepsPolling (h : LoopHandler σ) (fromBody : String → Option CallMessage) (settings : WorkerSettings) (n : Nat)
    (s : σ) : Prop :=
  (Prog.exec h (runForever fromBody settings n) s).1 = .ok true ∨
    (Prog.exec h (runForever fromBody settings n) s).1 = .ok false ∧
      ⟨.isRunning, .ok false⟩ ∈ Prog.trace h (runForever fromBody settings n) s

end Hailcast
