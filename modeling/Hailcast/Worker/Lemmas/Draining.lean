import Hailcast.Lib.Alone
import Hailcast.Worker.Lemmas.Provenance
import Hailcast.Worker.Theorems

/-!
# A worker without failures

When no other worker holds a row that is not committed, a poll in which nothing fails takes the first message of the
queue to the table and deletes it.
-/

namespace Hailcast

open Concurrent

variable {ι : Type} [DecidableEq ι] [Fintype ι] {fromBody : String → Option CallMessage} {settings : WorkerSettings}
  {i : ι}

/-- The first message that has not been deleted. -/
def firstPending (queue : List SqsMessage) : List Nat := (queue.findIdx? fun m => !m.deleted).toList

namespace WorkerState

/-- Nothing fails, and a receive delivers the first message. -/
def calm (s : WorkerState ι) : WorkerChoice := { messages := firstPending s.queue }

/-- The requests of worker `i` when no other worker holds an uncommitted row. -/
def calmly (i : ι) : Prog.Handler WorkerRequest WorkerRequest.Answer PyError (WorkerState ι) :=
  fun o s => (s.answer i o s.calm).getD (.error .botoCoreError, s)

/-- No other worker holds an uncommitted row. -/
def Quiet (i : ι) (s : WorkerState ι) : Prop := ∀ j, j ≠ i → (s.sessions j).uncommitted = none

variable {s s' : WorkerState ι}

end WorkerState

/-! ## A poll -/

open WorkerState WorkerService

abbrev Calmly {α : Type} (i : ι) (p : WorkerM α) (P : α → WorkerState ι → Prop) (s : WorkerState ι) : Prop :=
  Prog.wp (WorkerState.calmly i) p P (fun _ _ => False) s

variable {s s₀ : WorkerState ι} {α : Type}

theorem Calmly.bind {β : Type} {p : WorkerM α} {f : α → WorkerM β} {P : α → WorkerState ι → Prop}
    {Q : β → WorkerState ι → Prop} (hp : Calmly i p P s) (hf : ∀ a s', P a s' → Calmly i (f a) Q s') :
    Calmly i (p >>= f) Q s := Prog.wp.bind hp hf

theorem Calmly.tryCatch {p : WorkerM α} {g : PyError → WorkerM α} {P : α → WorkerState ι → Prop}
    (hp : Calmly i p P s) : Calmly i (p.tryCatch g) P s :=
  (Prog.wp_tryCatch p g).mpr (hp.mono (fun _ _ h => h) fun _ _ h => h.elim)

theorem Calmly.request {o : WorkerRequest} {a : o.Answer} {b : WorkerState ι} {P : o.Answer → WorkerState ι → Prop}
    (ho : WorkerState.calmly i o s = (.ok a, b)) (hP : P a b) : Calmly i (workerRequest o) P s := by
  refine (Prog.wp_perform _).mpr ?_
  rw [ho]
  exact hP

/-- How many messages have not been deleted. -/
def pending (queue : List SqsMessage) : Nat := queue.countP fun m => !m.deleted

abbrev WorkerConfig (ι : Type) := Config ι WorkerRequest WorkerRequest.Answer (WorkerState ι) PyError

/-- The event is a request that does not fail, or the start of a worker that has come to an end. -/
def Faultless (p : WorkerConfig ι) : Event ι WorkerChoice String → Prop
  | .act _ c => c.error = none
  | .start i => (p.threads i).ended = true
  | .environment _ => False

/-- The workers go on without failures. -/
abbrev Calm (fromBody : String → Option CallMessage) (settings : WorkerSettings) (p : WorkerConfig ι)
    (es : List (Event ι WorkerChoice String)) : Prop :=
  EventRun.Along (workerSystem ι fromBody settings).step Faultless p es

end Hailcast
