import Hailcast.Worker.Lemmas.Delivery
import Hailcast.Worker.Lemmas.Polling
import Hailcast.Worker.Lemmas.Redelivery

/-!
# No valid call is lost or stored twice

Over every interleaving of the workers, with redeliveries, failures of every operation, and crashes anywhere.
-/

namespace Hailcast

open Concurrent

variable {ι : Type} [DecidableEq ι] [Fintype ι] {fromBody : String → Option CallMessage} {settings : WorkerSettings}

omit [DecidableEq ι] [Fintype ι] in
theorem WorkerState.Inv.send {s : WorkerState ι} (h : s.Inv fromBody settings) (body : String) :
    (s.send body).Inv fromBody settings := by
  refine h.queue fun m hm hd => ?_
  rcases List.mem_append.mp hm with hm | hm
  · exact h.settled m hm hd
  · obtain rfl := List.mem_singleton.mp hm
    cases hd

theorem workerSystem_sound : (workerSystem ι fromBody settings).Sound where
  body returned i s _ _ := by
    refine Safe.andThen (WorkerService.safe_pollOnce (WorkerState.sessions_start returned)) fun _ _ _ _ => ?_
    exact Safe.ret fun _ _ _ => trivial
  reset_inv returned _ _ hi := hi.start returned
  reset_rely returned _ _ _ _ hj := WorkerState.rely_start hj returned
  environment_inv body _ hi := hi.send body
  environment_rely body _ s _ := ⟨rfl, fun _ h => h, queueLe_append s.queue [{ body := body }]⟩

omit [DecidableEq ι] [Fintype ι] in
theorem workerState_inv : WorkerState.Inv fromBody settings ({} : WorkerState ι) where
  unique := List.nodup_nil
  finished _ h := by cases h
  fresh _ _ h := by cases h
  apart _ _ _ h := by cases h
  settled _ h := by cases h

/-- The state after a run from an empty table and an empty queue. -/
def workerRun (ι : Type) [DecidableEq ι] [Fintype ι] (fromBody : String → Option CallMessage)
    (settings : WorkerSettings) (events : List (Event ι WorkerChoice String)) : WorkerState ι :=
  (EventRun.run (workerSystem ι fromBody settings).step (System.initial {}) events).shared

theorem workerSystem_allowed (p : Config ι WorkerRequest WorkerRequest.Answer (WorkerState ι) PyError)
    (e : Event ι WorkerChoice String) : (workerSystem ι fromBody settings).Allowed p e := by
  cases e with
  | act i c =>
      change (workerSystem ι fromBody settings).AllowedNext i c _ _
      unfold System.AllowedNext
      split <;> trivial
  | start i => exact Or.inl rfl
  | environment body => trivial

/-- The invariant, and workers whose requests are proper. -/
def WorkerGood (fromBody : String → Option CallMessage) (settings : WorkerSettings)
    (p : Config ι WorkerRequest WorkerRequest.Answer (WorkerState ι) PyError) : Prop :=
  (workerSystem ι fromBody settings).Good p ∧ WorkerFollowing p

theorem WorkerGood.step {p : Config ι WorkerRequest WorkerRequest.Answer (WorkerState ι) PyError}
    (h : WorkerGood fromBody settings p) (e : Event ι WorkerChoice String) :
    WorkerGood fromBody settings ((workerSystem ι fromBody settings).step p e) :=
  ⟨System.good_step workerSystem_sound h.1 (workerSystem_allowed p e), h.2.step h.1.1 e⟩

theorem workerGood_run (events : List (Event ι WorkerChoice String)) :
    WorkerGood fromBody settings (EventRun.run (workerSystem ι fromBody settings).step (System.initial {}) events) :=
  EventRun.run_invariant (fun _ e h => h.step e)
    ⟨System.good_initial workerState_inv fun _ _ _ _ => trivial, fun _ => trivial⟩ events

theorem workerRun_inv (events : List (Event ι WorkerChoice String)) :
    (workerRun ι fromBody settings events).Inv fromBody settings := (workerGood_run events).1.1

/-- A call on its way: one delivery, saved and then deleted. -/
example :
    let message : CallMessage := ⟨"r-1", "1", .aware 0, none⟩
    let events : List (Event Unit WorkerChoice String) :=
      [.environment "body", .start (), .act () {}, .act () {}, .act () {}, .act () { messages := [0] }] ++
        List.replicate 11 (.act () {})
    let s := workerRun Unit (fun _ => some message) {} events
    s.rows.map Call.callId = ["r-1"] ∧ s.queue.map SqsMessage.deleted = [true] := by
  decide +kernel

/-! ## Redeliveries -/

theorem kept_run {p : Config ι WorkerRequest WorkerRequest.Answer (WorkerState ι) PyError}
    (h : WorkerGood fromBody settings p) (events : List (Event ι WorkerChoice String)) :
    Kept p.shared.rows (EventRun.run (workerSystem ι fromBody settings).step p events).shared.rows := by
  have hstep : ∀ q e, WorkerGood fromBody settings q ∧ Kept p.shared.rows q.shared.rows →
      WorkerGood fromBody settings ((workerSystem ι fromBody settings).step q e) ∧
        Kept p.shared.rows ((workerSystem ι fromBody settings).step q e).shared.rows :=
    fun q e hq => ⟨hq.1.step e, hq.2.trans (kept_step hq.1.1.1 hq.1.2 e)⟩
  exact (EventRun.run_invariant hstep ⟨h, Kept.refl _⟩ events).2

/-- However a run goes on, a committed row stays, with the same values in every column but the receive count and
`updated_at`; and a worker that is about to set a status sets DONE on a call that is PROCESSING, without the warning. -/
theorem redelivery_keeps_rows (ι : Type) [DecidableEq ι] [Fintype ι] (fromBody : String → Option CallMessage)
    (settings : WorkerSettings) (events : List (Event ι WorkerChoice String)) :
    (∀ more row, row ∈ (workerRun ι fromBody settings events).rows →
      (∃ row' ∈ (workerRun ι fromBody settings (events ++ more)).rows, row'.callId = row.callId) ∧
        ∀ row' ∈ (workerRun ι fromBody settings (events ++ more)).rows, row'.callId = row.callId →
          row' = { row with receiveCount := row'.receiveCount, updatedAt := row'.updatedAt }) ∧
      ∀ i o,
        ((EventRun.run (workerSystem ι fromBody settings).step (System.initial {}) events).threads i).next = some o →
        (∀ current new, o ≠ .warnTransition current new) ∧
          ∀ new, o = .assign (.status new) → new = .done ∧
            ∃ loaded current, (workerRun ι fromBody settings events).sessions i = .inserted loaded current ∧
              current.status = .processing := by
  have hgood : WorkerGood fromBody settings
      (EventRun.run (workerSystem ι fromBody settings).step (System.initial {}) events) := workerGood_run events
  constructor
  · intro more row hrow
    have hkept := kept_run hgood more
    rw [← EventRun.run_append] at hkept
    obtain ⟨row₁, hrow₁, heq⟩ := hkept row hrow
    have hid : row₁.callId = row.callId := by rw [heq]
    refine ⟨⟨row₁, hrow₁, hid⟩, fun row' hrow' hid' => ?_⟩
    have hinv : (workerRun ι fromBody settings (events ++ more)).Inv fromBody settings := workerRun_inv _
    obtain rfl := List.inj_on_of_nodup_map hinv.unique hrow' hrow₁ (hid'.trans hid.symm)
    exact heq
  · intro i o hnext
    have hproper : Session.Proper o ((workerRun ι fromBody settings events).sessions i) := hgood.2.next hnext
    refine ⟨?_, ?_⟩
    · rintro current new rfl
      exact hproper
    · rintro new rfl
      exact hproper

/-! ## The polling loop -/

/-- A poll returns or raises an `AwsError`, and `run_forever` polls on until `stop`, if and only if in the messages it
processes no commit and no rollback fails and no call with a naive timestamp is acknowledged. -/
theorem polling_survives_iff {σ : Type} {h : LoopHandler σ} (hdoc : h.Documented)
    (fromBody : String → Option CallMessage) (settings : WorkerSettings) :
    (∀ s, (∀ exc, (Prog.exec h.worker (WorkerService.pollOnce fromBody settings) s).1 = .error exc →
        IsAwsError exc) ↔ SurvivablePoll h.worker fromBody settings s) ∧
      ∀ n s, KeepsPolling h fromBody settings n s ↔
        ∀ s' ∈ polls h fromBody settings n s, SurvivablePoll h.worker fromBody settings s' :=
  ⟨pollOnce_survives_iff fun o s exc hexc => hdoc (.worker o) s exc hexc, keepsPolling_iff hdoc⟩

/-- Services that deliver the same messages again and again, over a table without the calls. -/
def steadyServices (messages : List Delivery) (commit : Except PyError Unit) : LoopHandler Unit
  | .worker .isResolved, s => (.ok true, s)
  | .worker .receiveMessages, s => (.ok messages, s)
  | .worker (.select _), s => (.ok none, s)
  | .worker .commit, s => (commit, s)
  | .worker .now, s => (.ok 0, s)
  | .worker .setResolved, s | .worker .getQueueUrl, s | .worker .createQueue, s | .worker (.deleteMessage _), s =>
      (.ok (), s)
  | .worker (.insert _), s | .worker (.assign _), s | .worker .rollback, s | .worker (.warnTransition _ _), s =>
      (.ok (), s)
  | .isRunning, s => (.ok true, s)
  | .touch, s | .sleep _, s => (.ok (), s)

theorem steadyServices_documented (messages : List Delivery) {commit : Except PyError Unit}
    (hcommit : ∀ exc, commit = .error exc → exc = .sqlAlchemyError) : (steadyServices messages commit).Documented := by
  intro o s exc hexc
  cases o with
  | worker o =>
      cases o with
      | commit => exact hcommit exc hexc
      | _ => cases hexc
  | _ => cases hexc

def firstDelivery : Delivery := ⟨⟨0, 1⟩, "body", 1⟩

theorem polling_survives_iff_steady :
    (∀ s, (∀ exc, (Prog.exec (steadyServices [firstDelivery] (.ok ())).worker
        (WorkerService.pollOnce (fun _ => some ⟨"r-1", "1", .aware 0, none⟩) {}) s).1 = .error exc → IsAwsError exc) ↔
          SurvivablePoll (steadyServices [firstDelivery] (.ok ())).worker
            (fun _ => some ⟨"r-1", "1", .aware 0, none⟩) {} s) ∧
      ∀ n s,
        KeepsPolling (steadyServices [firstDelivery] (.ok ())) (fun _ => some ⟨"r-1", "1", .aware 0, none⟩) {} n s ↔
          ∀ s' ∈ polls (steadyServices [firstDelivery] (.ok ())) (fun _ => some ⟨"r-1", "1", .aware 0, none⟩) {} n s,
            SurvivablePoll (steadyServices [firstDelivery] (.ok ())).worker
              (fun _ => some ⟨"r-1", "1", .aware 0, none⟩) {} s' :=
  polling_survives_iff (steadyServices_documented [firstDelivery] fun exc hexc => by cases hexc) _ _

/-- A commit that fails ends the loop, and so does a timestamp without a zone. -/
theorem polling_ended_by_commit :
    (steadyServices [firstDelivery] (.error .sqlAlchemyError)).Documented ∧
      (Prog.exec (steadyServices [firstDelivery] (.error .sqlAlchemyError)).worker
        (WorkerService.pollOnce (fun _ => some ⟨"r-1", "1", .aware 0, none⟩) {}) ()).1 = .error .sqlAlchemyError ∧
      (Prog.exec (steadyServices [firstDelivery] (.error .sqlAlchemyError))
        (WorkerService.runForever (fun _ => some ⟨"r-1", "1", .aware 0, none⟩) {} 1) ()).1 = .error .sqlAlchemyError ∧
      (Prog.exec (steadyServices [firstDelivery] (.ok ()))
        (WorkerService.runForever (fun _ => some ⟨"r-1", "1", .naive 0, none⟩) {} 1) ()).1 = .error .typeError :=
  ⟨steadyServices_documented _ fun exc hexc => by cases hexc; rfl, rfl, rfl, rfl⟩

end Hailcast
