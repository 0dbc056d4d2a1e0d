import Hailcast.Worker.Lemmas.Table

/-!
# Saving before deleting

A delivery that is deleted is settled, whatever the other workers do and wherever an operation fails.
-/

namespace Hailcast

open Concurrent

variable {ι : Type} [DecidableEq ι] [Fintype ι] {fromBody : String → Option CallMessage} {settings : WorkerSettings}
  {i : ι} {s s' s₀ : WorkerState ι}

namespace WorkerState

def Stable (i : ι) (J : WorkerState ι → Prop) : Prop := ∀ s s', J s → s.Rely i s' → J s'

omit [DecidableEq ι] [Fintype ι] in
theorem Rely.onward (h : s.Rely i s') : s.Onward s' := h.2

structure Same (s s' : WorkerState ι) : Prop where
  rows : s'.rows = s.rows
  sessions : s'.sessions = s.sessions
  queue : s'.queue = s.queue

omit [DecidableEq ι] [Fintype ι] in
theorem Same.rely (h : s.Same s') (j : ι) : s.Rely j s' :=
  ⟨by rw [h.sessions], fun callId hc => by rwa [callIds, h.rows], by rw [h.queue]; exact QueueLe.refl _⟩

omit [DecidableEq ι] [Fintype ι] in
theorem rely_queue {queue : List SqsMessage} (h : QueueLe s.queue queue) (j : ι) :
    s.Rely j { s with queue := queue } :=
  ⟨rfl, fun _ hc => hc, h⟩

end WorkerState

/-! ## Requests that change nothing that counts -/

def WorkerRequest.Quiet : WorkerRequest → Prop
  | .isResolved | .setResolved | .getQueueUrl | .createQueue | .warnTransition _ _ | .now => True
  | _ => False

theorem WorkerState.answer_quiet {o : WorkerRequest} (ho : o.Quiet) {c : WorkerChoice} {r : Except PyError o.Answer}
    (h : s.answer i o c = some (r, s')) : s.Same s' := by
  cases o with
  | isResolved | setResolved | warnTransition | now =>
      obtain ⟨_, rfl⟩ := Prod.mk.inj (Option.some.inj h)
      exact ⟨rfl, rfl, rfl⟩
  | getQueueUrl | createQueue =>
      simp only [answer] at h
      split at h <;>
      · obtain ⟨_, rfl⟩ := Prod.mk.inj (Option.some.inj h)
        exact ⟨rfl, rfl, rfl⟩
  | _ => exact ho.elim

theorem WorkerService.safe_quiet {α : Type} {p : WorkerM α} {J : WorkerState ι → Prop}
    (hJ : WorkerState.Stable i J) (hp : p.All WorkerRequest.Quiet) (hs : J s) :
    Safe (workerSystem ι fromBody settings).toProtocol i (fun _ => J) (fun _ => J) p s := by
  refine Safe.of_all (fun s s' h hr => hJ s s' h hr) (fun o s c r s' ho hi hj ha => ?_) hp hs
  have hsame := WorkerState.answer_quiet ho ha
  exact ⟨hi.congr hsame.rows hsame.sessions hsame.queue, fun j _ => hsame.rely j, hJ _ _ hj (hsame.rely i)⟩

theorem WorkerService.safe_translate {α : Type} {p : WorkerM α} {g : PyError → WorkerM α}
    {Q : α → WorkerState ι → Prop} {J : WorkerState ι → Prop} (hg : ∀ exc, ∃ exc', g exc = .raise exc')
    (hJ : WorkerState.Stable i J) (h : Safe (workerSystem ι fromBody settings).toProtocol i Q (fun _ => J) p s) :
    Safe (workerSystem ι fromBody settings).toProtocol i Q (fun _ => J) (p.tryCatch g) s := by
  refine Safe.tryCatch (h.mono (fun _ _ _ h => h) fun exc s₁ _ hs₁ => ?_)
  obtain ⟨exc', he⟩ := hg exc
  rw [he]
  exact Safe.raise fun s₂ hr _ => hJ _ _ hs₁ hr

/-- The requests that find the queue. -/
def WorkerRequest.Resolving : WorkerRequest → Prop
  | .isResolved | .setResolved | .getQueueUrl | .createQueue => True
  | _ => False

theorem SqsAdapter.resolving_queueUrl (settings : WorkerSettings) :
    (queueUrl settings).All WorkerRequest.Resolving := by
  refine (Prog.All.perform trivial).bind fun resolved => ?_
  cases resolved with
  | true => trivial
  | false =>
      refine ((Prog.All.perform trivial).tryCatch fun exc => ?_).bind fun _ => Prog.All.perform trivial
      cases exc with
      | clientError code =>
          simp only
          split
          · exact Prog.All.perform trivial
          · trivial
      | _ => trivial

theorem SqsAdapter.quiet_queueUrl (settings : WorkerSettings) : (queueUrl settings).All WorkerRequest.Quiet :=
  (resolving_queueUrl settings).imp fun o ho => by cases o <;> trivial

/-! ## The queue -/

namespace SqsAdapter

variable {J : WorkerState ι → Prop}

theorem safe_wrap {α : Type} {operation : String} {p : WorkerM α} {Q : α → WorkerState ι → Prop}
    (hJ : WorkerState.Stable i J)
    (h : Safe (workerSystem ι fromBody settings).toProtocol i Q (fun _ => J) p s) :
    Safe (workerSystem ι fromBody settings).toProtocol i Q (fun _ => J) (wrap settings operation p) s :=
  WorkerService.safe_translate (fun exc => by cases exc <;> exact ⟨_, rfl⟩) hJ h

/-- A queue operation that may raise after it has happened. -/
theorem safe_queueRequest {o : WorkerRequest} {Q : o.Answer → WorkerState ι → Prop} (hJ : WorkerState.Stable i J)
    {f : WorkerChoice → List SqsMessage → List SqsMessage} {g : WorkerChoice → List SqsMessage → o.Answer}
    (ho : ∀ (c : WorkerChoice) (s : WorkerState ι), s.answer i o c =
      match c.error with
      | some exc => some (.error exc, if c.happened then { s with queue := f c s.queue } else s)
      | none => some (.ok (g c s.queue), { s with queue := f c s.queue }))
    (hle : ∀ c q, QueueLe q (f c q))
    (hinv : ∀ (c : WorkerChoice) (s : WorkerState ι), s.Inv fromBody settings → J s →
      WorkerState.Inv fromBody settings { s with queue := f c s.queue })
    (hQ : ∀ (c : WorkerChoice) (s s' : WorkerState ι), J s' → QueueLe (f c s.queue) s'.queue → Q (g c s.queue) s')
    (hs : J s) :
    Safe (workerSystem ι fromBody settings).toProtocol i Q (fun _ => J) (workerRequest o) s := by
  refine Safe.perform fun s₁ hr hi c r s₂ _ ha => ?_
  have hs₁ := hJ _ _ hs hr
  have hrely := fun j => WorkerState.rely_queue (s := s₁) (hle c s₁.queue) j
  have ha := (ho c s₁).symm.trans ha
  cases herror : c.error with
  | some exc =>
      rw [herror] at ha
      obtain ⟨rfl, rfl⟩ := Prod.mk.inj (Option.some.inj ha)
      split
      · exact ⟨hinv c s₁ hi hs₁, fun j _ => hrely j, fun s₃ hr₃ _ => hJ _ _ (hJ _ _ hs₁ (hrely i)) hr₃⟩
      · exact ⟨hi, fun j _ => s₁.rely_refl j, fun s₃ hr₃ _ => hJ _ _ hs₁ hr₃⟩
  | none =>
      rw [herror] at ha
      obtain ⟨rfl, rfl⟩ := Prod.mk.inj (Option.some.inj ha)
      exact ⟨hinv c s₁ hi hs₁, fun j _ => hrely j, fun s₃ hr₃ _ =>
        hQ c s₁ s₃ (hJ _ _ (hJ _ _ hs₁ (hrely i)) hr₃) hr₃.2.2⟩

theorem safe_receiveMessages (hJ : WorkerState.Stable i J) (hs : J s) :
    Safe (workerSystem ι fromBody settings).toProtocol i
      (fun messages s => J s ∧ ∀ d ∈ messages, d.Known s.queue) (fun _ => J) (receiveMessages settings) s := by
  refine safe_wrap hJ (Safe.andThen (WorkerService.safe_quiet hJ (quiet_queueUrl settings) hs) fun _ s₁ _ hs₁ => ?_)
  refine safe_queueRequest hJ (f := fun c q => (deliver q c.messages).2) (g := fun c q => (deliver q c.messages).1)
    (fun c s => by rcases c with ⟨_ | exc, _, _, _⟩ <;> rfl)
    (fun c q => (deliver_spec q c.messages).1) (fun c s hi _ => ?_) (fun c s s' hs' hle => ?_) hs₁
  · exact hi.queue fun m hm hd => hi.settled m ((deliver_spec s.queue c.messages).2.1 m hm hd) hd
  · exact ⟨hs', fun d hd => ((deliver_spec s.queue c.messages).2.2 d hd).mono hle⟩

theorem safe_deleteMessage {receiptHandle : ReceiptHandle} (hJ : WorkerState.Stable i J)
    (hsettled : ∀ s, J s → ∀ m, s.queue[receiptHandle.message]? = some m →
      m.Settled fromBody settings s.callIds) (hs : J s) :
    Safe (workerSystem ι fromBody settings).toProtocol i (fun _ => J) (fun _ => J)
      (deleteMessage settings receiptHandle) s := by
  refine safe_wrap hJ (Safe.andThen (WorkerService.safe_quiet hJ (quiet_queueUrl settings) hs) fun _ s₁ _ hs₁ => ?_)
  refine safe_queueRequest hJ
    (f := fun _ q => q.modify receiptHandle.message fun m => { m with deleted := true }) (g := fun _ _ => ())
    (fun c s => by rcases c with ⟨_ | exc, _, _, _⟩ <;> rfl)
    (fun c q => queueLe_modify q receiptHandle.message _ fun m => ⟨rfl, le_refl _⟩) (fun c s hi hj => ?_)
    (fun c s s' hs' _ => hs') hs₁
  refine hi.queue fun m hm hd => ?_
  obtain ⟨k, hk⟩ := List.mem_iff_getElem?.mp hm
  rw [List.getElem?_modify] at hk
  obtain ⟨m₀, hm₀, rfl⟩ := Option.map_eq_some_iff.mp hk
  by_cases hik : receiptHandle.message = k
  · simp only [hik, ↓reduceIte]
    exact hsettled s hj m₀ (by rw [hik, hm₀])
  · simp only [hik, ↓reduceIte] at hd ⊢
    exact hi.settled m₀ (List.mem_iff_getElem?.mpr ⟨k, hm₀⟩) hd

end SqsAdapter

/-! ## The transaction -/

namespace WorkerState

/-- Since `s₀`, with this session. -/
def At (s₀ : WorkerState ι) (i : ι) (session : Session) (s : WorkerState ι) : Prop :=
  s₀.Onward s ∧ s.sessions i = session

omit [DecidableEq ι] [Fintype ι] in
theorem stable_onward : Stable i s₀.Onward := fun _ _ h hr => h.trans hr.onward

omit [DecidableEq ι] [Fintype ι] in
theorem stable_at {session : Session} : Stable i (s₀.At i session) :=
  fun _ _ h hr => ⟨h.1.trans hr.onward, hr.1.trans h.2⟩

omit [Fintype ι] in
theorem at_setSession (h : s₀.Onward s) (session : Session) : s₀.At i session (s.setSession i session) :=
  ⟨h.trans (onward_setSession session), sessions_setSession session⟩

end WorkerState

theorem Session.uncommitted_assign (change : Assignment) (session : Session) :
    (session.assign change).uncommitted = session.uncommitted := by
  cases session <;> rfl

theorem WorkerService.safe_assign {change : Assignment} {session : Session} {E : PyError → WorkerState ι → Prop}
    (hs : s₀.At i session s) :
    Safe (workerSystem ι fromBody settings).toProtocol i (fun _ => s₀.At i (session.assign change)) E
      (workerRequest (.assign change)) s := by
  refine Safe.perform fun s₁ hr hi c r s₂ _ ha => ?_
  obtain ⟨honward, hsession⟩ := WorkerState.stable_at _ _ hs hr
  obtain ⟨rfl, rfl⟩ := Prod.mk.inj (Option.some.inj ha)
  refine ⟨hi.setSession fun callId hc => ?_, fun j hj => WorkerState.rely_setSession hj _, fun s₃ hr₃ _ => ?_⟩
  · rwa [Session.uncommitted_assign] at hc
  · rw [← hsession]
    exact WorkerState.stable_at _ _ (WorkerState.at_setSession honward _) hr₃

namespace CallRepository

/-- What is known after the lookup: the session holds a finished row, or nothing. -/
def Found (s₀ : WorkerState ι) (i : ι) (callId : String) (s : WorkerState ι) : Option Call → Prop
  | some row => s₀.At i (.existing row row) s ∧ row.Finished ∧ callId ∈ s.callIds
  | none => s₀.At i .empty s

theorem safe_getByCallId {callId : String} (hs : s₀.At i .empty s) :
    Safe (workerSystem ι fromBody settings).toProtocol i (fun existing s => Found s₀ i callId s existing)
      (fun _ => s₀.Onward) (getByCallId callId) s := by
  refine WorkerService.safe_translate (fun exc => by cases exc <;> exact ⟨_, rfl⟩) WorkerState.stable_onward
    (Safe.perform fun s₁ hr hi c r s₂ _ ha => ?_)
  obtain ⟨honward, hsession⟩ := WorkerState.stable_at _ _ hs hr
  simp only [workerSystem, WorkerState.answer] at ha
  split at ha
  · obtain ⟨rfl, rfl⟩ := Prod.mk.inj (Option.some.inj ha)
    exact ⟨hi, fun j _ => s₁.rely_refl j, fun s₃ hr₃ _ => honward.trans hr₃.2⟩
  · split at ha
    · obtain ⟨rfl, rfl⟩ := Prod.mk.inj (Option.some.inj ha)
      exact ⟨hi, fun j _ => s₁.rely_refl j, fun s₃ hr₃ _ => WorkerState.stable_at _ _ ⟨honward, hsession⟩ hr₃⟩
    · rename_i row hrows
      obtain ⟨rfl, rfl⟩ := Prod.mk.inj (Option.some.inj ha)
      have hmem : row ∈ s₁.rows.filter (fun row => row.callId = callId) := by rw [hrows]; simp
      obtain ⟨hrow, hcall⟩ := List.mem_filter.mp hmem
      have hcall : row.callId = callId := by simpa using hcall
      refine ⟨hi.setSession (fun callId hc => by cases hc), fun j hj => WorkerState.rely_setSession hj _,
        fun s₃ hr₃ _ => ⟨?_, hi.finished row hrow, ?_⟩⟩
      · exact WorkerState.stable_at _ _ (WorkerState.at_setSession honward _) hr₃
      · exact hr₃.2.1 _ (List.mem_map.mpr ⟨row, hrow, hcall⟩)
    · obtain ⟨rfl, rfl⟩ := Prod.mk.inj (Option.some.inj ha)
      exact ⟨hi, fun j _ => s₁.rely_refl j, fun s₃ hr₃ _ => honward.trans hr₃.2⟩

theorem safe_insertFromMessage {message : CallMessage} {status : CallStatus} {receiveCount : Int}
    (hs : s₀.At i .empty s) :
    Safe (workerSystem ι fromBody settings).toProtocol i
      (fun call s => call.status = status ∧ ∃ loaded, loaded.callId = message.requestId ∧
        s₀.At i (.inserted loaded loaded) s)
      (fun _ => s₀.Onward) (insertFromMessage message status receiveCount) s := by
  refine Safe.andThen (WorkerService.safe_translate (fun exc => by cases exc <;> exact ⟨_, rfl⟩)
    WorkerState.stable_onward (Q := fun _ s => ∃ loaded, loaded.callId = message.requestId ∧
      s₀.At i (.inserted loaded loaded) s) (Safe.perform fun s₁ hr hi c r s₂ _ ha => ?_)) ?_
  · obtain ⟨honward, hsession⟩ := WorkerState.stable_at _ _ hs hr
    simp only [workerSystem, WorkerState.answer] at ha
    split at ha
    · obtain ⟨rfl, rfl⟩ := Prod.mk.inj (Option.some.inj ha)
      exact ⟨hi, fun j _ => s₁.rely_refl j, fun s₃ hr₃ _ => honward.trans hr₃.2⟩
    · split at ha
      · obtain ⟨rfl, rfl⟩ := Prod.mk.inj (Option.some.inj ha)
        exact ⟨hi, fun j _ => s₁.rely_refl j, fun s₃ hr₃ _ => honward.trans hr₃.2⟩
      · rename_i hfits
        split at ha
        · cases ha
        · rename_i halone
          obtain ⟨rfl, rfl⟩ := Prod.mk.inj (Option.some.inj ha)
          rw [not_or] at hfits
          refine ⟨hi.insert hfits.2 halone, fun j hj => WorkerState.rely_setSession hj _, fun s₃ hr₃ _ => ?_⟩
          refine ⟨_, ?_, WorkerState.stable_at _ _ (WorkerState.at_setSession honward _) hr₃⟩
          rfl
  · rintro _ s₁ _ ⟨loaded, hid, hat⟩
    exact Safe.ret fun s₂ hr _ => ⟨rfl, loaded, hid, WorkerState.stable_at _ _ hat hr⟩

end CallRepository

/-- A call of status PROCESSING becomes DONE, with a time and without a warning. -/
theorem StateManager.safe_markDone {call loaded current : Call} {E : PyError → WorkerState ι → Prop}
    (hcall : call.status = .processing) (hs : s₀.At i (.inserted loaded current) s) :
    Safe (workerSystem ι fromBody settings).toProtocol i
      (fun _ s => ∃ finished : Call, finished.Finished ∧ s₀.At i (.inserted loaded finished) s) E
      (markDone call) s := by
  have hallowed : allowedTransition call.status .done = true := by rw [hcall]; rfl
  unfold markDone transition
  rw [if_pos hallowed]
  refine Safe.andThen (WorkerService.safe_assign hs) fun _ s₁ _ hs₁ => ?_
  refine Safe.bind (Safe.perform fun s₂ hr hi c r s₃ _ ha => ?_)
  have hs₂ := WorkerState.stable_at _ _ hs₁ hr
  obtain ⟨rfl, rfl⟩ := Prod.mk.inj (Option.some.inj ha)
  refine ⟨hi, fun j _ => s₂.rely_refl j, fun s₄ hr₄ _ => ?_⟩
  have hs₄ := WorkerState.stable_at _ _ hs₂ hr₄
  exact (WorkerService.safe_assign hs₄).mono (fun _ s₅ _ hs₅ => ⟨_, ⟨rfl, rfl⟩, hs₅⟩) fun _ _ _ h => h

namespace WorkerService

theorem safe_save {message : CallMessage} {receiveCount : Int} (hs : s₀.At i .empty s) :
    Safe (workerSystem ι fromBody settings).toProtocol i
      (fun _ s => s₀.Onward s ∧ (s.sessions i).Ready message.requestId s.callIds) (fun _ => s₀.Onward)
      (save message receiveCount) s := by
  refine Safe.andThen (CallRepository.safe_getByCallId hs) fun existing s₁ _ hfound => ?_
  cases existing with
  | some row =>
      obtain ⟨hat, hfinished, hmem⟩ := hfound
      have hat₁ : s₁.At i (.existing row row) s₁ := ⟨WorkerState.Onward.refl s₁, hat.2⟩
      refine Safe.andThen (safe_assign hat₁) fun _ s₂ _ hs₂ => ?_
      -- a committed row is DONE, so only its receive count is assigned
      rw [if_neg (not_not_intro hfinished.1)]
      refine Safe.ret fun s₃ hr _ => ?_
      obtain ⟨honward, hsession⟩ := WorkerState.stable_at _ _ hs₂ hr
      exact ⟨hat.1.trans honward, by rw [hsession]; exact ⟨⟨hfinished.1, hfinished.2⟩, honward.1 _ hmem⟩⟩
  | none =>
      refine Safe.andThen (CallRepository.safe_insertFromMessage hfound) ?_
      rintro call s₂ _ ⟨hstatus, loaded, hid, hat⟩
      refine (StateManager.safe_markDone hstatus hat).mono ?_ fun _ _ _ h => h
      rintro _ s₃ _ ⟨finished, hfinished, hat⟩
      exact ⟨hat.1, by rw [hat.2]; exact ⟨hfinished, hid⟩⟩

theorem safe_rollback {α : Type} {exc : PyError} {Q : α → WorkerState ι → Prop} (hs : s₀.Onward s) :
    Safe (workerSystem ι fromBody settings).toProtocol i Q (fun _ => s₀.At i .empty)
      (do
        workerRequest .rollback
        throw exc) s := by
  refine Safe.bind (Safe.perform fun s₁ hr hi c r s₂ _ ha => ?_)
  obtain ⟨rfl, rfl⟩ := Prod.mk.inj (Option.some.inj ha)
  refine ⟨hi.setSession (fun callId hc => by cases hc), fun j hj => WorkerState.rely_setSession hj _,
    fun s₃ hr₃ _ => Safe.raise fun s₄ hr₄ _ => ?_⟩
  exact WorkerState.stable_at _ _ (WorkerState.stable_at _ _
    (WorkerState.at_setSession (hs.trans hr.onward) _) hr₃) hr₄

/-- After the transaction the session is closed; the row is committed, or the transaction has raised. -/
theorem safe_sessionScope {message : CallMessage} {receiveCount : Int} (hs : s₀.At i .empty s) :
    Safe (workerSystem ι fromBody settings).toProtocol i
      (fun _ s => s₀.At i .empty s ∧ message.requestId ∈ s.callIds) (fun _ => s₀.At i .empty)
      (sessionScope (save message receiveCount)) s := by
  have hstable : WorkerState.Stable i (fun s => s₀.At i .empty s ∧ message.requestId ∈ s.callIds) :=
    fun s s' h hr => ⟨WorkerState.stable_at _ _ h.1 hr, hr.2.1 _ h.2⟩
  refine Safe.tryCatch (Safe.bind ((safe_save hs).mono (fun _ s₁ _ hready => ?_) fun exc s₁ _ honward =>
    safe_rollback honward))
  refine Safe.bind (Safe.perform fun s₂ hr hi c r s₃ _ ha => ?_)
  have honward := hready.1.trans hr.onward
  have hready₂ : (s₂.sessions i).Ready message.requestId s₂.callIds := by
    rw [hr.1]
    exact hready.2.mono hr.2.1
  simp only [workerSystem, WorkerState.answer] at ha
  split at ha
  · obtain ⟨rfl, rfl⟩ := Prod.mk.inj (Option.some.inj ha)
    exact ⟨hi.setSession (fun callId hc => by cases hc), fun j hj => WorkerState.rely_setSession hj _,
      fun s₄ hr₄ _ => safe_rollback (honward.trans hr₄.onward)⟩
  · obtain ⟨rfl, rfl⟩ := Prod.mk.inj (Option.some.inj ha)
    obtain ⟨hinv, hsub, hmem⟩ := hi.commit c.time hready₂
    have hcommit : s₂.Onward { s₂ with rows := (s₂.sessions i).commit c.time s₂.rows } :=
      ⟨hsub, QueueLe.refl _⟩
    have hend : s₀.At i .empty ({ s₂ with rows := (s₂.sessions i).commit c.time s₂.rows }.setSession i .empty) ∧
        message.requestId ∈ WorkerState.callIds
          ({ s₂ with rows := (s₂.sessions i).commit c.time s₂.rows }.setSession i .empty) :=
      ⟨WorkerState.at_setSession (honward.trans hcommit) _, hmem⟩
    exact ⟨hinv, fun j hj => ⟨Function.update_of_ne hj _ _, hcommit⟩, fun s₄ hr₄ _ =>
      Safe.ret fun s₅ hr₅ _ => hstable _ _ (hstable _ _ hend hr₄) hr₅⟩

/-! ## One delivery, and one poll -/

/-- Between two deliveries: no transaction is open, and the messages to come are in the queue. -/
def Polling (i : ι) (msgs : List Delivery) (s : WorkerState ι) : Prop :=
  s.sessions i = .empty ∧ ∀ d ∈ msgs, d.Known s.queue

omit [DecidableEq ι] [Fintype ι] in
theorem Polling.stable {msgs : List Delivery} : WorkerState.Stable i (Polling i msgs) :=
  fun _ _ h hr => ⟨hr.1.trans h.1, fun d hd => (h.2 d hd).mono hr.2.2⟩

theorem safe_handlePoison {msg : Delivery} {msgs : List Delivery} (hbody : fromBody msg.body = none)
    (hs : Polling i (msg :: msgs) s) :
    Safe (workerSystem ι fromBody settings).toProtocol i (fun _ => Polling i (msg :: msgs))
      (fun _ => Polling i (msg :: msgs)) (handlePoison settings msg) s := by
  unfold handlePoison
  split
  · rename_i hcount
    refine Safe.andThen (SqsAdapter.safe_deleteMessage Polling.stable (fun s₁ hs₁ m hm => ?_) hs) fun _ s₁ _ hs₁ =>
      Safe.ret fun s₂ hr _ => Polling.stable _ _ hs₁ hr
    obtain ⟨m', hm', hbody', hle⟩ := hs₁.2 msg List.mem_cons_self
    obtain rfl := Option.some.inj (hm.symm.trans hm')
    exact Or.inr ⟨by rw [hbody', hbody], lt_of_lt_of_le hcount (by exact_mod_cast hle)⟩
  · exact Safe.ret fun s₂ hr _ => Polling.stable _ _ hs hr

/-- The database part of `_process_message`: when it says that the call is saved, the row is committed. -/
theorem safe_saved {message : CallMessage} {msgs : List Delivery} {receiveCount : Int} (hs : Polling i msgs s) :
    Safe (workerSystem ι fromBody settings).toProtocol i
      (fun saved s => Polling i msgs s ∧ (saved = true → message.requestId ∈ s.callIds)) (fun _ _ => True)
      (tryCatch
        (do
          sessionScope (save message receiveCount)
          return true) fun
        | .databaseError _ => return false
        | exc => throw exc) s := by
  have hagain : ∀ s₁, s.At i .empty s₁ → Polling i msgs s₁ :=
    fun s₁ h => ⟨h.2, fun d hd => (hs.2 d hd).mono h.1.2⟩
  refine Safe.tryCatch (Safe.bind ((safe_sessionScope ⟨WorkerState.Onward.refl s, hs.1⟩).mono
    (fun _ s₁ _ h => ?_) fun exc s₁ _ h => ?_))
  · exact Safe.ret fun s₂ hr _ => ⟨Polling.stable _ _ (hagain s₁ h.1) hr, fun _ => hr.2.1 _ h.2⟩
  · cases exc with
    | databaseError operation =>
        exact Safe.ret fun s₂ hr _ => ⟨Polling.stable _ _ (hagain s₁ h) hr, fun hf => by cases hf⟩
    | _ => exact Safe.raise fun _ _ _ => trivial

theorem safe_processMessage {msg : Delivery} {msgs : List Delivery} (hs : Polling i (msg :: msgs) s) :
    Safe (workerSystem ι fromBody settings).toProtocol i (fun _ => Polling i msgs) (fun _ _ => True)
      (processMessage fromBody settings msg) s := by
  have htail : ∀ s₁, Polling i (msg :: msgs) s₁ → Polling i msgs s₁ :=
    fun s₁ h => ⟨h.1, fun d hd => h.2 d (List.mem_cons_of_mem _ hd)⟩
  unfold processMessage
  cases hbody : fromBody msg.body with
  | none => exact (safe_handlePoison hbody hs).mono (fun _ s₁ _ h => htail s₁ h) fun _ _ _ _ => trivial
  | some message =>
      refine Safe.andThen (safe_saved hs) fun saved s₁ _ h => ?_
      cases saved with
      | false => exact Safe.ret fun s₂ hr _ => Polling.stable _ _ (htail s₁ h.1) hr
      | true =>
          have hstable : WorkerState.Stable i
              (fun s₁ => Polling i (msg :: msgs) s₁ ∧ message.requestId ∈ s₁.callIds) :=
            fun s₁ s₂ h hr => ⟨Polling.stable _ _ h.1 hr, hr.2.1 _ h.2⟩
          refine Safe.bind ((SqsAdapter.safe_deleteMessage hstable (fun s₂ hs₂ m hm => ?_) ⟨h.1, h.2 rfl⟩).mono
            (fun _ s₂ _ hs₂ => ?_) fun _ _ _ _ => trivial)
          · -- the handle is that of the message with this body
            obtain ⟨m', hm', hbody', _⟩ := hs₂.1.2 msg List.mem_cons_self
            obtain rfl := Option.some.inj (hm.symm.trans hm')
            exact Or.inl ⟨message, by rw [hbody', hbody], hs₂.2⟩
          · have hrest : Polling i msgs s₂ := htail s₂ hs₂.1
            refine ((safe_quiet Polling.stable ?_ hrest).mono (fun _ _ _ h => h) fun _ _ _ _ => trivial)
            exact (Prog.All.perform trivial).bind fun time => (Prog.All.ofExcept _).bind fun _ => trivial

theorem safe_pollOnce (hs : s.sessions i = .empty) :
    Safe (workerSystem ι fromBody settings).toProtocol i (fun _ _ => True) (fun _ _ => True)
      (pollOnce fromBody settings) s := by
  have hstable : WorkerState.Stable i (fun s => s.sessions i = .empty) := fun _ _ h hr => hr.1.trans h
  refine Safe.bind ((SqsAdapter.safe_receiveMessages hstable hs).mono (fun messages s₁ _ h => ?_)
    fun _ _ _ _ => trivial)
  refine (Safe.foldEach (J := fun (_ : Nat) msgs => Polling i msgs) (fun _ msgs s s' h hr => Polling.stable s s' h hr)
    (fun processed msg msgs s₂ _ hs₂ => ?_) h).mono (fun _ _ _ _ => trivial) fun _ _ _ h => h
  refine Safe.andThen (safe_processMessage hs₂) fun saved s₃ _ h => ?_
  cases saved <;> exact Safe.ret fun s₄ hr _ => Polling.stable _ _ h hr

end WorkerService

end Hailcast
