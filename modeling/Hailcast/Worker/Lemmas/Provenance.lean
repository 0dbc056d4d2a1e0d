import Hailcast.Lib.Knowledge
import Hailcast.Worker.Lemmas.Redelivery

/-!
# Where the rows come from

Every committed row is the row of a valid message of the queue.
-/

namespace Hailcast

open Concurrent

variable {ι : Type} [DecidableEq ι] [Fintype ι] {fromBody : String → Option CallMessage} {settings : WorkerSettings}

/-- The columns that are filled from the message. -/
structure Call.OfMessage (message : CallMessage) (call : Call) : Prop where
  callId : call.callId = message.requestId
  requestedAt : call.requestedAt = (message.requestedAt.map Stamp.aware).getD message.timestamp
  messageVersion : call.messageVersion = message.version
  enqueuedAt : call.enqueuedAt = some message.timestamp

/-- The call is that of a valid message among these. -/
def Call.Sourced (fromBody : String → Option CallMessage) (bodies : List String) (call : Call) : Prop :=
  ∃ body ∈ bodies, ∃ message, fromBody body = some message ∧ call.OfMessage message

theorem Call.Sourced.mono {bodies bodies' : List String} {call : Call} (h : call.Sourced fromBody bodies)
    (hsub : ∀ body ∈ bodies, body ∈ bodies') : call.Sourced fromBody bodies' := by
  obtain ⟨body, hbody, hmessage⟩ := h
  exact ⟨body, hsub body hbody, hmessage⟩

/-! ## What a worker has seen -/

namespace WorkerRequest

/-- The bodies that have been delivered. -/
def Delivers : (o : WorkerRequest) → Except PyError o.Answer → List String → List String → Prop
  | .receiveMessages, .ok msgs, bodies, bodies' => bodies' = bodies ++ msgs.map Delivery.body
  | _, _, bodies, bodies' => bodies' = bodies

/-- A call is inserted only from a message that has been delivered. -/
def FromDelivered (fromBody : String → Option CallMessage) : WorkerRequest → List String → Prop
  | .insert call, bodies => call.Sourced fromBody bodies
  | _, _ => True

/-- The requests that neither deliver nor insert. -/
def Unrelated : WorkerRequest → Prop
  | .receiveMessages | .insert _ => False
  | _ => True

end WorkerRequest

abbrev WorkerM.Sources {α : Type} (fromBody : String → Option CallMessage) (p : WorkerM α)
    (Q : α → List String → Prop) (bodies : List String) : Prop :=
  Prog.Follows WorkerRequest.Delivers (WorkerRequest.FromDelivered fromBody) Q (fun _ bodies' => bodies' = bodies) p
    bodies

namespace WorkerService

variable {α : Type} {bodies : List String}

theorem sources_unrelated {p : WorkerM α} (hp : p.All WorkerRequest.Unrelated) :
    WorkerM.Sources fromBody p (fun _ bodies' => bodies' = bodies) bodies := by
  refine Prog.Follows.of_all (fun o ho => ?_) hp (fun _ => rfl) fun _ => rfl
  cases o with
  | receiveMessages | insert => exact ho.elim
  | _ => exact ⟨trivial, fun _ _ ha => ha⟩

theorem unrelated_wrap {p : WorkerM α} {operation : String} (hp : p.All WorkerRequest.Unrelated) :
    (SqsAdapter.wrap settings operation p).All WorkerRequest.Unrelated := by
  refine hp.tryCatch fun exc => ?_
  cases exc <;> trivial

theorem unrelated_queueUrl (settings : WorkerSettings) :
    (SqsAdapter.queueUrl settings).All WorkerRequest.Unrelated :=
  (SqsAdapter.resolving_queueUrl settings).imp fun o ho => by cases o <;> trivial

theorem unrelated_deleteMessage (receiptHandle : ReceiptHandle) :
    (SqsAdapter.deleteMessage settings receiptHandle).All WorkerRequest.Unrelated :=
  unrelated_wrap ((unrelated_queueUrl settings).bind fun _ => Prog.All.perform trivial)

theorem unrelated_handlePoison (msg : Delivery) : (handlePoison settings msg).All WorkerRequest.Unrelated := by
  unfold handlePoison
  split
  · exact (unrelated_deleteMessage msg.receiptHandle).bind fun _ => trivial
  · trivial

theorem unrelated_markDone (call : Call) : (StateManager.markDone call).All WorkerRequest.Unrelated := by
  unfold StateManager.markDone StateManager.transition
  dsimp only
  split
  · exact (Prog.All.perform trivial).bind fun _ => (Prog.All.perform trivial).bind fun _ => Prog.All.perform trivial
  · exact (Prog.All.perform trivial).bind fun _ => (Prog.All.perform trivial).bind fun _ =>
      (Prog.All.perform trivial).bind fun _ => Prog.All.perform trivial

theorem unrelated_getByCallId (callId : String) :
    (CallRepository.getByCallId callId).All WorkerRequest.Unrelated := by
  refine (Prog.All.perform trivial).tryCatch fun exc => ?_
  cases exc <;> trivial

theorem sources_insertFromMessage {message : CallMessage} {status : CallStatus} {receiveCount : Int}
    (hmessage : ∃ body ∈ bodies, fromBody body = some message) :
    WorkerM.Sources fromBody (CallRepository.insertFromMessage message status receiveCount)
      (fun _ bodies' => bodies' = bodies) bodies := by
  obtain ⟨body, hbody, hparsed⟩ := hmessage
  refine Prog.Follows.bind (Prog.Follows.tryCatch (Prog.Follows.perform ?_ (fun _ _ ha => ?_) fun exc _ ha => ?_))
  · exact ⟨body, hbody, message, hparsed, rfl, rfl, rfl, rfl⟩
  · exact ha
  · cases exc <;> exact ha

theorem sources_save {message : CallMessage} {receiveCount : Int}
    (hmessage : ∃ body ∈ bodies, fromBody body = some message) :
    WorkerM.Sources fromBody (save message receiveCount) (fun _ bodies' => bodies' = bodies) bodies := by
  refine Prog.Follows.bind ((sources_unrelated (unrelated_getByCallId message.requestId)).mono ?_ fun _ _ h => h)
  rintro found _ rfl
  cases found with
  | some existing =>
      refine sources_unrelated ((Prog.All.perform trivial).bind fun _ => ?_)
      split
      · exact unrelated_markDone existing
      · trivial
  | none =>
      refine Prog.Follows.bind ((sources_insertFromMessage hmessage).mono ?_ fun _ _ h => h)
      rintro call _ rfl
      exact sources_unrelated (unrelated_markDone call)

theorem sources_sessionScope {message : CallMessage} {receiveCount : Int}
    (hmessage : ∃ body ∈ bodies, fromBody body = some message) :
    WorkerM.Sources fromBody (sessionScope (save message receiveCount)) (fun _ bodies' => bodies' = bodies) bodies := by
  refine Prog.Follows.tryCatch (Prog.Follows.bind ((sources_save hmessage).mono ?_ ?_))
  · rintro _ _ rfl
    refine Prog.Follows.bind (Prog.Follows.perform trivial (fun _ _ ha => ha) ?_)
    rintro exc _ rfl
    exact sources_unrelated (p := do workerRequest .rollback; throw exc)
      ((Prog.All.perform trivial).bind fun _ => trivial)
  · rintro exc _ rfl
    exact sources_unrelated (p := do workerRequest .rollback; throw exc)
      ((Prog.All.perform trivial).bind fun _ => trivial)

theorem sources_processMessage {msg : Delivery} (hmsg : msg.body ∈ bodies) :
    WorkerM.Sources fromBody (processMessage fromBody settings msg) (fun _ bodies' => bodies' = bodies) bodies := by
  unfold processMessage
  cases hbody : fromBody msg.body with
  | none => exact sources_unrelated (unrelated_handlePoison msg)
  | some message =>
      refine Prog.Follows.bind (Prog.Follows.tryCatch (Prog.Follows.bind
        ((sources_sessionScope ⟨msg.body, hmsg, hbody⟩).mono ?_ ?_)))
      · rintro _ _ rfl
        refine sources_unrelated ((unrelated_deleteMessage msg.receiptHandle).bind fun _ => ?_)
        exact (Prog.All.perform trivial).bind fun _ => (Prog.All.ofExcept _).bind fun _ => trivial
      · rintro exc _ rfl
        cases exc <;> exact rfl

theorem sources_pollOnce :
    Prog.Follows WorkerRequest.Delivers (WorkerRequest.FromDelivered fromBody) (fun _ _ => True) (fun _ _ => True)
      (pollOnce fromBody settings) bodies := by
  have hreceive : Prog.Follows WorkerRequest.Delivers (WorkerRequest.FromDelivered fromBody)
      (fun msgs bodies' => ∀ msg ∈ msgs, msg.body ∈ bodies') (fun _ _ => True)
      (SqsAdapter.receiveMessages settings) bodies := by
    refine Prog.Follows.tryCatch (Prog.Follows.bind
      ((sources_unrelated (unrelated_queueUrl settings)).mono (fun _ _ _ => ?_) fun exc _ _ => ?_))
    · refine Prog.Follows.perform trivial (fun msgs bodies' ha msg hmsg => ?_) fun exc _ _ => ?_
      · have ha : bodies' = _ ++ msgs.map Delivery.body := ha
        rw [ha]
        exact List.mem_append_right _ (List.mem_map_of_mem hmsg)
      · cases exc <;> trivial
    · cases exc <;> trivial
  refine Prog.Follows.bind (hreceive.mono (fun msgs bodies' hmsgs => ?_) fun _ _ _ => trivial)
  have hloop : ∀ (rest : List Delivery) (n : Nat), (∀ msg ∈ rest, msg.body ∈ bodies') →
      Prog.Follows WorkerRequest.Delivers (WorkerRequest.FromDelivered fromBody) (fun _ _ => True) (fun _ _ => True)
        (Prog.foldEach (fun processed msg => do
          if ← processMessage fromBody settings msg then return processed + 1
          else return processed) n rest) bodies' := by
    intro rest
    induction rest with
    | nil => exact fun _ _ => trivial
    | cons msg rest ih =>
        intro n hrest
        refine Prog.Follows.bind (Prog.Follows.bind ((sources_processMessage (hrest msg List.mem_cons_self)).mono ?_
          fun _ _ _ => trivial))
        rintro saved _ rfl
        cases saved <;> exact ih _ fun msg' hmsg' => hrest msg' (List.mem_cons_of_mem _ hmsg')
  exact hloop msgs 0 hmsgs

end WorkerService

/-! ## Runs -/

namespace WorkerState

def bodies (s : WorkerState ι) : List String := s.queue.map SqsMessage.body

/-- Committed rows, and those that wait for the commit, come from messages of the queue. -/
structure Sourced (fromBody : String → Option CallMessage) (s : WorkerState ι) : Prop where
  rows : ∀ row ∈ s.rows, row.Sourced fromBody s.bodies
  inserted : ∀ i loaded current, s.sessions i = .inserted loaded current → loaded.Sourced fromBody s.bodies

variable {s s' : WorkerState ι} {i : ι}

omit [DecidableEq ι] [Fintype ι] in
theorem Sourced.mono (h : s.Sourced fromBody) (hrows : s'.rows = s.rows)
    (hsessions : ∀ i loaded current, s'.sessions i = .inserted loaded current →
      ∃ current', s.sessions i = .inserted loaded current')
    (hbodies : ∀ body ∈ s.bodies, body ∈ s'.bodies) : s'.Sourced fromBody where
  rows row hrow := (h.rows row (hrows ▸ hrow)).mono hbodies
  inserted i loaded current hs := by
    obtain ⟨current', hs'⟩ := hsessions i loaded current hs
    exact (h.inserted i loaded current' hs').mono hbodies

omit [Fintype ι] in
/-- A session that holds no other inserted row than before. -/
theorem Sourced.setSession (h : s.Sourced fromBody) {session : Session}
    (hsession : ∀ loaded current, session = .inserted loaded current → loaded.Sourced fromBody s.bodies) :
    (s.setSession i session).Sourced fromBody where
  rows := h.rows
  inserted j loaded current hs := by
    by_cases hj : j = i
    · subst hj
      rw [sessions_setSession] at hs
      exact hsession loaded current hs
    · have hother : (s.setSession i session).sessions j = s.sessions j := Function.update_of_ne hj _ _
      exact h.inserted j loaded current (hother ▸ hs)

theorem modify_bodies (queue : List SqsMessage) (id : Nat) {f : SqsMessage → SqsMessage}
    (hf : ∀ m, (f m).body = m.body) : (queue.modify id f).map SqsMessage.body = queue.map SqsMessage.body := by
  refine List.ext_getElem? fun k => ?_
  rw [List.getElem?_map, List.getElem?_map, List.getElem?_modify]
  cases queue[k]? with
  | none => rfl
  | some m =>
      simp only [Option.map_eq_map, Option.map_some, Option.some.injEq]
      split
      · exact hf m
      · rfl

theorem deliver_bodies (queue : List SqsMessage) (ids : List Nat) :
    (deliver queue ids).2.map SqsMessage.body = queue.map SqsMessage.body := by
  induction ids generalizing queue with
  | nil => rfl
  | cons id ids ih =>
      unfold deliver
      split
      · split
        · exact ih queue
        · exact (ih _).trans (modify_bodies queue id fun _ => rfl)
      · exact ih queue

/-- The messages that are delivered are messages of the queue. -/
theorem deliver_mem (queue : List SqsMessage) (ids : List Nat) :
    ∀ d ∈ (deliver queue ids).1, d.body ∈ queue.map SqsMessage.body := by
  intro d hd
  obtain ⟨m, hm, hbody, _⟩ := (deliver_spec queue ids).2.2 d hd
  rw [← hbody, ← deliver_bodies queue ids]
  exact List.mem_map_of_mem (List.mem_of_getElem? hm)

/-- No request of a worker changes which messages there are. -/
theorem bodies_answer {o : WorkerRequest} {c : WorkerChoice} {r : Except PyError o.Answer}
    (h : s.answer i o c = some (r, s')) : s'.bodies = s.bodies := by
  cases o with
  | receiveMessages =>
      simp only [answer] at h
      split at h <;> obtain ⟨_, rfl⟩ := Prod.mk.inj (Option.some.inj h)
      · split
        · exact deliver_bodies _ _
        · rfl
      · exact deliver_bodies _ _
  | deleteMessage receiptHandle =>
      simp only [answer] at h
      split at h <;> obtain ⟨_, rfl⟩ := Prod.mk.inj (Option.some.inj h)
      · split
        · exact modify_bodies _ _ fun _ => rfl
        · rfl
      · exact modify_bodies _ _ fun _ => rfl
  | select callId =>
      simp only [answer] at h
      split at h
      · obtain ⟨_, rfl⟩ := Prod.mk.inj (Option.some.inj h)
        rfl
      · split at h <;>
        · obtain ⟨_, rfl⟩ := Prod.mk.inj (Option.some.inj h)
          rfl
  | insert call =>
      simp only [answer] at h
      split at h
      · obtain ⟨_, rfl⟩ := Prod.mk.inj (Option.some.inj h)
        rfl
      · split at h
        · obtain ⟨_, rfl⟩ := Prod.mk.inj (Option.some.inj h)
          rfl
        · split at h
          · cases h
          · obtain ⟨_, rfl⟩ := Prod.mk.inj (Option.some.inj h)
            rfl
  | getQueueUrl | createQueue | commit =>
      simp only [answer] at h
      split at h <;>
      · obtain ⟨_, rfl⟩ := Prod.mk.inj (Option.some.inj h)
        rfl
  | isResolved | setResolved | assign | rollback | warnTransition | now =>
      obtain ⟨_, rfl⟩ := Prod.mk.inj (Option.some.inj h)
      rfl

theorem Call.OfMessage.update {message : CallMessage} {loaded current row : Call} (h : row.OfMessage message)
    (time : Int) : (loaded.update time current row).OfMessage message := by
  unfold Call.update
  split
  · exact h
  · exact ⟨h.callId, h.requestedAt, h.messageVersion, h.enqueuedAt⟩

omit [DecidableEq ι] [Fintype ι] in
theorem Sourced.commit (h : s.Sourced fromBody) (time : Int) :
    ∀ row ∈ (s.sessions i).commit time s.rows, row.Sourced fromBody s.bodies := by
  intro row hrow
  cases hs : s.sessions i with
  | empty =>
      rw [hs] at hrow
      exact h.rows row hrow
  | existing loaded current =>
      rw [hs] at hrow
      obtain ⟨row₀, hrow₀, rfl⟩ := List.mem_map.mp hrow
      obtain ⟨body, hbody, message, hparsed, hof⟩ := h.rows row₀ hrow₀
      split
      · exact ⟨body, hbody, message, hparsed, Call.OfMessage.update hof time⟩
      · exact ⟨body, hbody, message, hparsed, hof⟩
  | inserted loaded current =>
      rw [hs] at hrow
      rcases List.mem_append.mp hrow with hrow | hrow
      · exact h.rows row hrow
      · obtain rfl := List.mem_singleton.mp hrow
        obtain ⟨body, hbody, message, hparsed, hof⟩ := h.inserted i loaded current hs
        exact ⟨body, hbody, message, hparsed, Call.OfMessage.update hof time⟩

/-- One answered request, of which an INSERT comes from a delivered message. -/
theorem Sourced.answer {o : WorkerRequest} {c : WorkerChoice} {r : Except PyError o.Answer} {seen : List String}
    (h : s.Sourced fromBody) (hseen : ∀ body ∈ seen, body ∈ s.bodies) (hfrom : o.FromDelivered fromBody seen)
    (ha : s.answer i o c = some (r, s')) : s'.Sourced fromBody := by
  have hsession : ∀ {session loaded current}, session = s.sessions i → session = .inserted loaded current →
      loaded.Sourced fromBody s.bodies := fun hs hl => h.inserted i _ _ (hs.symm.trans hl)
  cases o with
  | receiveMessages | deleteMessage =>
      have hbodies := bodies_answer ha
      have hsame : s'.rows = s.rows ∧ s'.sessions = s.sessions := by
        simp only [WorkerState.answer] at ha
        split at ha <;> obtain ⟨_, rfl⟩ := Prod.mk.inj (Option.some.inj ha)
        · split <;> exact ⟨rfl, rfl⟩
        · exact ⟨rfl, rfl⟩
      refine h.mono hsame.1 (fun j loaded current hs => ⟨current, ?_⟩) fun body hb => ?_
      · rwa [hsame.2] at hs
      · rwa [hbodies]
  | select callId =>
      simp only [WorkerState.answer] at ha
      split at ha
      · obtain ⟨_, rfl⟩ := Prod.mk.inj (Option.some.inj ha)
        exact h
      · split at ha <;> obtain ⟨_, rfl⟩ := Prod.mk.inj (Option.some.inj ha)
        · exact h
        · exact h.setSession fun _ _ hs => by cases hs
        · exact h
  | insert call =>
      simp only [WorkerState.answer] at ha
      split at ha
      · obtain ⟨_, rfl⟩ := Prod.mk.inj (Option.some.inj ha)
        exact h
      · split at ha
        · obtain ⟨_, rfl⟩ := Prod.mk.inj (Option.some.inj ha)
          exact h
        · split at ha
          · cases ha
          · obtain ⟨_, rfl⟩ := Prod.mk.inj (Option.some.inj ha)
            refine h.setSession fun loaded _ hs => ?_
            obtain ⟨rfl, _⟩ := Session.inserted.inj hs
            obtain ⟨body, hbody, message, hparsed, hof⟩ := hfrom
            exact ⟨body, hseen body hbody, message, hparsed, hof.callId, hof.requestedAt, hof.messageVersion,
              hof.enqueuedAt⟩
  | assign change =>
      obtain ⟨_, rfl⟩ := Prod.mk.inj (Option.some.inj ha)
      refine h.setSession fun loaded current hs => ?_
      cases hold : s.sessions i with
      | inserted loaded' current' =>
          rw [hold] at hs
          obtain ⟨rfl, _⟩ := Session.inserted.inj hs
          exact h.inserted i _ _ hold
      | empty | existing => rw [hold] at hs; cases hs
  | commit =>
      simp only [WorkerState.answer] at ha
      split at ha <;> obtain ⟨_, rfl⟩ := Prod.mk.inj (Option.some.inj ha)
      · exact h.setSession fun _ _ hs => by cases hs
      · have hcommit : ({ s with rows := (s.sessions i).commit c.time s.rows } : WorkerState ι).Sourced fromBody :=
          ⟨h.commit c.time, h.inserted⟩
        exact hcommit.setSession fun _ _ hs => by cases hs
  | rollback =>
      obtain ⟨_, rfl⟩ := Prod.mk.inj (Option.some.inj ha)
      exact h.setSession fun _ _ hs => by cases hs
  | getQueueUrl | createQueue =>
      simp only [WorkerState.answer] at ha
      split at ha <;>
      · obtain ⟨_, rfl⟩ := Prod.mk.inj (Option.some.inj ha)
        exact h
  | isResolved | setResolved | warnTransition | now =>
      obtain ⟨_, rfl⟩ := Prod.mk.inj (Option.some.inj ha)
      exact ⟨h.rows, h.inserted⟩

end WorkerState

/-- The bodies that a worker has seen are in the queue. -/
def Seen (seen : List String) (s : WorkerState ι) : Prop := ∀ body ∈ seen, body ∈ s.bodies

theorem workerSystem_learning :
    (workerSystem ι fromBody settings).Learning Seen WorkerRequest.Delivers [] where
  answer {i o c s r s' seen} _ hseen ha := by
    have hbodies := WorkerState.bodies_answer ha
    have hkept : Seen seen s' := fun body hb => hbodies ▸ hseen body hb
    cases o with
    | receiveMessages =>
        cases r with
        | error exc => exact ⟨seen, rfl, hkept⟩
        | ok msgs =>
            refine ⟨seen ++ msgs.map Delivery.body, rfl, fun body hb => ?_⟩
            rcases List.mem_append.mp hb with hb | hb
            · exact hkept body hb
            · obtain ⟨d, hd, rfl⟩ := List.mem_map.mp hb
              simp only [workerSystem, WorkerState.answer] at ha
              split at ha
              · cases ha
              · obtain rfl := Except.ok.inj (Prod.mk.inj (Option.some.inj ha)).1
                rw [hbodies]
                exact WorkerState.deliver_mem s.queue c.messages d hd
    | _ => exact ⟨seen, rfl, hkept⟩
  others _ hseen ha body hb := WorkerState.bodies_answer ha ▸ hseen body hb
  reset hseen := hseen
  environment hseen body hb := by
    have hold := hseen body hb
    simp only [workerSystem, WorkerState.send, WorkerState.bodies, List.map_append]
    exact List.mem_append_left _ hold
  start _ hb := by cases hb

def WorkerLearned (fromBody : String → Option CallMessage)
    (p : Config ι WorkerRequest WorkerRequest.Answer (WorkerState ι) PyError) : Prop :=
  System.Learned Seen WorkerRequest.Delivers (WorkerRequest.FromDelivered fromBody) p ∧ p.shared.Sourced fromBody

theorem WorkerLearned.step {p : Config ι WorkerRequest WorkerRequest.Answer (WorkerState ι) PyError}
    (hi : p.shared.Inv fromBody settings) (hp : WorkerLearned fromBody p) (e : Event ι WorkerChoice String) :
    WorkerLearned fromBody ((workerSystem ι fromBody settings).step p e) := by
  refine ⟨System.learned_step workerSystem_learning (fun i => ?_) hi hp.1 e, ?_⟩
  · exact Prog.Follows.bind (WorkerService.sources_pollOnce.mono (fun _ _ _ => trivial) fun _ _ _ => trivial)
  · cases e with
    | act i c =>
        simp only [System.step]
        split
        · rename_i o k hk
          split
          · rename_i r s hs
            obtain ⟨seen, hseen, hfrom⟩ := hp.1.next hk
            exact hp.2.answer hseen hfrom hs
          · exact hp.2
        · exact hp.2
        · exact hp.2
    | start i =>
        have hreset : (p.shared.setSession i .empty).Sourced fromBody := hp.2.setSession fun _ _ hs => by cases hs
        exact ⟨hreset.rows, hreset.inserted⟩
    | environment body =>
        refine hp.2.mono rfl (fun _ _ current hs => ⟨current, hs⟩) fun body' hb => ?_
        simp only [System.step, workerSystem, WorkerState.send, WorkerState.bodies, List.map_append]
        exact List.mem_append_left _ hb

omit [DecidableEq ι] [Fintype ι] in
theorem workerLearned_initial :
    WorkerLearned fromBody
      (System.initial {} : Config ι WorkerRequest WorkerRequest.Answer (WorkerState ι) PyError) :=
  ⟨fun _ => ⟨[], fun _ hb => (by cases hb), trivial⟩, fun _ h => (by cases h), fun _ _ _ h => (by cases h)⟩

end Hailcast
