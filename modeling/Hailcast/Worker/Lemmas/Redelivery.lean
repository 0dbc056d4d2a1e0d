import Hailcast.Worker.Lemmas.Delivery

/-!
# Redeliveries

What a worker does to the call of its session, and so to the committed rows.
-/

namespace Hailcast

open Concurrent

variable {ι : Type} [DecidableEq ι] [Fintype ι] {fromBody : String → Option CallMessage} {settings : WorkerSettings}

/-! ## The session of a worker -/

namespace Session

/-- What a request of the worker makes of its session. -/
def Answers : (o : WorkerRequest) → Except PyError o.Answer → Session → Session → Prop
  | .select _, .ok (some row), _, t' => row.status = .done ∧ t' = .existing row row
  | .insert call, .ok _, _, t' => ∃ loaded : Call, loaded.status = call.status ∧ t' = .inserted loaded loaded
  | .assign change, _, t, t' => t' = t.assign change
  | .commit, _, _, t' => t' = .empty
  | .rollback, _, _, t' => t' = .empty
  | _, _, t, t' => t' = t

/-- The columns that an UPDATE of the committed row would change are the receive count and `updated_at`. -/
def Committable (t : Session) : Prop :=
  ∀ loaded current, t = .existing loaded current →
    current.status = loaded.status ∧ current.processedAt = loaded.processedAt

/-- A call that is on its way from PROCESSING to DONE. -/
def Processing (t : Session) : Prop := ∃ loaded current, t = .inserted loaded current ∧ current.status = .processing

/-- No second row before the commit of the first, no transition but from PROCESSING to DONE, and no commit that changes
more of a row than it should. -/
def Proper : WorkerRequest → Session → Prop
  | .insert _, t => t.uncommitted = none
  | .warnTransition _ _, _ => False
  | .assign (.status new), t => new = .done ∧ t.Processing
  | .commit, t => t.Committable
  | _, _ => True

theorem committable_inserted (loaded current : Call) : (inserted loaded current).Committable :=
  fun _ _ h => by cases h

end Session

/-- From the session `t` on the worker makes no request that is not proper. -/
abbrev WorkerM.Follows {α : Type} (p : WorkerM α) (Q : α → Session → Prop) (E : PyError → Session → Prop)
    (t : Session) : Prop :=
  Prog.Follows Session.Answers Session.Proper Q E p t

variable {α : Type} {t : Session}

theorem WorkerM.follows_assign (change : Assignment) (h : Session.Proper (.assign change) t) :
    Follows (workerRequest (.assign change)) (fun _ t' => t' = t.assign change) (fun _ _ => True) t :=
  Prog.Follows.perform h (fun _ _ ha => ha) fun _ _ _ => trivial

theorem StateManager.follows_markDone {call loaded current : Call} (hcall : call.status = .processing)
    (hcurrent : current.status = .processing) :
    WorkerM.Follows (markDone call) (fun _ => Session.Committable) (fun _ _ => True) (.inserted loaded current) := by
  have hallowed : allowedTransition call.status .done = true := by
    rw [hcall]
    rfl
  have hproper : Session.Proper (.assign (.status .done)) (.inserted loaded current) :=
    ⟨rfl, loaded, current, rfl, hcurrent⟩
  unfold markDone transition
  rw [if_pos hallowed]
  refine Prog.Follows.bind ((WorkerM.follows_assign _ hproper).mono ?_ fun _ _ h => h)
  rintro _ t' rfl
  refine Prog.Follows.bind (Prog.Follows.perform trivial ?_ fun _ _ _ => trivial)
  rintro time t' rfl
  refine (WorkerM.follows_assign (.processedAt time) trivial).mono ?_ fun _ _ h => h
  rintro _ t' rfl
  exact Session.committable_inserted _ _

namespace CallRepository

theorem follows_wrap {p : WorkerM α} {operation : String} {Q : α → Session → Prop}
    (hp : WorkerM.Follows p Q (fun _ _ => True) t) : WorkerM.Follows (wrap operation p) Q (fun _ _ => True) t := by
  refine Prog.Follows.tryCatch (hp.mono (fun _ _ h => h) fun exc _ _ => ?_)
  cases exc <;> trivial

theorem follows_getByCallId (callId : String) :
    WorkerM.Follows (getByCallId callId)
      (fun found t => (∃ row : Call, found = some row ∧ row.status = .done ∧ t = .existing row row) ∨
        found = none ∧ t = .empty)
      (fun _ _ => True) .empty := by
  refine follows_wrap (Prog.Follows.perform trivial ?_ fun _ _ _ => trivial)
  intro found t' ha
  cases found with
  | some row => exact .inl ⟨row, rfl, ha.1, ha.2⟩
  | none => exact .inr ⟨rfl, ha⟩

theorem follows_insertFromMessage (message : CallMessage) (status : CallStatus) (receiveCount : Int) :
    WorkerM.Follows (insertFromMessage message status receiveCount)
      (fun call t => call.status = status ∧ ∃ loaded : Call, loaded.status = status ∧ t = .inserted loaded loaded)
      (fun _ _ => True) .empty := by
  refine Prog.Follows.bind (follows_wrap (Prog.Follows.perform rfl ?_ fun _ _ _ => trivial))
  rintro _ t' ⟨loaded, hstatus, rfl⟩
  exact ⟨rfl, loaded, hstatus, rfl⟩

end CallRepository

namespace WorkerService

theorem follows_save (message : CallMessage) (receiveCount : Int) :
    WorkerM.Follows (save message receiveCount) (fun _ => Session.Committable) (fun _ _ => True) .empty := by
  refine Prog.Follows.bind ((CallRepository.follows_getByCallId message.requestId).mono ?_ fun _ _ h => h)
  rintro found t' (⟨row, rfl, hdone, rfl⟩ | ⟨rfl, rfl⟩)
  · refine Prog.Follows.bind ((WorkerM.follows_assign (.receiveCount receiveCount) trivial).mono ?_ fun _ _ h => h)
    rintro _ t' rfl
    -- the row is DONE, so it is not marked again
    rw [if_neg (not_not_intro hdone)]
    intro loaded current heq
    cases heq
    exact ⟨rfl, rfl⟩
  · refine Prog.Follows.bind ((CallRepository.follows_insertFromMessage message .processing receiveCount).mono ?_
      fun _ _ h => h)
    rintro call t' ⟨hstatus, loaded, hloaded, rfl⟩
    exact StateManager.follows_markDone hstatus hloaded

theorem follows_sessionScope (message : CallMessage) (receiveCount : Int) :
    WorkerM.Follows (sessionScope (save message receiveCount)) (fun _ t => t = .empty) (fun _ t => t = .empty)
      .empty := by
  refine Prog.Follows.tryCatch (Prog.Follows.bind ((follows_save message receiveCount).mono ?_ ?_))
  · intro _ t' hcommittable
    refine Prog.Follows.bind (Prog.Follows.perform hcommittable (fun _ _ ha => ha) ?_)
    rintro exc t'' -
    exact Prog.Follows.bind (Prog.Follows.perform trivial (fun _ _ ha => ha) fun _ _ ha => ha)
  · intro exc t' _
    exact Prog.Follows.bind (Prog.Follows.perform trivial (fun _ _ ha => ha) fun _ _ ha => ha)

/-! ## A poll -/

/-- The requests to the queue and to the clock. -/
def Outside : WorkerRequest → Prop
  | .receiveMessages | .deleteMessage _ | .now => True
  | o => o.Resolving

theorem follows_outside {p : WorkerM α} (hp : p.All Outside) :
    WorkerM.Follows p (fun _ t => t = .empty) (fun _ _ => True) .empty := by
  refine Prog.Follows.of_all (fun o ho => ?_) hp (fun _ => rfl) fun _ => trivial
  cases o with
  | select | insert | assign | commit | rollback | warnTransition => exact ho.elim
  | _ => exact ⟨trivial, fun _ _ ha => ha⟩

theorem outside_wrap {p : WorkerM α} {operation : String} (hp : p.All Outside) :
    (SqsAdapter.wrap settings operation p).All Outside := by
  refine hp.tryCatch fun exc => ?_
  cases exc <;> trivial

theorem outside_queueUrl (settings : WorkerSettings) : (SqsAdapter.queueUrl settings).All Outside :=
  (SqsAdapter.resolving_queueUrl settings).imp fun o ho => by cases o <;> trivial

theorem outside_deleteMessage (receiptHandle : ReceiptHandle) :
    (SqsAdapter.deleteMessage settings receiptHandle).All Outside :=
  outside_wrap ((outside_queueUrl settings).bind fun _ => Prog.All.perform trivial)

theorem outside_handlePoison (msg : Delivery) : (handlePoison settings msg).All Outside := by
  unfold handlePoison
  split
  · exact (outside_deleteMessage msg.receiptHandle).bind fun _ => trivial
  · trivial

theorem follows_processMessage (msg : Delivery) :
    WorkerM.Follows (processMessage fromBody settings msg) (fun _ t => t = .empty) (fun _ _ => True) .empty := by
  unfold processMessage
  cases fromBody msg.body with
  | none => exact follows_outside (outside_handlePoison msg)
  | some message =>
      refine Prog.Follows.bind (Prog.Follows.tryCatch (Prog.Follows.bind
        ((follows_sessionScope message msg.receiveCount).mono ?_ ?_)))
      · rintro _ t' rfl
        refine follows_outside ((outside_deleteMessage msg.receiptHandle).bind fun _ => ?_)
        exact (Prog.All.perform trivial).bind fun _ => (Prog.All.ofExcept _).bind fun _ => trivial
      · rintro exc t' rfl
        cases exc with
        | databaseError operation => rfl
        | _ => trivial

theorem follows_pollOnce :
    WorkerM.Follows (pollOnce fromBody settings) (fun _ t => t = .empty) (fun _ _ => True) .empty := by
  have hreceive : (SqsAdapter.receiveMessages settings).All Outside :=
    outside_wrap ((outside_queueUrl settings).bind fun _ => Prog.All.perform trivial)
  refine Prog.Follows.bind ((follows_outside hreceive).mono (fun msgs t' ht' => ?_) fun _ _ h => h)
  refine Prog.Follows.foldEach (fun processed msg t ht => ?_) ht'
  rw [ht]
  refine Prog.Follows.bind ((follows_processMessage msg).mono (fun saved t' ht' => ?_) fun _ _ h => h)
  cases saved <;> exact ht'

end WorkerService

/-! ## The session as a view of the state -/

namespace WorkerState

/-- What an answered request does to the sessions and to the committed rows. -/
structure Stepped (i : ι) (o : WorkerRequest) (r : Except PyError o.Answer) (s s' : WorkerState ι) : Prop where
  own : Session.Answers o r (s.sessions i) (s'.sessions i)
  others : ∀ j, j ≠ i → s'.sessions j = s.sessions j
  rows : s'.rows = s.rows ∨ o = .commit ∧ ∃ time, s'.rows = (s.sessions i).commit time s.rows

variable {i : ι} {s s' : WorkerState ι}

omit [Fintype ι] [DecidableEq ι] in
theorem Stepped.of_same {o : WorkerRequest} {r : Except PyError o.Answer}
    (hown : Session.Answers o r (s.sessions i) (s.sessions i)) (hrows : s'.rows = s.rows)
    (hsessions : s'.sessions = s.sessions) : Stepped i o r s s' :=
  ⟨by rw [hsessions]; exact hown, fun j _ => by rw [hsessions], .inl hrows⟩

omit [Fintype ι] in
theorem Stepped.of_setSession {o : WorkerRequest} {r : Except PyError o.Answer} {session : Session} {rows : List Call}
    (hown : Session.Answers o r (s.sessions i) session)
    (hrows : rows = s.rows ∨ o = .commit ∧ ∃ time, rows = (s.sessions i).commit time s.rows) :
    Stepped i o r s ({ s with rows := rows }.setSession i session) :=
  ⟨by rw [sessions_setSession]; exact hown, fun j hj => Function.update_of_ne hj _ _, hrows⟩

theorem stepped_answer {o : WorkerRequest} {c : WorkerChoice} {r : Except PyError o.Answer}
    (hi : s.Inv fromBody settings) (h : s.answer i o c = some (r, s')) : Stepped i o r s s' := by
  cases o with
  | select callId =>
      simp only [answer] at h
      split at h
      · obtain ⟨rfl, rfl⟩ := Prod.mk.inj (Option.some.inj h)
        exact Stepped.of_same rfl rfl rfl
      · split at h
        · obtain ⟨rfl, rfl⟩ := Prod.mk.inj (Option.some.inj h)
          exact Stepped.of_same rfl rfl rfl
        · rename_i row hrows
          obtain ⟨rfl, rfl⟩ := Prod.mk.inj (Option.some.inj h)
          have hrow : row ∈ s.rows.filter (fun row => row.callId = callId) := by rw [hrows]; simp
          exact Stepped.of_setSession ⟨(hi.finished row (List.mem_filter.mp hrow).1).1, rfl⟩ (.inl rfl)
        · obtain ⟨rfl, rfl⟩ := Prod.mk.inj (Option.some.inj h)
          exact Stepped.of_same rfl rfl rfl
  | insert call =>
      simp only [answer] at h
      split at h
      · obtain ⟨rfl, rfl⟩ := Prod.mk.inj (Option.some.inj h)
        exact Stepped.of_same rfl rfl rfl
      · split at h
        · obtain ⟨rfl, rfl⟩ := Prod.mk.inj (Option.some.inj h)
          exact Stepped.of_same rfl rfl rfl
        · split at h
          · cases h
          · obtain ⟨rfl, rfl⟩ := Prod.mk.inj (Option.some.inj h)
            exact Stepped.of_setSession ⟨{ call with createdAt := some c.time, updatedAt := some c.time }, rfl, rfl⟩
              (.inl rfl)
  | commit =>
      simp only [answer] at h
      split at h
      · obtain ⟨rfl, rfl⟩ := Prod.mk.inj (Option.some.inj h)
        exact Stepped.of_setSession rfl (.inl rfl)
      · obtain ⟨rfl, rfl⟩ := Prod.mk.inj (Option.some.inj h)
        exact Stepped.of_setSession rfl (.inr ⟨rfl, c.time, rfl⟩)
  | assign | rollback =>
      obtain ⟨rfl, rfl⟩ := Prod.mk.inj (Option.some.inj h)
      exact Stepped.of_setSession rfl (.inl rfl)
  | receiveMessages | deleteMessage =>
      simp only [answer] at h
      split at h
      · obtain ⟨rfl, rfl⟩ := Prod.mk.inj (Option.some.inj h)
        split <;> exact Stepped.of_same rfl rfl rfl
      · obtain ⟨rfl, rfl⟩ := Prod.mk.inj (Option.some.inj h)
        exact Stepped.of_same rfl rfl rfl
  | isResolved | setResolved | getQueueUrl | createQueue | warnTransition | now =>
      have hsame : s.Same s' := by
        refine answer_quiet ?_ h
        trivial
      exact Stepped.of_same rfl hsame.rows hsame.sessions

end WorkerState

theorem workerSystem_viewed :
    (workerSystem ι fromBody settings).Viewed (fun i s => s.sessions i) Session.Answers where
  answer hi h := (WorkerState.stepped_answer hi h).own
  others hj hi h := (WorkerState.stepped_answer hi h).others _ hj
  reset hj := Function.update_of_ne hj _ _
  environment := rfl

/-! ## The committed rows -/

/-- The row is still there; only its receive count and `updated_at` may be others. -/
def Kept (rows rows' : List Call) : Prop :=
  ∀ row ∈ rows, ∃ row' ∈ rows',
    row' = { row with receiveCount := row'.receiveCount, updatedAt := row'.updatedAt }

theorem Kept.refl (rows : List Call) : Kept rows rows := fun row hrow => ⟨row, hrow, rfl⟩

theorem Kept.trans {rows rows' rows'' : List Call} (h : Kept rows rows') (h' : Kept rows' rows'') :
    Kept rows rows'' := by
  intro row hrow
  obtain ⟨row', hrow', heq⟩ := h row hrow
  obtain ⟨row'', hrow'', heq'⟩ := h' row' hrow'
  refine ⟨row'', hrow'', ?_⟩
  rw [heq', heq]

/-- A redelivery writes the receive count. -/
theorem Call.update_received {loaded current : Call} (hstatus : current.status = loaded.status)
    (hprocessed : current.processedAt = loaded.processedAt) (time : Int) (row : Call) :
    loaded.update time current row = { row with
      receiveCount := (loaded.update time current row).receiveCount
      updatedAt := (loaded.update time current row).updatedAt } := by
  unfold Call.update
  split <;> rfl

theorem Session.Committable.kept {t : Session} (h : t.Committable) (time : Int) (rows : List Call) :
    Kept rows (t.commit time rows) := by
  intro row hrow
  cases t with
  | empty => exact ⟨row, hrow, rfl⟩
  | inserted loaded current => exact ⟨row, List.mem_append_left _ hrow, rfl⟩
  | existing loaded current =>
      obtain ⟨hstatus, hprocessed⟩ := h loaded current rfl
      by_cases hid : row.callId = loaded.callId
      · refine ⟨loaded.update time current row, List.mem_map.mpr ⟨row, hrow, if_pos hid⟩, ?_⟩
        exact Call.update_received hstatus hprocessed time row
      · exact ⟨row, List.mem_map.mpr ⟨row, hrow, if_neg hid⟩, rfl⟩

/-- The workers go on from sessions in which their requests are proper. -/
def WorkerFollowing (p : Config ι WorkerRequest WorkerRequest.Answer (WorkerState ι) PyError) : Prop :=
  System.Following Session.Answers Session.Proper (fun i s => s.sessions i) p

theorem workerSystem_follows (returned : Bool) (i : ι) (s : WorkerState ι) :
    ((workerSystem ι fromBody settings).body i).Follows Session.Answers Session.Proper (fun _ _ => True)
      (fun _ _ => True) (((workerSystem ι fromBody settings).reset returned i s).sessions i) := by
  have hreset : ((workerSystem ι fromBody settings).reset returned i s).sessions i = .empty :=
    WorkerState.sessions_start returned
  rw [hreset]
  exact Prog.Follows.bind (WorkerService.follows_pollOnce.mono (fun _ _ _ => trivial) fun _ _ _ => trivial)

theorem WorkerFollowing.step {p : Config ι WorkerRequest WorkerRequest.Answer (WorkerState ι) PyError}
    (hi : p.shared.Inv fromBody settings) (hf : WorkerFollowing p) (e : Event ι WorkerChoice String) :
    WorkerFollowing ((workerSystem ι fromBody settings).step p e) :=
  System.following_step workerSystem_viewed workerSystem_follows hi hf e

theorem kept_step {p : Config ι WorkerRequest WorkerRequest.Answer (WorkerState ι) PyError}
    (hi : p.shared.Inv fromBody settings) (hf : WorkerFollowing p) (e : Event ι WorkerChoice String) :
    Kept p.shared.rows ((workerSystem ι fromBody settings).step p e).shared.rows := by
  cases e with
  | act i c =>
      simp only [System.step]
      split
      · rename_i o k hk
        split
        · rename_i r s hs
          rcases (WorkerState.stepped_answer hi hs).rows with hrows | ⟨rfl, time, hrows⟩
          · simp only [hrows]
            exact Kept.refl _
          · have hproper : Session.Proper .commit (p.shared.sessions i) := hf.next (by rw [hk]; rfl)
            simp only [hrows]
            exact hproper.kept time _
        · exact Kept.refl _
      · exact Kept.refl _
      · exact Kept.refl _
  | start i => exact Kept.refl _
  | environment body => exact Kept.refl _

end Hailcast
