import Hailcast.Call.Lemmas
import Hailcast.Worker.Lemmas.Draining

/-!
# From the client to the table

What the client has been told is kept: over every interleaving of the call API and the workers, with failures of
every operation and crashes anywhere.
-/

namespace Hailcast.CallApi

open JsonText Concurrent

variable {φ δ ι κ : Type} [DecidableEq ι] [DecidableEq κ] [Fintype κ] {C : Datetimes φ δ} {F : FloatFormat φ}
  {api : CallApiSettings} {worker : WorkerSettings}

/-! ## Texts -/

/-- A message is read back from the text that is published, and different messages have different texts; a request is
read from its JSON text in any style. -/
theorem message_round_trip (C : Datetimes φ δ) (F : FloatFormat φ) :
    (∀ m : CallMessage C, ∃ body, m.toBody F = some body ∧ CallMessage.fromBody C F (messageBody F body) = some m) ∧
      (∀ m m' : CallMessage C, messageBody F m.dump = messageBody F m'.dump → m = m') ∧
      ∀ (r : CallRequest C) (style : Style), readRequest C F (dumps F style r.dump) = .ok r := by
  refine ⟨fun m => ⟨m.dump, m.toBody_eq F, m.fromBody_dump F⟩, fun m m' h => ?_, fun r style => ?_⟩
  · have hm := m.fromBody_dump F
    rw [h, m'.fromBody_dump F] at hm
    exact (Option.some.inj hm).symm
  · have hread : loads F (dumps F style r.dump) = some r.dump.units := loads_dumps style r.wellFormed_dump
    have hne : dumps F style r.dump ≠ "" := by
      intro hempty
      rw [hempty] at hread
      cases hread
    unfold readRequest
    rw [if_neg hne, hread]
    exact r.validate_dump

/-- Times in UTC, each written as so many strokes. -/
def strokes (φ : Type) : Datetimes φ Int where
  stamp := .aware
  validate
    | .str (.char '-' :: us) => some (.negSucc us.length)
    | .str (_ :: us) => some (.ofNat us.length)
    | _ => none
  dump
    | .ofNat n => String.ofList ('+' :: List.replicate n '|')
    | .negSucc n => String.ofList ('-' :: List.replicate n '|')
  utc := id
  stamp_utc _ := rfl
  validate_dump t := by cases t <;> simp [Units.ofString]

/-- `_BURST_PAYLOAD` of the simulator -/
def burstPayload : String :=
  "\x7b\"user_id\":\"burst\",\"pickup\":\"burst-pickup\",\"destination\":\"burst-destination\"," ++
    "\"source\":\"simulator\"\x7d"

example : ((readRequest (strokes Unit) oneFloat burstPayload).toOption.map fun r => (r.userId.1, r.source)) =
    some ("burst", .simulator) := by
  decide +kernel

/-- The errors of a body that is refused: there is one, and each names a field that the model has, or none. -/
theorem errors_of_readRequest {text : String} {errors : List (FieldError φ)}
    (h : readRequest C F text = .error errors) :
    errors ≠ [] ∧ ∀ e ∈ errors, ∀ name, e.detail.loc = some name →
      name ∈ ["user_id", "pickup", "destination", "requested_at", "source"] := by
  have hsingle : ∀ {problem : Problem} {input : Value Units φ}, errors = [⟨⟨none, problem⟩, input⟩] →
      errors ≠ [] ∧ ∀ e ∈ errors, ∀ name, e.detail.loc = some name →
        name ∈ ["user_id", "pickup", "destination", "requested_at", "source"] := by
    rintro problem input rfl
    refine ⟨by simp, fun e he name hname => ?_⟩
    obtain rfl := List.mem_singleton.mp he
    cases hname
  unfold readRequest at h
  split at h
  · exact hsingle (Except.error.inj h).symm
  · split at h
    · exact hsingle (Except.error.inj h).symm
    · obtain ⟨hne, hloc⟩ := CallRequest.errors_of_validate h
      refine ⟨hne, fun e he name hname => ?_⟩
      rcases hloc e he with ⟨hnone, _⟩ | ⟨name', hmem, hsome⟩
      · rw [hnone] at hname
        cases hname
      · obtain rfl := Option.some.inj (hname.symm.trans hsome)
        exact hmem
    · exact hsingle (Except.error.inj h).symm

/-! ## The pipeline -/

/-- Both sides keep their invariants, and the queue holds what has been sent. -/
structure Pipeline.Good (C : Datetimes φ δ) (F : FloatFormat φ) (api : CallApiSettings) (worker : WorkerSettings)
    (p : Pipeline ι κ) : Prop where
  api : (apiSystem ι C F api).Good p.api
  workers : WorkerGood (workerFromBody C F) worker p.workers
  learned : WorkerLearned (workerFromBody C F) p.workers
  queue : p.workers.shared.bodies = p.api.shared.sent

theorem ApiState.sent_answer {i : ι} {o : ApiRequest} {c : ApiChoice} {s s' : ApiState ι}
    {r : Except PyError o.Answer} (h : s.answer i o c = some (r, s')) : s.sent <+: s'.sent := by
  by_cases ho : o.Quiet
  · rw [(answer_quiet ho h).2.2.2.1]
  · cases o with
    | receive | respond =>
        obtain ⟨_, rfl⟩ := Prod.mk.inj (Option.some.inj h)
        exact List.prefix_refl _
    | uuid4 =>
        simp only [answer] at h
        split at h
        · cases h
        · obtain ⟨_, rfl⟩ := Prod.mk.inj (Option.some.inj h)
          exact List.prefix_refl _
    | sendMessage body =>
        simp only [answer] at h
        split at h <;>
        · obtain ⟨_, rfl⟩ := Prod.mk.inj (Option.some.inj h)
          exact List.prefix_append _ _
    | _ => exact (ho trivial).elim

theorem sent_step (C : Datetimes φ δ) (F : FloatFormat φ) (api : CallApiSettings)
    (p : Config ι ApiRequest ApiRequest.Answer (ApiState ι) PyError)
    (e : Event ι ApiChoice Empty) : p.shared.sent <+: ((apiSystem ι C F api).step p e).shared.sent := by
  cases e with
  | act i c =>
      simp only [System.step]
      split
      · split
        · rename_i r s hs
          exact ApiState.sent_answer hs
        · exact List.prefix_refl _
      · exact List.prefix_refl _
      · exact List.prefix_refl _
  | start i => exact List.prefix_refl _
  | environment e => exact e.elim

/-- The workers' part of a run. -/
theorem workers_run {p : Config κ WorkerRequest WorkerRequest.Answer (WorkerState κ) PyError}
    (hgood : WorkerGood (workerFromBody C F) worker p) (hlearned : WorkerLearned (workerFromBody C F) p)
    (es : List (Event κ WorkerChoice String)) :
    WorkerGood (workerFromBody C F) worker (EventRun.run (workerSystem κ (workerFromBody C F) worker).step p es) ∧
      WorkerLearned (workerFromBody C F) (EventRun.run (workerSystem κ (workerFromBody C F) worker).step p es) := by
  refine EventRun.run_invariant
    (I := fun p => WorkerGood (workerFromBody C F) worker p ∧ WorkerLearned (workerFromBody C F) p)
    (fun q e hq => ⟨hq.1.step e, hq.2.step hq.1.1.1 e⟩) ⟨hgood, hlearned⟩ es

theorem bodies_step (p : Config κ WorkerRequest WorkerRequest.Answer (WorkerState κ) PyError)
    {e : Event κ WorkerChoice String} (he : ∀ body, e ≠ .environment body) :
    ((workerSystem κ (workerFromBody C F) worker).step p e).shared.bodies = p.shared.bodies := by
  cases e with
  | act k c =>
      simp only [System.step]
      split
      · split
        · rename_i r s hs
          exact WorkerState.bodies_answer hs
        · rfl
      · rfl
      · rfl
  | start k => rfl
  | environment body => exact absurd rfl (he body)

theorem bodies_deliveries (p : Config κ WorkerRequest WorkerRequest.Answer (WorkerState κ) PyError)
    (bodies : List String) :
    (EventRun.run (workerSystem κ (workerFromBody C F) worker).step p
      (bodies.map .environment)).shared.bodies = p.shared.bodies ++ bodies := by
  induction bodies generalizing p with
  | nil => simp
  | cons body bodies ih =>
      rw [List.map_cons, EventRun.run_cons, ih]
      simp [System.step, workerSystem, WorkerState.send, WorkerState.bodies]

theorem Pipeline.Good.step {p : Pipeline ι κ} (h : p.Good C F api worker) (e : PipelineEvent ι κ) :
    (p.step C F api worker e).Good C F api worker := by
  obtain ⟨hgood, hlearned⟩ := workers_run h.workers h.learned (workerEvents C F api p e)
  cases e with
  | api e =>
      refine ⟨apiSystem_good_step h.api e, hgood, hlearned, ?_⟩
      obtain ⟨more, hmore⟩ := sent_step C F api p.api e
      refine (bodies_deliveries p.workers (((apiSystem ι C F api).step p.api e).shared.sent.drop
        p.api.shared.sent.length)).trans ?_
      change _ = ((apiSystem ι C F api).step p.api e).shared.sent
      rw [h.queue, ← hmore, List.drop_left]
  | worker k c =>
      refine ⟨h.api, hgood, hlearned, Eq.trans ?_ h.queue⟩
      exact bodies_step p.workers (e := .act k c) fun _ hc => by cases hc
  | startWorker k =>
      refine ⟨h.api, hgood, hlearned, Eq.trans ?_ h.queue⟩
      exact bodies_step p.workers (e := .start k) fun _ hc => by cases hc

theorem pipelineRun_good (events : List (PipelineEvent ι κ)) :
    (pipelineRun ι κ C F api worker events).Good C F api worker := by
  refine EventRun.run_invariant (fun _ e h => h.step e) ⟨?_, ?_, workerLearned_initial, rfl⟩ events
  · exact System.good_initial apiState_inv fun _ _ _ _ => trivial
  · exact ⟨System.good_initial workerState_inv fun _ _ _ _ => trivial, fun _ => trivial⟩

/-! ## The row of a call -/

theorem workerFromBody_publishedBody (request : CallRequest C) (requestId : String) (now : Int) :
    workerFromBody C F (publishedBody C F request requestId now) =
      some (request.message C requestId now).received := by
  unfold workerFromBody
  rw [fromBody_publishedBody]
  rfl

/-- A row under the request id of a message that was sent is the row of this message. -/
theorem Pipeline.Good.row_of_sent {p : Pipeline ι κ} (h : p.Good C F api worker) {request : CallRequest C}
    {requestId : String} {now : Int} (hsent : publishedBody C F request requestId now ∈ p.api.shared.sent) {row : Call}
    (hrow : row ∈ p.workers.shared.rows) (hid : row.callId = requestId) :
    row.Finished ∧ row.OfMessage (request.message C requestId now).received := by
  refine ⟨h.workers.1.1.finished row hrow, ?_⟩
  obtain ⟨body, hbody, message, hparsed, hof⟩ := h.learned.2.rows row hrow
  rw [h.queue] at hbody
  obtain ⟨m, hm, rfl⟩ := Option.map_eq_some_iff.mp hparsed
  have hsame : m.requestId = (request.message C requestId now).requestId := hof.callId.symm.trans hid
  obtain rfl := h.api.1.copies body hbody _ hsent m _ hm (fromBody_publishedBody request requestId now) hsame
  rw [fromBody_publishedBody] at hm
  obtain rfl := Option.some.inj hm
  exact hof

/-- A message that was sent is in the queue, or its row is in the table. -/
theorem Pipeline.Good.kept {p : Pipeline ι κ} (h : p.Good C F api worker) {request : CallRequest C}
    {requestId : String} {now : Int} (hsent : publishedBody C F request requestId now ∈ p.api.shared.sent) :
    (∃ m ∈ p.workers.shared.queue, m.body = publishedBody C F request requestId now ∧ m.deleted = false) ∨
      ∃ row ∈ p.workers.shared.rows, row.callId = requestId := by
  rw [← h.queue] at hsent
  obtain ⟨m, hm, hbody⟩ := List.mem_map.mp hsent
  cases hd : m.deleted with
  | false => exact .inl ⟨m, hm, hbody, hd⟩
  | true =>
      right
      rcases h.workers.1.1.settled m hm hd with ⟨message, hparsed, hid⟩ | ⟨hinvalid, _⟩
      · rw [hbody, workerFromBody_publishedBody] at hparsed
        obtain rfl := Option.some.inj hparsed
        obtain ⟨row, hrow, hcall⟩ := List.mem_map.mp hid
        exact ⟨row, hrow, hcall⟩
      · rw [hbody, workerFromBody_publishedBody] at hinvalid
        cases hinvalid

/-- A call that was accepted is in the queue until its row is in the table, and its row, of which there is one at most,
is DONE and has the values that the client sent. No other client is told the same request id, and every row is the row
of a valid request. -/
theorem accepted_calls_kept (ι κ : Type) [DecidableEq ι] [DecidableEq κ] [Fintype κ] (C : Datetimes φ δ)
    (F : FloatFormat φ) (api : CallApiSettings) (worker : WorkerSettings) (events : List (PipelineEvent ι κ)) :
    let p := pipelineRun ι κ C F api worker events
    (∀ text response, (text, .accepted response) ∈ p.api.shared.exchanges →
      ∃ request, readRequest C F text = .ok request ∧
        ((∃ m ∈ p.workers.shared.queue, m.deleted = false ∧
            m.body = publishedBody C F request response.requestId response.createdAt) ∨
          ∃ row ∈ p.workers.shared.rows, row.callId = response.requestId) ∧
        ∀ row ∈ p.workers.shared.rows, row.callId = response.requestId →
          row.status = .done ∧ row.processedAt.isSome ∧
            row.OfMessage (request.message C response.requestId response.createdAt).received) ∧
      p.api.shared.acceptedIds.Nodup ∧ p.workers.shared.callIds.Nodup ∧
      ∀ row ∈ p.workers.shared.rows, ∃ text ∈ p.api.shared.received, ∃ request now,
        readRequest C F text = .ok request ∧ row.OfMessage (request.message C row.callId now).received := by
  intro p
  have hgood : p.Good C F api worker := pipelineRun_good events
  refine ⟨fun text response hx => ?_, hgood.api.1.acceptedOnce, hgood.workers.1.1.unique, fun row hrow => ?_⟩
  · obtain ⟨_, _, request, body, hpublished, hsent⟩ := hgood.api.1.fitting _ hx
    rw [hpublished.body_eq] at hsent
    refine ⟨request, hpublished.valid, ?_, fun row hrow hid => ?_⟩
    · rcases hgood.kept hsent with ⟨m, hm, hbody, hd⟩ | hrow
      · exact .inl ⟨m, hm, hd, hbody⟩
      · exact .inr hrow
    · obtain ⟨⟨hdone, hprocessed⟩, hof⟩ := hgood.row_of_sent hsent hrow hid
      exact ⟨hdone, hprocessed, hof⟩
  · obtain ⟨body, hbody, message, hparsed, hof⟩ := hgood.learned.2.rows row hrow
    rw [hgood.queue] at hbody
    obtain ⟨requestId, now, text, request, hpublished⟩ := hgood.api.1.published body hbody
    rw [hpublished.body_eq, workerFromBody_publishedBody] at hparsed
    obtain rfl := Option.some.inj hparsed
    have hid : row.callId = requestId := hof.callId
    exact ⟨text, hpublished.received, request, now, hpublished.valid, by rw [hid]; exact hof⟩

/-- A request is answered with a validation error exactly if its body is invalid and the values that the answer shows
are standard JSON; with another value the answer is an internal error. The answer has the errors of the body, and an
invalid body puts nothing into the queue. -/
theorem invalid_requests_refused (ι κ : Type) [DecidableEq ι] [DecidableEq κ] [Fintype κ] (C : Datetimes φ δ)
    (F : FloatFormat φ) (api : CallApiSettings) (worker : WorkerSettings) (events : List (PipelineEvent ι κ)) :
    let s := (pipelineRun ι κ C F api worker events).api.shared
    (∀ text response, (text, response) ∈ s.exchanges →
      ((∃ details, response = .validationError details) ↔
          ∃ errors, readRequest C F text = .error errors ∧ ∀ e ∈ errors, e.input.isStandard = true) ∧
        (∀ errors, readRequest C F text = .error errors → (∃ e ∈ errors, e.input.isStandard = false) →
          response = .internalError) ∧
        ∀ details, response = .validationError details → ∃ errors, readRequest C F text = .error errors ∧
          details = errors.map FieldError.detail ∧ details ≠ [] ∧
          ∀ detail ∈ details, ∀ name, detail.loc = some name →
            name ∈ ["user_id", "pickup", "destination", "requested_at", "source"]) ∧
      ∀ body ∈ s.sent, ∃ text ∈ s.received, ∃ request requestId now, readRequest C F text = .ok request ∧
        body = publishedBody C F request requestId now := by
  intro s
  have hinv : s.Inv C F := (pipelineRun_good events).api.1
  refine ⟨fun text response hx => ?_, fun body hbody => ?_⟩
  · have hfit := hinv.fitting _ hx
    have hanswer : ∀ errors, readRequest C F text = .error errors → response = validationResponse errors :=
      fun errors herrors => hfit.eq_validationResponse herrors
    refine ⟨⟨?_, ?_⟩, ?_, ?_⟩
    · rintro ⟨details, rfl⟩
      obtain ⟨errors, herrors, hresponse⟩ := hfit
      exact ⟨errors, herrors, (validationResponse_eq_validationError.mp hresponse).1⟩
    · rintro ⟨errors, herrors, hstandard⟩
      exact ⟨_, (hanswer errors herrors).trans (validationResponse_eq_validationError.mpr ⟨hstandard, rfl⟩)⟩
    · rintro errors herrors ⟨e, he, hspecial⟩
      rw [hanswer errors herrors, validationResponse, if_neg]
      intro hall
      have hstandard : e.input.isStandard = true := List.all_eq_true.mp hall e he
      rw [hspecial] at hstandard
      cases hstandard
    · rintro details rfl
      obtain ⟨errors, herrors, hresponse⟩ := hfit
      obtain ⟨-, rfl⟩ := validationResponse_eq_validationError.mp hresponse
      obtain ⟨hne, hnames⟩ := errors_of_readRequest herrors
      refine ⟨errors, herrors, rfl, by simpa using hne, fun detail hdetail name hname => ?_⟩
      obtain ⟨e, he, rfl⟩ := List.mem_map.mp hdetail
      exact hnames e he name hname
  · obtain ⟨requestId, now, text, request, hpublished⟩ := hinv.published body hbody
    exact ⟨text, hpublished.received, request, requestId, now, hpublished.valid, hpublished.body_eq⟩

/-! ## Status queries -/

/-- What a query says of a row. -/
def statusOf (row : Call) : CallStatusResponse :=
  { requestId := row.callId, status := row.status, requestedAt := row.requestedAt, processedAt := row.processedAt }

variable {rows : List Call} {error : WorkerRequest → Option PyError} {requestId : String}

/-- The requests of a query do not fail. -/
structure Readable (rows : List Call) (error : WorkerRequest → Option PyError) (requestId : String) : Prop where
  select : error (.select requestId) = none
  commit : error .commit = none
  single : (rows.filter fun row => row.callId = requestId).length ≤ 1

theorem wp_wrap {α σ : Type} {h : Prog.Handler WorkerRequest WorkerRequest.Answer PyError σ} {operation : String}
    {p : WorkerM α} {P : α → σ → Prop} {E : σ → Prop} {s : σ} (hp : Prog.wp h p P (fun _ => E) s) :
    Prog.wp h (CallRepository.wrap operation p) P (fun _ => E) s := by
  refine (Prog.wp_tryCatch p _).mpr (hp.mono (fun _ _ h => h) fun exc _ he => ?_)
  cases exc <;> exact he

theorem wp_getByCallId :
    Prog.wp (reading rows error) (CallRepository.getByCallId requestId)
      (fun found _ => rows.filter (fun row => row.callId = requestId) = found.toList)
      (fun _ _ => ¬Readable rows error requestId) () := by
  refine wp_wrap ((Prog.wp_perform _).mpr ?_)
  unfold reading
  cases herror : error (.select requestId) with
  | some exc => exact fun hr => by rw [hr.select] at herror; cases herror
  | none =>
      rcases hrows : rows.filter (fun row => row.callId = requestId) with _ | ⟨row, _ | ⟨row', rest⟩⟩
      · simp only [hrows, Option.toList_none]
      · simp only [hrows, Option.toList_some]
      · simp only [hrows]
        intro hr
        have hsingle := hr.single
        rw [hrows] at hsingle
        simp at hsingle

/-- A query finds the row of the request id, if there is one. -/
theorem wp_getStatus (rows : List Call) (error : WorkerRequest → Option PyError) (requestId : String) :
    Prog.wp (reading rows error) (getStatus requestId)
      (fun response _ => (rows.filter fun row => row.callId = requestId).map statusOf = response.toList)
      (fun _ _ => ¬Readable rows error requestId) () := by
  have hrollback : ∀ exc, ¬Readable rows error requestId → Prog.wp (reading rows error)
      (do
        workerRequest .rollback
        throw exc : WorkerM (Option CallStatusResponse))
      (fun response _ => (rows.filter fun row => row.callId = requestId).map statusOf = response.toList)
      (fun _ _ => ¬Readable rows error requestId) () := by
    intro exc hnot
    refine (Prog.wp_bind _ _).mpr ((Prog.wp_perform _).mpr ?_)
    unfold reading
    cases error .rollback <;> exact hnot
  refine (Prog.wp_tryCatch _ _).mpr ((Prog.wp_bind _ _).mpr ((Prog.wp_bind _ _).mpr ?_))
  refine wp_getByCallId.mono (fun found _ hfound => ?_) fun exc _ hnot => hrollback exc hnot
  have hresponse : (rows.filter fun row => row.callId = requestId).map statusOf = (found.map statusOf).toList := by
    rw [hfound]
    cases found <;> rfl
  have hcommit : ∀ response : Option CallStatusResponse, response = found.map statusOf →
      Prog.wp (reading rows error) (do workerRequest .commit; return response)
        (fun response _ => (rows.filter fun row => row.callId = requestId).map statusOf = response.toList)
        (fun exc _ => Prog.wp (reading rows error)
          (do
            workerRequest .rollback
            throw exc : WorkerM (Option CallStatusResponse))
          (fun response _ => (rows.filter fun row => row.callId = requestId).map statusOf = response.toList)
          (fun _ _ => ¬Readable rows error requestId) ()) () := by
    rintro _ rfl
    refine (Prog.wp_bind _ _).mpr ((Prog.wp_perform _).mpr ?_)
    unfold reading
    cases herror : error .commit with
    | none => exact hresponse
    | some exc => exact hrollback exc fun hr => by rw [hr.commit] at herror; cases herror
  cases found with
  | none => exact hcommit none rfl
  | some row => exact hcommit (some (statusOf row)) rfl

/-- A query that does not fail says what the table holds. -/
theorem statusReply_eq (hreadable : Readable rows error requestId) :
    ∃ response : Option CallStatusResponse, statusReply rows error requestId = getCallStatus (.ok response) ∧
      (rows.filter fun row => row.callId = requestId).map statusOf = response.toList := by
  have hwp := wp_getStatus rows error requestId
  unfold Prog.wp at hwp
  unfold statusReply
  split at hwp
  · rename_i response s hexec
    exact ⟨response, by rw [hexec], hwp⟩
  · exact absurd hreadable hwp

/-- A query that does not fail has seen the rows of its request id. -/
theorem rows_of_statusReply (response : Option CallStatusResponse)
    (h : statusReply rows error requestId = getCallStatus (.ok response)) :
    (rows.filter fun row => row.callId = requestId).map statusOf = response.toList := by
  have hwp := wp_getStatus rows error requestId
  unfold Prog.wp at hwp
  unfold statusReply at h
  split at hwp
  · rename_i found s hexec
    rw [hexec] at h
    cases found <;> cases response <;> cases h <;> exact hwp
  · rename_i exc s hexec
    rw [hexec] at h
    cases response <;> cases h

theorem row_of_found {response : CallStatusResponse} (h : statusReply rows error requestId = .found response) :
    ∃ row ∈ rows, row.callId = requestId ∧ response = statusOf row := by
  obtain ⟨row, hrow, hresponse⟩ := List.map_eq_singleton_iff.mp (rows_of_statusReply (some response) h)
  have hmem : row ∈ rows.filter fun row => row.callId = requestId := by rw [hrow]; simp
  obtain ⟨hrow, hid⟩ := List.mem_filter.mp hmem
  exact ⟨row, hrow, by simpa using hid, hresponse.symm⟩

theorem no_row_of_notFound (h : statusReply rows error requestId = .notFound) :
    ∀ row ∈ rows, row.callId ≠ requestId := by
  intro row hrow hid
  have hnone : rows.filter (fun row => row.callId = requestId) = [] :=
    List.map_eq_nil_iff.mp (rows_of_statusReply none h)
  exact List.filter_eq_nil_iff.mp hnone row hrow (by simpa using hid)

theorem found_of_row (hreadable : Readable rows error requestId) {row : Call} (hrow : row ∈ rows)
    (hid : row.callId = requestId) : statusReply rows error requestId = .found (statusOf row) := by
  obtain ⟨response, hreply, hrows⟩ := statusReply_eq hreadable
  have hmem : row ∈ rows.filter fun row => row.callId = requestId := List.mem_filter.mpr ⟨hrow, by simpa using hid⟩
  have hsingle := hreadable.single
  rcases hfilter : rows.filter (fun row => row.callId = requestId) with _ | ⟨row', _ | ⟨row'', rest⟩⟩
  · rw [hfilter] at hmem
    cases hmem
  · rw [hfilter] at hmem hrows
    obtain rfl := List.mem_singleton.mp hmem
    cases response with
    | none => cases hrows
    | some response =>
        obtain rfl : statusOf row = response := List.head_eq_of_cons_eq hrows
        exact hreply
  · rw [hfilter] at hsingle
    simp at hsingle

/-- What the workers do in a run of the pipeline is a run of the workers. -/
theorem workers_pipeline (C : Datetimes φ δ) (F : FloatFormat φ) (api : CallApiSettings) (worker : WorkerSettings)
    (p : Pipeline ι κ) (events : List (PipelineEvent ι κ)) :
    ∃ es, (EventRun.run (Pipeline.step C F api worker) p events).workers =
      EventRun.run (workerSystem κ (workerFromBody C F) worker).step p.workers es := by
  induction events generalizing p with
  | nil => exact ⟨[], rfl⟩
  | cons e events ih =>
      obtain ⟨es, hes⟩ := ih (p.step C F api worker e)
      refine ⟨workerEvents C F api p e ++ es, ?_⟩
      rw [EventRun.run_cons, hes, EventRun.run_append]
      rfl

/-- A query never says that a call is QUEUED, PROCESSING or FAILED: it finds a call that is DONE, and then every later
query that does not fail finds the same; and as long as a query does not find a call that was accepted, its message is
in the queue. -/
theorem status_stays (ι κ : Type) [DecidableEq ι] [DecidableEq κ] [Fintype κ] (C : Datetimes φ δ)
    (F : FloatFormat φ) (api : CallApiSettings) (worker : WorkerSettings) (events : List (PipelineEvent ι κ))
    (error : WorkerRequest → Option PyError) :
    let rows := fun events => (pipelineRun ι κ C F api worker events).workers.shared.rows
    (∀ requestId response, statusReply (rows events) error requestId = .found response →
      response.requestId = requestId ∧ response.status = .done ∧ response.processedAt.isSome ∧
        ∀ more, statusReply (rows (events ++ more)) (fun _ => none) requestId = .found response) ∧
      ∀ text response, (text, .accepted response) ∈ (pipelineRun ι κ C F api worker events).api.shared.exchanges →
        statusReply (rows events) error response.requestId = .notFound →
          ∃ m ∈ (pipelineRun ι κ C F api worker events).workers.shared.queue, m.deleted = false ∧
            ∃ message, workerFromBody C F m.body = some message ∧ message.requestId = response.requestId := by
  intro rows
  have hgood : (pipelineRun ι κ C F api worker events).Good C F api worker := pipelineRun_good events
  refine ⟨fun requestId response hfound => ?_, fun text response hx hreply => ?_⟩
  · obtain ⟨row, hrow, rfl, rfl⟩ := row_of_found hfound
    obtain ⟨hdone, hprocessed⟩ := hgood.workers.1.1.finished row hrow
    refine ⟨rfl, hdone, hprocessed, fun more => ?_⟩
    obtain ⟨es, hes⟩ := workers_pipeline C F api worker
      (pipelineRun ι κ C F api worker events) more
    have hrun : (pipelineRun ι κ C F api worker (events ++ more)).workers =
        EventRun.run (workerSystem κ (workerFromBody C F) worker).step
          (pipelineRun ι κ C F api worker events).workers es := by
      rw [← hes]
      unfold pipelineRun
      rw [EventRun.run_append]
    have hkept := kept_run hgood.workers es
    rw [← hrun] at hkept
    obtain ⟨row', hrow', hsame⟩ := hkept row hrow
    have hid : row'.callId = row.callId := by rw [hsame]
    have hlater : (pipelineRun ι κ C F api worker (events ++ more)).Good C F api worker := pipelineRun_good _
    have hsingle := List.nodup_iff_count_le_one.mp hlater.workers.1.1.unique row.callId
    rw [WorkerState.callIds, List.count_eq_countP, List.countP_map, List.countP_eq_length_filter] at hsingle
    rw [found_of_row ⟨rfl, rfl, hsingle⟩ hrow' hid]
    congr 1
    unfold statusOf
    rw [hsame]
  · obtain ⟨_, _, request, body, hpublished, hsent⟩ := hgood.api.1.fitting _ hx
    rw [hpublished.body_eq] at hsent
    rcases hgood.kept hsent with ⟨m, hm, hbody, hd⟩ | ⟨row, hrow, hid⟩
    · exact ⟨m, hm, hd, _, by rw [hbody, workerFromBody_publishedBody], rfl⟩
    · exact absurd hid (no_row_of_notFound hreply row hrow)

/-! ## The queue can always be drained -/

/-- Every request id is a UUID. -/
def ApiState.Uuids (s : ApiState ι) : Prop := ∀ x ∈ s.drawn, x.2.length = 36

theorem ApiState.Uuids.answer {i : ι} {o : ApiRequest} {c : ApiChoice} {s s' : ApiState ι}
    {r : Except PyError o.Answer} (hs : s.Uuids) (h : s.answer i o c = some (r, s')) : s'.Uuids := by
  by_cases ho : o.Quiet
  · unfold Uuids
    rw [(answer_quiet ho h).2.2.1]
    exact hs
  · cases o with
    | receive | respond =>
        obtain ⟨_, rfl⟩ := Prod.mk.inj (Option.some.inj h)
        exact hs
    | uuid4 =>
        simp only [ApiState.answer] at h
        split at h
        · cases h
        · obtain ⟨_, rfl⟩ := Prod.mk.inj (Option.some.inj h)
          intro x hx
          rcases List.mem_append.mp hx with hx | hx
          · exact hs x hx
          · obtain rfl := List.mem_singleton.mp hx
            exact c.uuid.2
    | sendMessage body =>
        simp only [ApiState.answer] at h
        split at h <;>
        · obtain ⟨_, rfl⟩ := Prod.mk.inj (Option.some.inj h)
          exact hs
    | _ => exact (ho trivial).elim

/-- Only the workers go on, and nothing fails; one that starts has come to an end before. -/
def Pipeline.Faultless (p : Pipeline ι κ) : PipelineEvent ι κ → Prop
  | .worker _ c => c.error = none
  | .startWorker k => (p.workers.threads k).ended = true
  | .api _ => False

end Hailcast.CallApi
