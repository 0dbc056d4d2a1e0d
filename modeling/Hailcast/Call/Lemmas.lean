import Hailcast.Call.System
import Hailcast.Worker.Lemmas.Delivery

/-!
# What the call API publishes

The threads of the call API keep its invariant, one by one and so together.
-/

namespace Hailcast.CallApi

open JsonText Concurrent

variable {φ δ ι : Type} [DecidableEq ι] {C : Datetimes φ δ} {F : FloatFormat φ} {settings : CallApiSettings} {i : ι}
  {s s' : ApiState ι}

/-- The message that a body of the queue carries. -/
theorem fromBody_publishedBody (request : CallRequest C) (requestId : String) (now : Int) :
    CallMessage.fromBody C F (publishedBody C F request requestId now) = some (request.message C requestId now) :=
  CallMessage.fromBody_dump F _

namespace ApiState

omit [DecidableEq ι] in
theorem Published.mono {body requestId text : String} {now : Int} {request : CallRequest C}
    (h : s.Published C F body requestId now text request) (hdrawn : ∀ x ∈ s.drawn, x ∈ s'.drawn)
    (hreceived : ∀ text ∈ s.received, text ∈ s'.received) : s'.Published C F body requestId now text request := by
  obtain ⟨x, hx, hid⟩ := List.mem_map.mp h.drawn
  exact ⟨h.body_eq, List.mem_map.mpr ⟨x, hdrawn x hx, hid⟩, hreceived text h.received, h.valid⟩

omit [DecidableEq ι] in
theorem Fitting.mono {text : String} {response : Response} (h : s.Fitting C F text response)
    (hdrawn : ∀ x ∈ s.drawn, x ∈ s'.drawn) (hreceived : ∀ text ∈ s.received, text ∈ s'.received)
    (hsent : ∀ body ∈ s.sent, body ∈ s'.sent) : s'.Fitting C F text response := by
  cases response with
  | accepted r =>
      obtain ⟨haccepted, hstatus, request, body, hpublished, hbody⟩ := h
      exact ⟨haccepted, hstatus, request, body, hpublished.mono hdrawn hreceived, hsent body hbody⟩
  | validationError errors => exact h
  | appError statusCode code => exact h
  | internalError => exact h

/-! ## Changes of the state -/

omit [DecidableEq ι] in
/-- Two states that differ in nothing that the protocol speaks of. -/
theorem Rely.of_eq {j : ι} (hcurrent : s'.current j = s.current j) (hreceived : s'.received = s.received)
    (hdrawn : s'.drawn = s.drawn) (hsent : s'.sent = s.sent) (hexchanges : s'.exchanges = s.exchanges) :
    s.Rely C F j s' where
  current := hcurrent
  received text ht := by rwa [hreceived]
  drawn x hx := by rwa [hdrawn]
  sent body hb := by rwa [hsent]
  unsent _ _ body hb _ _ _ := by rwa [hsent] at hb
  unanswered _ _ ha := by
    unfold acceptedIds at ha ⊢
    rwa [hexchanges] at ha

omit [DecidableEq ι] in
theorem Inv.of_eq (h : s.Inv C F) (hreceived : ∀ text ∈ s.received, text ∈ s'.received) (hdrawn : s'.drawn = s.drawn)
    (hsent : s'.sent = s.sent) (hexchanges : s'.exchanges = s.exchanges) : s'.Inv C F where
  unique := by rw [hdrawn]; exact h.unique
  published body hb := by
    rw [hsent] at hb
    obtain ⟨requestId, now, text, request, hp⟩ := h.published body hb
    exact ⟨requestId, now, text, request, hp.mono (fun x hx => by rwa [hdrawn]) hreceived⟩
  copies := by rw [hsent]; exact h.copies
  fitting x hx := by
    rw [hexchanges] at hx
    exact (h.fitting x hx).mono (fun x hx => by rwa [hdrawn]) hreceived (fun body hb => by rwa [hsent])
  acceptedOnce := by
    unfold acceptedIds
    rw [hexchanges]
    exact h.acceptedOnce

/-- A fresh request id. -/
def draw (s : ApiState ι) (i : ι) (requestId : String) : ApiState ι :=
  { s with drawn := s.drawn ++ [(i, requestId)] }

omit [DecidableEq ι] in
theorem mem_drawn_draw {requestId : String} : ∀ x ∈ s.drawn, x ∈ (s.draw i requestId).drawn :=
  fun _ hx => List.mem_append_left _ hx

omit [DecidableEq ι] in
theorem Inv.draw (h : s.Inv C F) {requestId : String} (hfresh : requestId ∉ s.drawn.map Prod.snd) :
    (s.draw i requestId).Inv C F where
  unique := by
    simp only [ApiState.draw, List.map_append, List.map_cons, List.map_nil]
    exact List.Nodup.append h.unique (List.nodup_singleton _) (by simpa [List.disjoint_singleton] using hfresh)
  published body hb := by
    obtain ⟨id, now, text, request, hp⟩ := h.published body hb
    exact ⟨id, now, text, request, hp.mono mem_drawn_draw fun _ ht => ht⟩
  copies := h.copies
  fitting x hx := (h.fitting x hx).mono mem_drawn_draw (fun _ ht => ht) fun _ hb => hb
  acceptedOnce := h.acceptedOnce

omit [DecidableEq ι] in
theorem rely_draw (j : ι) (requestId : String) : s.Rely C F j (s.draw i requestId) :=
  ⟨rfl, fun _ h => h, mem_drawn_draw, fun _ h => h, fun _ _ _ hb _ _ _ => hb, fun _ _ ha => ha⟩

/-- Copies of a body in the queue. -/
def publish (s : ApiState ι) (copies : Nat) (body : String) : ApiState ι :=
  { s with sent := s.sent ++ List.replicate copies body }

omit [DecidableEq ι] in
theorem mem_sent_publish {copies : Nat} {body body' : String} (h : body' ∈ (s.publish copies body).sent) :
    body' ∈ s.sent ∨ body' = body :=
  (List.mem_append.mp h).imp id List.eq_of_mem_replicate

/-- The thread has drawn the request id and published nothing under it. -/
def Unsent (C : Datetimes φ δ) (F : FloatFormat φ) (i : ι) (requestId : String) (s : ApiState ι) : Prop :=
  (i, requestId) ∈ s.drawn ∧
    ∀ body ∈ s.sent, ∀ m, CallMessage.fromBody C F body = some m → m.requestId ≠ requestId

omit [DecidableEq ι] in
theorem Inv.publish (h : s.Inv C F) {copies : Nat} {body requestId text : String} {now : Int} {request : CallRequest C}
    (hp : s.Published C F body requestId now text request) (hunsent : Unsent C F i requestId s) :
    (s.publish copies body).Inv C F where
  unique := h.unique
  published body' hb := by
    rcases mem_sent_publish hb with hb | rfl
    · obtain ⟨id, now, text, request, hp⟩ := h.published body' hb
      exact ⟨id, now, text, request, hp.mono (fun _ hd => hd) fun _ ht => ht⟩
    · exact ⟨requestId, now, text, request, hp.mono (fun _ hd => hd) fun _ ht => ht⟩
  copies b hb b' hb' m m' hm hm' hid := by
    have hown : CallMessage.fromBody C F body = some (request.message C requestId now) := by
      rw [hp.body_eq]
      exact fromBody_publishedBody request requestId now
    rcases mem_sent_publish hb with hold | hnew <;> rcases mem_sent_publish hb' with hold' | hnew'
    · exact h.copies b hold b' hold' m m' hm hm' hid
    · rw [hnew', hown] at hm'
      obtain rfl := Option.some.inj hm'
      exact absurd hid (hunsent.2 b hold m hm)
    · rw [hnew, hown] at hm
      obtain rfl := Option.some.inj hm
      exact absurd hid.symm (hunsent.2 b' hold' m' hm')
    · exact hnew.trans hnew'.symm
  fitting x hx := (h.fitting x hx).mono (fun _ hd => hd) (fun _ ht => ht) fun _ hb => List.mem_append_left _ hb
  acceptedOnce := h.acceptedOnce

omit [DecidableEq ι] in
/-- Nobody else uses a request id of thread `i`. -/
theorem Inv.drawn_by (h : s.Inv C F) {j : ι} {requestId : String} (hi : (i, requestId) ∈ s.drawn)
    (hj : (j, requestId) ∈ s.drawn) : i = j :=
  congrArg Prod.fst (List.inj_on_of_nodup_map h.unique hi hj rfl)

omit [DecidableEq ι] in
theorem Inv.rely_publish (h : s.Inv C F) {copies : Nat} {body requestId text : String} {now : Int}
    {request : CallRequest C} (hp : s.Published C F body requestId now text request)
    (hdrawn : (i, requestId) ∈ s.drawn) {j : ι} (hj : j ≠ i) : s.Rely C F j (s.publish copies body) where
  current := rfl
  received _ ht := ht
  drawn _ hx := hx
  sent _ hb := List.mem_append_left _ hb
  unsent id hid b hb m hm hmid := by
    rcases mem_sent_publish hb with hb | rfl
    · exact hb
    · have hown := fromBody_publishedBody (F := F) request requestId now
      rw [← hp.body_eq] at hown
      obtain rfl := Option.some.inj (hown.symm.trans hm)
      obtain rfl : requestId = id := hmid
      exact absurd (h.drawn_by hid hdrawn) hj
  unanswered _ _ ha := ha

/-- An answer to the client of thread `i`. -/
def respond (s : ApiState ι) (i : ι) (response : Response) : ApiState ι :=
  { s with exchanges := s.exchanges ++ [(s.current i, response)] }

omit [DecidableEq ι] in
theorem acceptedIds_respond (response : Response) :
    (s.respond i response).acceptedIds = s.acceptedIds ++ response.acceptedId.toList := by
  unfold acceptedIds respond
  cases h : response.acceptedId <;> simp [h]

omit [DecidableEq ι] in
theorem Inv.respond (h : s.Inv C F) {response : Response} (hfit : s.Fitting C F (s.current i) response)
    (hnew : ∀ requestId, response.acceptedId = some requestId → requestId ∉ s.acceptedIds) :
    (s.respond i response).Inv C F where
  unique := h.unique
  published body hb := by
    obtain ⟨id, now, text, request, hp⟩ := h.published body hb
    exact ⟨id, now, text, request, hp.mono (fun _ hd => hd) fun _ ht => ht⟩
  copies := h.copies
  fitting x hx := by
    rcases List.mem_append.mp hx with hx | hx
    · exact (h.fitting x hx).mono (fun _ hd => hd) (fun _ ht => ht) fun _ hb => hb
    · obtain rfl := List.mem_singleton.mp hx
      exact hfit.mono (fun _ hd => hd) (fun _ ht => ht) fun _ hb => hb
  acceptedOnce := by
    rw [acceptedIds_respond]
    refine List.Nodup.append h.acceptedOnce ?_ ?_
    · cases response.acceptedId <;> simp
    · intro id hid hid'
      exact hnew id (Option.mem_toList.mp hid') hid

omit [DecidableEq ι] in
theorem Inv.rely_respond (h : s.Inv C F) {response : Response}
    (hown : ∀ requestId, response.acceptedId = some requestId → (i, requestId) ∈ s.drawn) {j : ι} (hj : j ≠ i) :
    s.Rely C F j (s.respond i response) where
  current := rfl
  received _ ht := ht
  drawn _ hx := hx
  sent _ hb := hb
  unsent _ _ _ hb _ _ _ := hb
  unanswered id hid ha := by
    rw [acceptedIds_respond, List.mem_append] at ha
    rcases ha with ha | ha
    · exact ha
    · exact absurd (h.drawn_by hid (hown id (Option.mem_toList.mp ha))) hj

/-! ## What a thread knows -/

/-- The thread serves this body. -/
def Serving (i : ι) (text : String) (s : ApiState ι) : Prop := s.current i = text ∧ text ∈ s.received

/-- The thread has a request id under which it has done nothing yet. -/
def Fresh (C : Datetimes φ δ) (F : FloatFormat φ) (i : ι) (text requestId : String) (s : ApiState ι) : Prop :=
  s.Serving i text ∧ Unsent C F i requestId s ∧ requestId ∉ s.acceptedIds

/-- The call is in the queue, and not answered yet. -/
structure Queued (C : Datetimes φ δ) (F : FloatFormat φ) (i : ι) (text requestId : String) (now : Int)
    (request : CallRequest C) (s : ApiState ι) : Prop where
  serving : s.Serving i text
  drawn : (i, requestId) ∈ s.drawn
  unanswered : requestId ∉ s.acceptedIds
  sent : publishedBody C F request requestId now ∈ s.sent

omit [DecidableEq ι] in
theorem Serving.stable {text : String} (h : s.Serving i text) (hr : s.Rely C F i s') : s'.Serving i text :=
  ⟨hr.current.trans h.1, hr.received text h.2⟩

omit [DecidableEq ι] in
theorem Unsent.stable {requestId : String} (h : Unsent C F i requestId s) (hr : s.Rely C F i s') :
    Unsent C F i requestId s' :=
  ⟨hr.drawn _ h.1, fun body hb m hm hid => h.2 body (hr.unsent requestId h.1 body hb m hm hid) m hm hid⟩

omit [DecidableEq ι] in
theorem Fresh.stable {text requestId : String} (h : Fresh C F i text requestId s) (hr : s.Rely C F i s') :
    Fresh C F i text requestId s' :=
  ⟨h.1.stable hr, h.2.1.stable hr, fun ha => h.2.2 (hr.unanswered requestId h.2.1.1 ha)⟩

omit [DecidableEq ι] in
theorem Queued.stable {text requestId : String} {now : Int} {request : CallRequest C}
    (h : Queued C F i text requestId now request s) (hr : s.Rely C F i s') :
    Queued C F i text requestId now request s' where
  serving := h.serving.stable hr
  drawn := hr.drawn _ h.drawn
  unanswered ha := h.unanswered (hr.unanswered requestId h.drawn ha)
  sent := hr.sent _ h.sent

omit [DecidableEq ι] in
/-- A request id that nobody has drawn is on no message and in no answer. -/
theorem Inv.fresh_draw (h : s.Inv C F) {text requestId : String} (hserving : s.Serving i text)
    (hfresh : requestId ∉ s.drawn.map Prod.snd) : Fresh C F i text requestId (s.draw i requestId) := by
  refine ⟨hserving, ⟨by simp [ApiState.draw], fun body hb m hm hid => ?_⟩, fun ha => ?_⟩
  · obtain ⟨id, now, text, request, hp⟩ := h.published body hb
    have hown := fromBody_publishedBody (F := F) request id now
    rw [← hp.body_eq, hm] at hown
    obtain rfl := Option.some.inj hown
    obtain rfl : id = requestId := hid
    exact hfresh hp.drawn
  · obtain ⟨x, hx, hid⟩ := List.mem_filterMap.mp ha
    have hfit := h.fitting x hx
    cases hr : x.2 with
    | accepted r =>
        rw [hr] at hfit hid
        obtain ⟨_, _, request, body, hp, _⟩ := hfit
        obtain rfl : r.requestId = requestId := Option.some.inj hid
        exact hfresh hp.drawn
    | _ => rw [hr] at hid; cases hid

end ApiState

/-! ## Requests that change nothing that counts -/

def ApiRequest.Quiet : ApiRequest → Prop
  | .increment _ | .now | .sqs _ | .record => True
  | _ => False

theorem ApiState.answer_quiet {o : ApiRequest} (ho : o.Quiet) {c : ApiChoice} {r : Except PyError o.Answer}
    (h : s.answer i o c = some (r, s')) :
    s'.current = s.current ∧ s'.received = s.received ∧ s'.drawn = s.drawn ∧ s'.sent = s.sent ∧
      s'.exchanges = s.exchanges := by
  cases o with
  | increment | now | record =>
      obtain ⟨_, rfl⟩ := Prod.mk.inj (Option.some.inj h)
      exact ⟨rfl, rfl, rfl, rfl, rfl⟩
  | sqs o =>
      cases o with
      | isResolved | setResolved =>
          obtain ⟨_, rfl⟩ := Prod.mk.inj (Option.some.inj h)
          exact ⟨rfl, rfl, rfl, rfl, rfl⟩
      | getQueueUrl | createQueue =>
          simp only [answer] at h
          split at h <;>
          · obtain ⟨_, rfl⟩ := Prod.mk.inj (Option.some.inj h)
            exact ⟨rfl, rfl, rfl, rfl, rfl⟩
      | _ => cases h
  | _ => exact ho.elim

section Safe

variable {α : Type} {text : String}

theorem safe_quiet {p : ApiM α} {J : ApiState ι → Prop} (hJ : ∀ s s', J s → s.Rely C F i s' → J s')
    (hp : p.All ApiRequest.Quiet) (hs : J s) :
    Safe (apiSystem ι C F settings).toProtocol i (fun _ => J) (fun _ => J) p s := by
  refine Safe.of_all hJ (fun o s c r s' ho hi hj ha => ?_) hp hs
  obtain ⟨hcurrent, hreceived, hdrawn, hsent, hexchanges⟩ := ApiState.answer_quiet ho ha
  have hrely : ∀ j, s.Rely C F j s' := fun j =>
    ApiState.Rely.of_eq (by rw [hcurrent]) hreceived hdrawn hsent hexchanges
  exact ⟨hi.of_eq (by rw [hreceived]; exact fun _ h => h) hdrawn hsent hexchanges, fun j _ => hrely j,
    hJ _ _ hj (hrely i)⟩

theorem safe_receive :
    Safe (apiSystem ι C F settings).toProtocol i (fun text => ApiState.Serving i text) (fun _ _ => True)
      (apiRequest .receive) s := by
  refine Safe.perform fun s₁ _ hi c r s₂ _ ha => ?_
  obtain ⟨rfl, rfl⟩ := Prod.mk.inj (Option.some.inj ha)
  have hmem : ∀ text ∈ s₁.received, text ∈ s₁.received ++ [c.text] := fun _ h => List.mem_append_left _ h
  refine ⟨hi.of_eq hmem rfl rfl rfl, fun j hj => ?_, fun s₃ hr₃ _ => ?_⟩
  · exact ⟨Function.update_of_ne hj _ _, hmem, fun _ h => h, fun _ h => h, fun _ _ _ h _ _ _ => h, fun _ _ h => h⟩
  · exact ApiState.Serving.stable ⟨Function.update_self i _ _, by simp⟩ hr₃

theorem safe_uuid4 (hs : s.Serving i text) :
    Safe (apiSystem ι C F settings).toProtocol i (fun requestId => ApiState.Fresh C F i text requestId)
      (fun _ => ApiState.Serving i text) (apiRequest .uuid4) s := by
  refine Safe.perform fun s₁ hr hi c r s₂ _ ha => ?_
  simp only [apiSystem, ApiState.answer] at ha
  split at ha
  · cases ha
  · rename_i hfresh
    obtain ⟨rfl, rfl⟩ := Prod.mk.inj (Option.some.inj ha)
    exact ⟨hi.draw hfresh, fun j _ => ApiState.rely_draw j _, fun s₃ hr₃ _ =>
      (hi.fresh_draw (hs.stable hr) hfresh).stable hr₃⟩

/-- A send publishes copies of the message, also when it raises. -/
theorem safe_publish {requestId : String} {now : Int} {request : CallRequest C}
    (hvalid : readRequest C F text = .ok request) (hs : ApiState.Fresh C F i text requestId s) :
    Safe (apiSystem ι C F settings).toProtocol i (fun _ => ApiState.Queued C F i text requestId now request)
      (fun _ => ApiState.Serving i text)
      (apiRequest (.sendMessage (publishedBody C F request requestId now))) s := by
  refine Safe.perform fun s₁ hr hi c r s₂ _ ha => ?_
  obtain ⟨hserving, hunsent, hunanswered⟩ := hs.stable hr
  have hp : s₁.Published C F (publishedBody C F request requestId now) requestId now text request :=
    ⟨rfl, List.mem_map.mpr ⟨_, hunsent.1, rfl⟩, hserving.2, hvalid⟩
  simp only [apiSystem, ApiState.answer] at ha
  split at ha
  · obtain ⟨rfl, rfl⟩ := Prod.mk.inj (Option.some.inj ha)
    have hserving : (s₁.publish c.copies (publishedBody C F request requestId now)).Serving i text := hserving
    exact ⟨hi.publish hp hunsent, fun j hj => hi.rely_publish hp hunsent.1 hj, fun s₃ hr₃ _ => hserving.stable hr₃⟩
  · obtain ⟨rfl, rfl⟩ := Prod.mk.inj (Option.some.inj ha)
    have hqueued : ApiState.Queued C F i text requestId now request
        (s₁.publish (c.copies + 1) (publishedBody C F request requestId now)) :=
      ⟨hserving, hunsent.1, hunanswered, by simp [ApiState.publish]⟩
    exact ⟨hi.publish hp hunsent, fun j hj => hi.rely_publish hp hunsent.1 hj, fun s₃ hr₃ _ => hqueued.stable hr₃⟩

theorem safe_sendMessage {requestId : String} {now : Int} {request : CallRequest C}
    (hvalid : readRequest C F text = .ok request) (hs : ApiState.Fresh C F i text requestId s) :
    Safe (apiSystem ι C F settings).toProtocol i (fun _ => ApiState.Queued C F i text requestId now request)
      (fun _ => ApiState.Serving i text) (sendMessage F settings (request.message C requestId now).dump) s := by
  have hfresh : ∀ s s', ApiState.Fresh C F i text requestId s → s.Rely C F i s' →
      ApiState.Fresh C F i text requestId s' := fun _ _ h hr => h.stable hr
  refine Safe.tryCatch (Safe.bind ?_)
  refine (safe_quiet hfresh (Prog.All.lift (fun _ => trivial) _) hs).mono (fun _ s₁ _ hs₁ => ?_) fun exc s₁ _ hs₁ => ?_
  · refine (safe_publish hvalid hs₁).mono (fun _ _ _ h => h) fun exc s₂ _ hs₂ => ?_
    cases exc <;> exact Safe.raise fun s₃ hr _ => hs₂.stable hr
  · cases exc <;> exact Safe.raise fun s₃ hr _ => hs₁.1.stable hr

/-- `accept_call` returns once the call is in the queue. -/
theorem safe_acceptCall {request : CallRequest C} (hvalid : readRequest C F text = .ok request)
    (hs : s.Serving i text) :
    Safe (apiSystem ι C F settings).toProtocol i
      (fun response s => response.accepted = true ∧ response.status = .queued ∧
        s.Queued C F i text response.requestId response.createdAt request)
      (fun _ => ApiState.Serving i text) (acceptCall C F settings request) s := by
  have hserving : ∀ s s', ApiState.Serving i text s → s.Rely C F i s' → ApiState.Serving i text s' :=
    fun _ _ h hr => h.stable hr
  refine Safe.andThen (safe_quiet hserving (Prog.All.perform trivial) hs) fun _ s₁ _ hs₁ => ?_
  refine Safe.andThen (safe_quiet hserving (Prog.All.perform trivial) hs₁) fun now s₂ _ hs₂ => ?_
  refine Safe.andThen (safe_uuid4 hs₂) fun requestId s₃ _ hs₃ => ?_
  rw [CallMessage.toBody_eq]
  refine Safe.andThen (safe_sendMessage hvalid hs₃) fun _ s₄ _ hs₄ => ?_
  have hqueued : ∀ s s', ApiState.Queued C F i text requestId now request s → s.Rely C F i s' →
      ApiState.Queued C F i text requestId now request s' := fun _ _ h hr => h.stable hr
  refine Safe.bind ((safe_quiet (p := apiRequest (.increment .queuePublishTotal)) hqueued
    (Prog.All.perform trivial) hs₄).mono (fun _ s₅ _ hs₅ => ?_) fun _ _ _ h => h.serving)
  refine Safe.bind ((safe_quiet (p := apiRequest .record) hqueued
    (Prog.All.perform trivial) hs₅).mono (fun _ s₆ _ hs₆ => ?_) fun _ _ _ h => h.serving)
  exact Safe.ret fun s₇ hr _ => ⟨rfl, rfl, hs₆.stable hr⟩

theorem safe_respond {response : Response}
    (hs : ∀ s', s.Rely C F i s' → s'.Fitting C F (s'.current i) response ∧
      ∀ requestId, response.acceptedId = some requestId → (i, requestId) ∈ s'.drawn ∧ requestId ∉ s'.acceptedIds) :
    Safe (apiSystem ι C F settings).toProtocol i (fun _ _ => True) (fun _ _ => True)
      (apiRequest (.respond response)) s := by
  refine Safe.perform fun s₁ hr hi c r s₂ _ ha => ?_
  obtain ⟨rfl, rfl⟩ := Prod.mk.inj (Option.some.inj ha)
  obtain ⟨hfit, hids⟩ := hs s₁ hr
  exact ⟨hi.respond hfit fun id hid => (hids id hid).2, fun j hj => hi.rely_respond (fun id hid => (hids id hid).1) hj,
    fun _ _ _ => trivial⟩

theorem acceptedId_errorResponse (exc : PyError) : (errorResponse exc).acceptedId = none := by
  cases exc <;> rfl

omit [DecidableEq ι] in
theorem fitting_errorResponse {request : CallRequest C} (hvalid : readRequest C F text = .ok request)
    (exc : PyError) : s.Fitting C F text (errorResponse exc) := by
  have herror : ∃ request, readRequest C F text = .ok request := ⟨request, hvalid⟩
  cases exc <;> first | exact herror | exact .inl herror

theorem validationResponse_eq_validationError {errors : List (FieldError φ)} {details : List ErrorDetail} :
    validationResponse errors = .validationError details ↔
      (∀ e ∈ errors, e.input.isStandard = true) ∧ errors.map FieldError.detail = details := by
  unfold validationResponse
  split
  · rename_i hall
    simp only [Response.validationError.injEq]
    exact ⟨fun h => ⟨List.all_eq_true.mp hall, h⟩, fun h => h.2⟩
  · rename_i hnot
    simp only [reduceCtorEq, false_iff, not_and]
    exact fun hall => absurd (List.all_eq_true.mpr hall) hnot

theorem acceptedId_validationResponse (errors : List (FieldError φ)) :
    (validationResponse errors).acceptedId = none := by
  unfold validationResponse
  split <;> rfl

omit [DecidableEq ι] in
theorem fitting_validationResponse {errors : List (FieldError φ)} (hinvalid : readRequest C F text = .error errors) :
    s.Fitting C F text (validationResponse errors) := by
  unfold validationResponse
  split
  · rename_i hall
    exact ⟨errors, hinvalid, if_pos hall⟩
  · rename_i hnot
    exact .inr ⟨errors, hinvalid, if_neg hnot⟩

omit [DecidableEq ι] in
/-- The answer to an invalid body. -/
theorem ApiState.Fitting.eq_validationResponse {response : Response} {errors : List (FieldError φ)}
    (h : s.Fitting C F text response) (hinvalid : readRequest C F text = .error errors) :
    response = validationResponse errors := by
  have hnot : ∀ request, readRequest C F text ≠ .ok request := fun request hok => by
    rw [hinvalid] at hok
    cases hok
  have hsame : ∀ errors', readRequest C F text = .error errors' → errors' = errors := fun errors' herrors => by
    rw [hinvalid] at herrors
    exact (Except.error.inj herrors).symm
  cases response with
  | accepted r =>
      obtain ⟨_, _, request, _, hpublished, _⟩ := h
      exact absurd hpublished.valid (hnot request)
  | validationError details =>
      obtain ⟨errors', herrors, hresponse⟩ := h
      rw [← hsame errors' herrors, hresponse]
  | appError statusCode code =>
      obtain ⟨request, hvalid⟩ := h
      exact absurd hvalid (hnot request)
  | internalError =>
      rcases h with ⟨request, hvalid⟩ | ⟨errors', herrors, hresponse⟩
      · exact absurd hvalid (hnot request)
      · rw [← hsame errors' herrors, hresponse]

theorem safe_createCall :
    Safe (apiSystem ι C F settings).toProtocol i (fun _ _ => True) (fun _ _ => True) (createCall C F settings) s := by
  refine Safe.andThen safe_receive fun text s₁ _ hs₁ => ?_
  cases hread : readRequest C F text with
  | error errors =>
      refine safe_respond fun s₂ hr => ⟨?_, fun _ hid => ?_⟩
      · rw [(hs₁.stable hr).1]
        exact fitting_validationResponse hread
      · rw [acceptedId_validationResponse] at hid
        cases hid
  | ok request =>
      refine Safe.bind (Safe.tryCatch (Safe.bind ((safe_acceptCall hread hs₁).mono (fun response s₂ _ hs₂ => ?_)
        fun exc s₂ _ hs₂ => ?_)))
      · obtain ⟨haccepted, hstatus, hqueued⟩ := hs₂
        refine Safe.ret fun s₃ hr₃ _ => safe_respond fun s₄ hr₄ => ?_
        have hqueued := (hqueued.stable hr₃).stable hr₄
        refine ⟨⟨haccepted, hstatus, request, _, ⟨rfl, List.mem_map.mpr ⟨_, hqueued.drawn, rfl⟩, ?_, ?_⟩,
          hqueued.sent⟩, fun id hid => ?_⟩
        · rw [hqueued.serving.1]
          exact hqueued.serving.2
        · rw [hqueued.serving.1]
          exact hread
        · obtain rfl : response.requestId = id := Option.some.inj hid
          exact ⟨hqueued.drawn, hqueued.unanswered⟩
      · refine Safe.ret fun s₃ hr₃ _ => safe_respond fun s₄ hr₄ => ?_
        rw [((hs₂.stable hr₃).stable hr₄).1]
        exact ⟨fitting_errorResponse hread exc, fun id hid => by rw [acceptedId_errorResponse] at hid; cases hid⟩

end Safe

/-! ## Runs -/

theorem apiSystem_sound : (apiSystem ι C F settings).Sound where
  body _ _ _ _ _ := safe_createCall
  reset_inv _ _ _ hi := hi
  reset_rely _ _ j s _ _ := ApiState.Rely.refl C F j s
  environment_inv e := e.elim
  environment_rely e := e.elim

omit [DecidableEq ι] in
theorem apiState_inv : ApiState.Inv C F ({} : ApiState ι) where
  unique := List.nodup_nil
  published _ h := by cases h
  copies _ h := by cases h
  fitting _ h := by cases h
  acceptedOnce := List.nodup_nil

theorem apiSystem_allowed (p : Config ι ApiRequest ApiRequest.Answer (ApiState ι) PyError)
    (e : Event ι ApiChoice Empty) : (apiSystem ι C F settings).Allowed p e := by
  cases e with
  | act i c =>
      change (apiSystem ι C F settings).AllowedNext i c _ _
      unfold System.AllowedNext
      split <;> trivial
  | start i => exact Or.inl rfl
  | environment e => exact e.elim

theorem apiSystem_good_step {p : Config ι ApiRequest ApiRequest.Answer (ApiState ι) PyError}
    (h : (apiSystem ι C F settings).Good p) (e : Event ι ApiChoice Empty) :
    (apiSystem ι C F settings).Good ((apiSystem ι C F settings).step p e) :=
  System.good_step apiSystem_sound h (apiSystem_allowed p e)

end Hailcast.CallApi
