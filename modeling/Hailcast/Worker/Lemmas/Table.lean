import Hailcast.Worker.System

/-!
# What the requests of a worker do to queue and table
-/

namespace Hailcast

open Concurrent

variable {ι : Type} {fromBody : String → Option CallMessage} {settings : WorkerSettings}

/-! ## Rows -/

theorem Call.callId_update (time : Int) (loaded current row : Call) :
    (loaded.update time current row).callId = row.callId := by
  unfold Call.update
  split <;> rfl

theorem Call.Finished.update {current row : Call} (hc : current.Finished) (hr : row.Finished) (time : Int)
    (loaded : Call) : (loaded.update time current row).Finished := by
  unfold Call.update
  split
  · exact hr
  · constructor
    · simp only
      split
      · exact hr.1
      · exact hc.1
    · simp only
      split
      · exact hr.2
      · exact hc.2

theorem Call.Finished.update_self {loaded current : Call} (hc : current.Finished) (time : Int) :
    (loaded.update time current loaded).Finished := by
  unfold Call.update
  split
  · rename_i h
    exact ⟨h.2.1 ▸ hc.1, h.2.2 ▸ hc.2⟩
  · constructor
    · simp only
      split
      · rename_i h; exact h ▸ hc.1
      · exact hc.1
    · simp only
      split
      · rename_i h; exact h ▸ hc.2
      · exact hc.2

theorem SqsMessage.Settled.mono {ids ids' : List String} {m : SqsMessage} (h : m.Settled fromBody settings ids)
    (hle : ∀ id ∈ ids, id ∈ ids') : m.Settled fromBody settings ids' :=
  h.imp (fun ⟨message, hb, hm⟩ => ⟨message, hb, hle _ hm⟩) id

/-- The session will leave the row of the request. -/
def Session.Ready (requestId : String) (callIds : List String) : Session → Prop
  | .empty => False
  | .existing _ current => current.Finished ∧ requestId ∈ callIds
  | .inserted loaded current => current.Finished ∧ loaded.callId = requestId

theorem Session.Ready.mono {requestId : String} {ids ids' : List String} {session : Session}
    (h : session.Ready requestId ids) (hle : ∀ id ∈ ids, id ∈ ids') : session.Ready requestId ids' := by
  cases session with
  | empty => exact h
  | existing loaded current => exact ⟨h.1, hle _ h.2⟩
  | inserted loaded current => exact h

theorem Session.Ready.finished {requestId : String} {ids : List String} {session : Session} {rows : List Call}
    (h : session.Ready requestId ids) (hrows : ∀ row ∈ rows, row.Finished) (time : Int) :
    ∀ row ∈ session.commit time rows, row.Finished := by
  cases session with
  | empty => exact hrows
  | existing loaded current =>
      intro row hrow
      obtain ⟨row₀, hrow₀, rfl⟩ := List.mem_map.mp hrow
      split
      · exact h.1.update (hrows row₀ hrow₀) time loaded
      · exact hrows row₀ hrow₀
  | inserted loaded current =>
      intro row hrow
      rcases List.mem_append.mp hrow with hrow | hrow
      · exact hrows row hrow
      · obtain rfl := List.mem_singleton.mp hrow
        exact h.1.update_self time

theorem Session.Ready.mem {requestId : String} {ids : List String} {session : Session}
    (h : session.Ready requestId ids) : requestId ∈ ids ++ session.uncommitted.toList := by
  cases session with
  | empty => exact h.elim
  | existing loaded current => exact List.mem_append_left _ h.2
  | inserted loaded current => simp [Session.uncommitted, h.2]

/-! ## The queue -/

def Delivery.Known (queue : List SqsMessage) (d : Delivery) : Prop :=
  ∃ m, queue[d.receiptHandle.message]? = some m ∧ m.body = d.body ∧ d.receiveCount ≤ m.received

theorem Delivery.Known.mono {queue queue' : List SqsMessage} {d : Delivery} (h : d.Known queue)
    (hle : QueueLe queue queue') : d.Known queue' := by
  obtain ⟨m, hm, hbody, hcount⟩ := h
  obtain ⟨m', hm', hbody', hle'⟩ := hle _ m hm
  exact ⟨m', hm', hbody'.trans hbody, hcount.trans hle'⟩

theorem queueLe_modify (queue : List SqsMessage) (id : Nat) (f : SqsMessage → SqsMessage)
    (hf : ∀ m, (f m).body = m.body ∧ m.received ≤ (f m).received) : QueueLe queue (queue.modify id f) := by
  intro k m hm
  rw [List.getElem?_modify, hm]
  by_cases hk : id = k
  · exact ⟨f m, by simp [hk], hf m⟩
  · exact ⟨m, by simp [hk], rfl, le_refl _⟩

theorem queueLe_append (queue more : List SqsMessage) : QueueLe queue (queue ++ more) := by
  intro k m hm
  exact ⟨m, by rw [List.getElem?_append_left (List.getElem?_eq_some_iff.mp hm).1, hm], rfl, le_refl _⟩

/-- A receive keeps the messages, leaves the deleted ones as they are, and delivers messages of the queue. -/
theorem deliver_spec (queue : List SqsMessage) (ids : List Nat) :
    QueueLe queue (deliver queue ids).2 ∧
      (∀ m ∈ (deliver queue ids).2, m.deleted = true → m ∈ queue) ∧
      ∀ d ∈ (deliver queue ids).1, d.Known (deliver queue ids).2 := by
  induction ids generalizing queue with
  | nil => exact ⟨QueueLe.refl _, fun m hm _ => hm, fun d hd => by cases hd⟩
  | cons id ids ih =>
      unfold deliver
      split
      · rename_i message hmessage
        split
        · exact ih queue
        · rename_i hdeleted
          obtain ⟨hle, hdel, hknown⟩ := ih (queue.modify id fun m => { m with received := m.received + 1 })
          have hmodify := queueLe_modify queue id (fun m => { m with received := m.received + 1 })
            (fun m => ⟨rfl, Nat.le_succ _⟩)
          refine ⟨hmodify.trans hle, fun m hm hd => ?_, fun d hd => ?_⟩
          · obtain ⟨k, hk⟩ := List.mem_iff_getElem?.mp (hdel m hm hd)
            rw [List.getElem?_modify] at hk
            obtain ⟨m₀, hm₀, rfl⟩ := Option.map_eq_some_iff.mp hk
            by_cases hik : id = k
            · subst hik
              obtain rfl : message = m₀ := Option.some.inj (hmessage.symm.trans hm₀)
              simp only [↓reduceIte] at hd
              exact absurd hd hdeleted
            · simp only [hik, ↓reduceIte]
              exact List.mem_iff_getElem?.mpr ⟨k, hm₀⟩
          · rcases List.mem_cons.mp hd with rfl | hd
            · refine Delivery.Known.mono ⟨{ message with received := message.received + 1 }, ?_, rfl, le_refl _⟩ hle
              simp [hmessage]
            · exact hknown d hd
      · exact ih queue

/-! ## Steps -/

namespace WorkerState

variable {s s' : WorkerState ι}

/-- Committed rows and messages stay. -/
def Onward (s s' : WorkerState ι) : Prop := (∀ callId ∈ s.callIds, callId ∈ s'.callIds) ∧ QueueLe s.queue s'.queue

theorem Onward.refl (s : WorkerState ι) : s.Onward s := ⟨fun _ h => h, QueueLe.refl _⟩

theorem Onward.trans {s'' : WorkerState ι} (h : s.Onward s') (h' : s'.Onward s'') : s.Onward s'' :=
  ⟨fun callId hc => h'.1 callId (h.1 callId hc), h.2.trans h'.2⟩

theorem Inv.congr (h : s.Inv fromBody settings) (hrows : s'.rows = s.rows) (hsessions : s'.sessions = s.sessions)
    (hqueue : s'.queue = s.queue) : s'.Inv fromBody settings := by
  obtain ⟨h₁, h₂, h₃, h₄, h₅⟩ := h
  constructor <;> simpa only [callIds, hrows, hsessions, hqueue] using by assumption

theorem Inv.queue {queue : List SqsMessage} (h : s.Inv fromBody settings)
    (hsettled : ∀ m ∈ queue, m.deleted = true → m.Settled fromBody settings s.callIds) :
    Inv fromBody settings { s with queue := queue } := ⟨h.unique, h.finished, h.fresh, h.apart, hsettled⟩

variable [DecidableEq ι] {i : ι}

theorem rely_setSession {j : ι} (hj : j ≠ i) (session : Session) : s.Rely j (s.setSession i session) :=
  ⟨Function.update_of_ne hj _ _, fun _ h => h, QueueLe.refl _⟩

theorem rely_start {j : ι} (hj : j ≠ i) (returned : Bool) : s.Rely j (s.start returned i) :=
  ⟨Function.update_of_ne hj _ _, fun _ h => h, QueueLe.refl _⟩

theorem onward_setSession (session : Session) : s.Onward (s.setSession i session) := Onward.refl s

@[simp] theorem sessions_setSession (session : Session) : (s.setSession i session).sessions i = session :=
  Function.update_self ..

theorem Inv.setSession {session : Session} (h : s.Inv fromBody settings)
    (hs : ∀ callId, session.uncommitted = some callId → (s.sessions i).uncommitted = some callId) :
    (s.setSession i session).Inv fromBody settings := by
  have hold : ∀ j callId, ((s.setSession i session).sessions j).uncommitted = some callId →
      (s.sessions j).uncommitted = some callId := by
    intro j callId hj
    by_cases hji : j = i
    · subst hji; exact hs callId (by simpa using hj)
    · simpa [WorkerState.setSession, Function.update_of_ne hji] using hj
  exact ⟨h.unique, h.finished, fun j callId hj => h.fresh j callId (hold j callId hj),
    fun j k callId hj hk => h.apart j k callId (hold j callId hj) (hold k callId hk), h.settled⟩

@[simp] theorem sessions_start (returned : Bool) : (s.start returned i).sessions i = .empty :=
  sessions_setSession .empty

theorem Inv.start (h : s.Inv fromBody settings) (returned : Bool) : (s.start returned i).Inv fromBody settings := by
  have hempty : (s.setSession i .empty).Inv fromBody settings := h.setSession fun _ hc => by cases hc
  exact hempty.congr rfl rfl rfl

theorem Inv.insert {call : Call} (h : s.Inv fromBody settings) (hnew : call.callId ∉ s.callIds)
    (halone : ¬ ∃ j, j ≠ i ∧ (s.sessions j).uncommitted = some call.callId) :
    (s.setSession i (.inserted call call)).Inv fromBody settings := by
  have hold : ∀ j callId, ((s.setSession i (.inserted call call)).sessions j).uncommitted = some callId →
      (j = i ∧ callId = call.callId) ∨ (j ≠ i ∧ (s.sessions j).uncommitted = some callId) := by
    intro j callId hj
    by_cases hji : j = i
    · subst hji
      exact Or.inl ⟨rfl, (Option.some.inj (by simpa [Session.uncommitted] using hj)).symm⟩
    · exact Or.inr ⟨hji, by simpa [WorkerState.setSession, Function.update_of_ne hji] using hj⟩
  refine ⟨h.unique, h.finished, fun j callId hj => ?_, fun j k callId hj hk => ?_, h.settled⟩
  · rcases hold j callId hj with ⟨_, rfl⟩ | ⟨_, hj⟩
    · exact hnew
    · exact h.fresh j callId hj
  · rcases hold j callId hj with ⟨rfl, rfl⟩ | ⟨hji, hj'⟩
    · rcases hold k _ hk with ⟨rfl, _⟩ | ⟨hki, hk'⟩
      · rfl
      · exact absurd ⟨k, hki, hk'⟩ halone
    · rcases hold k _ hk with ⟨rfl, rfl⟩ | ⟨_, hk'⟩
      · exact absurd ⟨j, hji, hj'⟩ halone
      · exact h.apart j k callId hj' hk'

theorem callIds_update {loaded current : Call} (time : Int) (rows : List Call) :
    (rows.map fun row => if row.callId = loaded.callId then loaded.update time current row else row).map Call.callId =
      rows.map Call.callId := by
  rw [List.map_map]
  refine List.map_congr_left fun row _ => ?_
  simp only [Function.comp_apply]
  split
  · exact Call.callId_update time loaded current row
  · rfl

theorem Inv.finish {rows : List Call} (h : s.Inv fromBody settings) (hunique : (rows.map Call.callId).Nodup)
    (hfinished : ∀ row ∈ rows, row.Finished) (hsub : ∀ callId ∈ s.callIds, callId ∈ rows.map Call.callId)
    (hnew : ∀ callId ∈ rows.map Call.callId, callId ∈ s.callIds ∨ (s.sessions i).uncommitted = some callId) :
    ({ s with rows := rows }.setSession i .empty).Inv fromBody settings := by
  have hold : ∀ j callId, (({ s with rows := rows }.setSession i .empty).sessions j).uncommitted = some callId →
      j ≠ i ∧ (s.sessions j).uncommitted = some callId := by
    intro j callId hj
    by_cases hji : j = i
    · subst hji
      simp [Session.uncommitted] at hj
    · exact ⟨hji, by simpa [WorkerState.setSession, Function.update_of_ne hji] using hj⟩
  refine ⟨hunique, hfinished, fun j callId hj hmem => ?_, fun j k callId hj hk => ?_,
    fun m hm hd => (h.settled m hm hd).mono hsub⟩
  · obtain ⟨hji, hj⟩ := hold j callId hj
    rcases hnew callId hmem with hc | hi
    · exact h.fresh j callId hj hc
    · exact hji (h.apart j i callId hj hi)
  · exact h.apart j k callId (hold j callId hj).2 (hold k callId hk).2

theorem callIds_commit (session : Session) (time : Int) (rows : List Call) :
    (session.commit time rows).map Call.callId = rows.map Call.callId ++ session.uncommitted.toList := by
  cases session with
  | empty => simp [Session.commit, Session.uncommitted]
  | existing loaded current => simp only [Session.commit, Session.uncommitted, callIds_update]; simp
  | inserted loaded current => simp [Session.commit, Session.uncommitted, Call.callId_update]

theorem Inv.commit {requestId : String} (h : s.Inv fromBody settings) (time : Int)
    (hready : (s.sessions i).Ready requestId s.callIds) :
    let rows := (s.sessions i).commit time s.rows
    ({ s with rows := rows }.setSession i .empty).Inv fromBody settings ∧
      (∀ callId ∈ s.callIds, callId ∈ rows.map Call.callId) ∧ requestId ∈ rows.map Call.callId := by
  intro rows
  have hids : rows.map Call.callId = s.callIds ++ (s.sessions i).uncommitted.toList := callIds_commit _ _ _
  have hsub : ∀ callId ∈ s.callIds, callId ∈ rows.map Call.callId := by
    intro callId hc
    rw [hids]
    exact List.mem_append_left _ hc
  have hnew : ∀ callId ∈ (s.sessions i).uncommitted.toList, callId ∉ s.callIds :=
    fun callId hc => h.fresh i callId (Option.mem_toList.mp hc)
  have hunique : (rows.map Call.callId).Nodup := by
    rw [hids]
    apply List.Nodup.append h.unique
    · cases (s.sessions i).uncommitted <;> simp
    · exact fun callId hc hu => hnew callId hu hc
  refine ⟨h.finish hunique (hready.finished h.finished time) hsub ?_, hsub, ?_⟩
  · intro callId hc
    rw [hids, List.mem_append, Option.mem_toList] at hc
    exact hc
  · rw [hids]
    exact hready.mem

end WorkerState

end Hailcast
