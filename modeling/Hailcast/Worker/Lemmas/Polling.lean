import Hailcast.Worker.Lemmas.Delivery
import Hailcast.Worker.Loop

/-!
# What a poll raises
-/

namespace Hailcast

open WorkerService

variable {σ α : Type} {fromBody : String → Option CallMessage} {settings : WorkerSettings}

/-! ## Which exceptions there are -/

def IsAwsError (exc : PyError) : Prop := ∃ service operation key, exc = .awsError service operation key

def IsDatabaseError (exc : PyError) : Prop := ∃ operation, exc = .databaseError operation

/-- The requests within a transaction, and those that find the queue. -/
def WorkerRequest.Inner : WorkerRequest → Prop
  | .commit | .rollback | .deleteMessage _ => False
  | _ => True

namespace SqsAdapter

/-- What `_wrap` makes an `AwsError`, and the `AwsError` of the inner call. -/
def Wrapped (exc : PyError) : Prop := (∃ code, exc = .clientError code) ∨ exc = .botoCoreError ∨ IsAwsError exc

theorem wrapped_of_raised {exc : PyError} (h : (∃ code, exc = .clientError code) ∨ exc = .botoCoreError) :
    Wrapped exc := by
  rcases h with h | h
  · exact .inl h
  · exact .inr (.inl h)

theorem raisesOnly_queueUrl (settings : WorkerSettings) :
    (queueUrl settings).RaisesOnly WorkerRequest.Raises Wrapped := by
  refine (Prog.RaisesOnly.perform fun _ h => h.elim).bind fun resolved => ?_
  cases resolved with
  | true => trivial
  | false =>
      have hcaught : (workerRequest .getQueueUrl).RaisesOnly WorkerRequest.Raises Wrapped :=
        Prog.RaisesOnly.perform fun _ h => wrapped_of_raised h
      refine (hcaught.tryCatch fun exc _ => ?_).bind fun _ => Prog.RaisesOnly.perform fun _ h => h.elim
      cases exc with
      | clientError code =>
          simp only
          split
          · exact Prog.RaisesOnly.perform fun _ h => wrapped_of_raised h
          · exact .inr (.inr ⟨_, _, _, rfl⟩)
      | botoCoreError => exact .inr (.inr ⟨_, _, _, rfl⟩)
      | _ => assumption

theorem raisesOnly_wrap {p : WorkerM α} {operation : String} (hp : p.RaisesOnly WorkerRequest.Raises Wrapped) :
    (wrap settings operation p).RaisesOnly WorkerRequest.Raises IsAwsError := by
  refine hp.tryCatch fun exc hexc => ?_
  rcases hexc with ⟨code, rfl⟩ | rfl | ⟨service, operation', key, rfl⟩
  · exact ⟨_, _, _, rfl⟩
  · exact ⟨_, _, _, rfl⟩
  · exact ⟨_, _, _, rfl⟩

theorem raisesOnly_receiveMessages : (receiveMessages settings).RaisesOnly WorkerRequest.Raises IsAwsError := by
  apply raisesOnly_wrap
  exact (raisesOnly_queueUrl settings).bind fun _ => Prog.RaisesOnly.perform fun _ h => wrapped_of_raised h

theorem raisesOnly_deleteMessage (handle : ReceiptHandle) :
    (deleteMessage settings handle).RaisesOnly WorkerRequest.Raises IsAwsError := by
  apply raisesOnly_wrap
  exact (raisesOnly_queueUrl settings).bind fun _ => Prog.RaisesOnly.perform fun _ h => wrapped_of_raised h

theorem inner_queueUrl (settings : WorkerSettings) : (queueUrl settings).All WorkerRequest.Inner :=
  (resolving_queueUrl settings).imp fun o ho => by cases o <;> trivial

end SqsAdapter

/-! ## A transaction -/

namespace CallRepository

theorem raisesOnly_wrap {p : WorkerM α} {operation : String}
    (hp : p.RaisesOnly WorkerRequest.Raises (· = .sqlAlchemyError)) :
    (wrap operation p).RaisesOnly WorkerRequest.Raises IsDatabaseError := by
  refine hp.tryCatch fun exc hexc => ?_
  rw [hexc]
  exact ⟨_, rfl⟩

theorem raisesOnly_getByCallId (callId : String) :
    (getByCallId callId).RaisesOnly WorkerRequest.Raises IsDatabaseError := by
  apply raisesOnly_wrap
  exact Prog.RaisesOnly.perform fun _ h => h

theorem raisesOnly_insertFromMessage (message : CallMessage) (status : CallStatus) (receiveCount : Int) :
    (insertFromMessage message status receiveCount).RaisesOnly WorkerRequest.Raises IsDatabaseError := by
  refine Prog.RaisesOnly.bind ?_ fun _ => trivial
  apply raisesOnly_wrap
  exact Prog.RaisesOnly.perform fun _ h => h

theorem inner_wrap {p : WorkerM α} {operation : String} (hp : p.All WorkerRequest.Inner) :
    (wrap operation p).All WorkerRequest.Inner := by
  refine hp.tryCatch fun exc => ?_
  cases exc <;> trivial

theorem inner_getByCallId (callId : String) : (getByCallId callId).All WorkerRequest.Inner := by
  apply inner_wrap
  exact Prog.All.perform trivial

theorem inner_insertFromMessage (message : CallMessage) (status : CallStatus) (receiveCount : Int) :
    (insertFromMessage message status receiveCount).All WorkerRequest.Inner := by
  refine Prog.All.bind ?_ fun _ => trivial
  apply inner_wrap
  exact Prog.All.perform trivial

end CallRepository

theorem StateManager.raisesOnly_markDone (call : Call) {E : PyError → Prop} :
    (markDone call).RaisesOnly WorkerRequest.Raises E := by
  have hassign : ∀ change, (workerRequest (.assign change)).RaisesOnly WorkerRequest.Raises E :=
    fun _ => Prog.RaisesOnly.perform fun _ h => h.elim
  have hrest : ∀ _ : Unit, (do
      workerRequest (.assign (.status .done))
      let time ← workerRequest .now
      workerRequest (.assign (.processedAt time)) : WorkerM Unit).RaisesOnly WorkerRequest.Raises E :=
    fun _ => (hassign _).bind fun _ => (Prog.RaisesOnly.perform fun _ h => h.elim).bind fun _ => hassign _
  unfold markDone transition
  dsimp only
  split
  · exact hrest ()
  · exact (Prog.RaisesOnly.perform fun _ h => h.elim).bind hrest

theorem StateManager.inner_markDone (call : Call) : (markDone call).All WorkerRequest.Inner := by
  unfold markDone transition
  dsimp only
  split
  · exact (Prog.All.perform trivial).bind fun _ => (Prog.All.perform trivial).bind fun _ => Prog.All.perform trivial
  · exact (Prog.All.perform trivial).bind fun _ => (Prog.All.perform trivial).bind fun _ =>
      (Prog.All.perform trivial).bind fun _ => Prog.All.perform trivial

theorem WorkerService.raisesOnly_save (message : CallMessage) (receiveCount : Int) :
    (save message receiveCount).RaisesOnly WorkerRequest.Raises IsDatabaseError := by
  refine (CallRepository.raisesOnly_getByCallId message.requestId).bind fun found => ?_
  cases found with
  | some existing =>
      refine (Prog.RaisesOnly.perform fun _ h => h.elim).bind fun _ => ?_
      split
      · exact StateManager.raisesOnly_markDone existing
      · trivial
  | none =>
      exact (CallRepository.raisesOnly_insertFromMessage message .processing receiveCount).bind fun call =>
        StateManager.raisesOnly_markDone call

theorem WorkerService.inner_save (message : CallMessage) (receiveCount : Int) :
    (save message receiveCount).All WorkerRequest.Inner := by
  refine (CallRepository.inner_getByCallId message.requestId).bind fun found => ?_
  cases found with
  | some existing =>
      refine (Prog.All.perform trivial).bind fun _ => ?_
      split
      · exact StateManager.inner_markDone existing
      · trivial
  | none =>
      exact (CallRepository.inner_insertFromMessage message .processing receiveCount).bind fun call =>
        StateManager.inner_markDone call

section Transaction

variable {h : WorkerHandler σ} {trace trace' : WorkerTrace}

/-- No message is deleted from the queue. -/
def Undeleted (trace : WorkerTrace) : Prop := ∀ handle r, ⟨.deleteMessage handle, r⟩ ∉ trace

theorem committed_append : Committed (trace ++ trace') ↔ Committed trace ∧ Committed trace' := by
  unfold Committed
  simp only [List.mem_append, not_or]
  constructor
  · intro hboth
    exact ⟨fun exc => ⟨(hboth exc).1.1, (hboth exc).2.1⟩, fun exc => ⟨(hboth exc).1.2, (hboth exc).2.2⟩⟩
  · rintro ⟨hleft, hright⟩ exc
    exact ⟨⟨(hleft exc).1, (hright exc).1⟩, (hleft exc).2, (hright exc).2⟩

theorem undeleted_append : Undeleted (trace ++ trace') ↔ Undeleted trace ∧ Undeleted trace' := by
  unfold Undeleted
  simp only [List.mem_append, not_or]
  constructor
  · intro hboth
    exact ⟨fun handle r => (hboth handle r).1, fun handle r => (hboth handle r).2⟩
  · rintro ⟨hleft, hright⟩ handle r
    exact ⟨hleft handle r, hright handle r⟩

theorem committed_of_inner {p : WorkerM α} (hp : p.All WorkerRequest.Inner) (s : σ) :
    Committed (Prog.trace h p s) ∧ Undeleted (Prog.trace h p s) :=
  ⟨fun _ => ⟨fun hmem => hp.trace _ hmem, fun hmem => hp.trace _ hmem⟩, fun _ _ hmem => hp.trace _ hmem⟩

theorem committed_commit {r : Except PyError Unit} : Committed [⟨.commit, r⟩] ↔ ∀ exc, r ≠ .error exc := by
  simp [Committed, eq_comm]

theorem committed_rollback {r : Except PyError Unit} : Committed [⟨.rollback, r⟩] ↔ ∀ exc, r ≠ .error exc := by
  simp [Committed, eq_comm]

theorem committed_nil : Committed [] := fun _ => ⟨List.not_mem_nil, List.not_mem_nil⟩

theorem undeleted_nil : Undeleted [] := fun _ _ => List.not_mem_nil

theorem undeleted_commit {r : Except PyError Unit} : Undeleted [⟨.commit, r⟩] := by
  simp [Undeleted]

theorem undeleted_rollback {r : Except PyError Unit} : Undeleted [⟨.rollback, r⟩] := by
  simp [Undeleted]

/-- The run deletes no message and ends with `E`, unless a commit or a rollback fails, of which it raises the
`SQLAlchemyError`. -/
structure Ends (h : WorkerHandler σ) (p : WorkerM α) (s : σ) (E : Except PyError α → Prop) : Prop where
  undeleted : Undeleted (Prog.trace h p s)
  ended : Committed (Prog.trace h p s) ∧ E (Prog.exec h p s).1 ∨
    ¬ Committed (Prog.trace h p s) ∧ (Prog.exec h p s).1 = .error .sqlAlchemyError

namespace Ends

variable {β : Type} {E : Except PyError α → Prop} {E' : Except PyError β → Prop} {s s' : σ}

theorem ret {a : α} (ha : E (.ok a)) : Ends h (.ret a) s E := ⟨undeleted_nil, .inl ⟨committed_nil, ha⟩⟩

theorem raise {exc : PyError} (hexc : E (.error exc)) : Ends h (.raise exc) s E :=
  ⟨undeleted_nil, .inl ⟨committed_nil, hexc⟩⟩

theorem mono {E' : Except PyError α → Prop} {p : WorkerM α} (hp : Ends h p s E) (hE : ∀ r, E r → E' r) :
    Ends h p s E' := by
  refine ⟨hp.undeleted, ?_⟩
  rcases hp.ended with ⟨hcommitted, hend⟩ | hlost
  · exact .inl ⟨hcommitted, hE _ hend⟩
  · exact .inr hlost

theorem of_inner {p : WorkerM α} (hp : p.All WorkerRequest.Inner) (hE : E (Prog.exec h p s).1) : Ends h p s E := by
  obtain ⟨hcommitted, hundeleted⟩ := committed_of_inner (h := h) hp s
  exact ⟨hundeleted, .inl ⟨hcommitted, hE⟩⟩

theorem perform {o : WorkerRequest} (hdoc : h.Documented) (hraises : ∀ exc, o.Raises exc → exc = .sqlAlchemyError)
    (hundeleted : ∀ r, Undeleted [⟨o, r⟩]) (hcommitted : ∀ r, Committed [⟨o, r⟩] ↔ ∀ exc, r ≠ .error exc) :
    Ends h (workerRequest o) s (fun r => ∀ exc, r ≠ .error exc) := by
  unfold workerRequest
  constructor
  · rw [Prog.trace_perform]
    exact hundeleted _
  · rw [Prog.trace_perform, Prog.exec_perform, hcommitted]
    cases hend : (h o s).1 with
    | ok a => exact .inl ⟨fun exc => by simp, fun exc => by simp⟩
    | error exc =>
        obtain rfl := hraises exc (hdoc o s exc hend)
        exact .inr ⟨fun hnot => hnot _ rfl, rfl⟩

/-- After a run that has kept its commits, the rest of it decides. -/
theorem of_rest {q r : WorkerM β} (hundeleted : Undeleted trace) (hcommitted : Committed trace)
    (htrace : Prog.trace h q s = trace ++ Prog.trace h r s')
    (hexec : (Prog.exec h q s).1 = (Prog.exec h r s').1) (hr : Ends h r s' E') : Ends h q s E' := by
  obtain ⟨hrest, hlast⟩ := hr
  constructor
  · rw [htrace]
    exact undeleted_append.mpr ⟨hundeleted, hrest⟩
  · rw [htrace, hexec, committed_append]
    rcases hlast with ⟨hkept, hend⟩ | ⟨hlost, hend⟩
    · exact .inl ⟨⟨hcommitted, hkept⟩, hend⟩
    · exact .inr ⟨fun hboth => hlost hboth.2, hend⟩

theorem bind {p : WorkerM α} {f : α → WorkerM β} (hp : Ends h p s E) (hf : ∀ a s', E (.ok a) → Ends h (f a) s' E')
    (hE : ∀ exc, E (.error exc) → E' (.error exc)) : Ends h (p >>= f) s E' := by
  obtain ⟨hundeleted, hends⟩ := hp
  have htrace := Prog.trace_bind (h := h) p f s
  have hexec := Prog.exec_bind (h := h) p f s
  rcases hrun : Prog.exec h p s with ⟨exc | a, s'⟩ <;> rw [hrun] at hends htrace hexec
  · rw [Prog.traceAfter, List.append_nil] at htrace
    refine ⟨by rwa [htrace], ?_⟩
    rw [htrace, hexec]
    rcases hends with ⟨hcommitted, hend⟩ | ⟨hlost, hend⟩
    · exact .inl ⟨hcommitted, hE exc hend⟩
    · cases hend
      exact .inr ⟨hlost, rfl⟩
  · rcases hends with ⟨hcommitted, ha⟩ | ⟨-, hend⟩
    · exact of_rest hundeleted hcommitted htrace (congrArg Prod.fst hexec) (hf a s' ha)
    · cases hend

/-- A handler has to raise the `SQLAlchemyError` again. -/
theorem tryCatch {p : WorkerM α} {g : PyError → WorkerM α} {E' : Except PyError α → Prop} (hp : Ends h p s E)
    (hok : ∀ a, E (.ok a) → E' (.ok a)) (hg : ∀ exc s', E (.error exc) → Ends h (g exc) s' E')
    (hagain : ∀ s', Ends h (g .sqlAlchemyError) s' (· = .error .sqlAlchemyError)) : Ends h (p.tryCatch g) s E' := by
  obtain ⟨hundeleted, hends⟩ := hp
  have htrace := Prog.trace_tryCatch (h := h) p g s
  have hexec := Prog.exec_tryCatch (h := h) p g s
  rcases hrun : Prog.exec h p s with ⟨exc | a, s'⟩ <;> rw [hrun] at hends htrace hexec
  · rcases hends with ⟨hcommitted, hend⟩ | ⟨hlost, hend⟩
    · exact of_rest hundeleted hcommitted htrace (congrArg Prod.fst hexec) (hg exc s' hend)
    · cases hend
      obtain ⟨hrest, hlast⟩ := hagain s'
      simp only [Prog.traceCaught] at htrace hexec
      refine ⟨by rw [htrace]; exact undeleted_append.mpr ⟨hundeleted, hrest⟩, .inr ?_⟩
      rw [htrace, hexec, committed_append]
      exact ⟨fun hboth => hlost hboth.1, hlast.elim And.right And.right⟩
  · rw [Prog.traceCaught, List.append_nil] at htrace
    refine ⟨by rwa [htrace], ?_⟩
    rw [htrace, hexec]
    rcases hends with ⟨hcommitted, ha⟩ | ⟨-, hend⟩
    · exact .inl ⟨hcommitted, hok a ha⟩
    · cases hend

end Ends

theorem commit_ends (hdoc : h.Documented) (s : σ) : Ends h (workerRequest .commit) s (fun r => ∀ exc, r ≠ .error exc) :=
  Ends.perform hdoc (fun _ hexc => hexc) (fun _ => undeleted_commit) fun _ => committed_commit

theorem rollback_ends (hdoc : h.Documented) (exc : PyError) (s : σ) :
    Ends h (do workerRequest .rollback; throw exc : WorkerM Unit) s (· = .error exc) := by
  have hrollback : Ends h (workerRequest .rollback) s (fun r => ∀ exc, r ≠ .error exc) :=
    Ends.perform hdoc (fun _ hexc => hexc) (fun _ => undeleted_rollback) fun _ => committed_rollback
  exact hrollback.bind (fun _ _ _ => Ends.raise rfl) fun exc hnot => absurd rfl (hnot exc)

/-- A transaction ends with an `SQLAlchemyError` if its commit or its rollback fails, and only then. -/
theorem sessionScope_ends (hdoc : h.Documented) {p : WorkerM Unit} (hp : p.All WorkerRequest.Inner)
    (hraises : p.RaisesOnly WorkerRequest.Raises IsDatabaseError) (s : σ) :
    Ends h (sessionScope p) s (fun r => ∀ exc, r = .error exc → IsDatabaseError exc) := by
  have hrun : Ends h p s (fun r => ∀ exc, r = .error exc → IsDatabaseError exc) := by
    refine Ends.of_inner hp fun exc herror => ?_
    exact hraises.exec hdoc (Prod.ext herror rfl)
  have hcommit : Ends h (do let a ← p; workerRequest .commit; return a) s
      (fun r => ∀ exc, r = .error exc → IsDatabaseError exc) := by
    refine hrun.bind (fun _ s' _ => ?_) fun exc hexc exc' herror => hexc exc' herror
    exact (commit_ends hdoc s').bind (fun _ _ _ => Ends.ret fun exc herror => by cases herror)
      fun exc hnot => absurd rfl (hnot exc)
  refine hcommit.tryCatch (fun _ hok => hok) (fun exc s' hexc => ?_) fun s' => rollback_ends hdoc _ s'
  exact (rollback_ends hdoc exc s').mono fun r hr exc' herror => hexc exc' (hr.symm.trans herror)

theorem caught_ends (hdoc : h.Documented) {p : WorkerM Unit} (hp : p.All WorkerRequest.Inner)
    (hraises : p.RaisesOnly WorkerRequest.Raises IsDatabaseError) {g : PyError → WorkerM Bool}
    (hcaught : ∀ operation, g (.databaseError operation) = .ret false)
    (hthrown : g .sqlAlchemyError = .raise .sqlAlchemyError) (s : σ) :
    Ends h (tryCatch (do sessionScope p; return true) g) s (fun r => ∀ exc, r ≠ .error exc) := by
  have hsaved : Ends h (do sessionScope p; return true) s (fun r => ∀ exc, r = .error exc → IsDatabaseError exc) := by
    refine (sessionScope_ends hdoc hp hraises s).bind (fun _ _ _ => Ends.ret fun exc herror => by cases herror) ?_
    intro exc hexc exc' herror
    cases herror
    exact hexc exc rfl
  refine hsaved.tryCatch (fun _ _ => by simp) (fun exc s' hexc => ?_) fun s' => ?_
  · obtain ⟨operation, rfl⟩ := hexc exc rfl
    rw [hcaught]
    exact Ends.ret fun exc => by simp
  · rw [hthrown]
    exact Ends.raise rfl

/-! ## A message -/

/-- A call of `delete_message` raises an `AwsError`, or has deleted the message. -/
theorem deleteMessage_ends (settings : WorkerSettings) (hdoc : h.Documented) (handle : ReceiptHandle) (s : σ) :
    Committed (Prog.trace h (SqsAdapter.deleteMessage settings handle) s) ∧
      ((Prog.exec h (SqsAdapter.deleteMessage settings handle) s).1 = .ok () ∧
          ⟨.deleteMessage handle, .ok ()⟩ ∈ Prog.trace h (SqsAdapter.deleteMessage settings handle) s ∨
        (∃ exc, IsAwsError exc ∧ (Prog.exec h (SqsAdapter.deleteMessage settings handle) s).1 = .error exc) ∧
          ∀ handle', ⟨.deleteMessage handle', .ok ()⟩ ∉ Prog.trace h (SqsAdapter.deleteMessage settings handle) s) := by
  obtain ⟨hcommitted, hundeleted⟩ := committed_of_inner (h := h) (SqsAdapter.inner_queueUrl settings) s
  unfold SqsAdapter.deleteMessage SqsAdapter.wrap
  rw [Prog.tryCatch_eq, Prog.trace_tryCatch, Prog.exec_tryCatch, Prog.trace_bind, Prog.exec_bind]
  rcases hqueue : Prog.exec h (SqsAdapter.queueUrl settings) s with ⟨exc | _, s₁⟩
  · have hwrapped := (SqsAdapter.raisesOnly_queueUrl settings).exec hdoc hqueue
    have hundeleted' := fun handle' => hundeleted handle' (.ok ())
    rcases hwrapped with ⟨code, rfl⟩ | rfl | ⟨service, operation, key, rfl⟩ <;>
    · simp only [Prog.traceAfter, Prog.traceCaught, Prog.throw_eq, Prog.trace_raise, List.append_nil]
      exact ⟨hcommitted, .inr ⟨⟨_, ⟨_, _, _, rfl⟩, rfl⟩, hundeleted'⟩⟩
  · simp only [Prog.traceAfter, workerRequest, Prog.trace_perform, Prog.exec_perform]
    rcases hdelete : h (.deleteMessage handle) s₁ with ⟨exc | _, s₂⟩
    · have hraised : (∃ code, exc = .clientError code) ∨ exc = .botoCoreError :=
        hdoc (.deleteMessage handle) s₁ exc (by rw [hdelete])
      have hsingle : Committed [⟨.deleteMessage handle, .error exc⟩] := by simp [Committed]
      have hnot : ∀ handle', (⟨.deleteMessage handle', .ok ()⟩ : (o : WorkerRequest) × Except PyError o.Answer) ∉
          Prog.trace h (SqsAdapter.queueUrl settings) s ++ [⟨.deleteMessage handle, .error exc⟩] := by
        intro handle' hmem
        rcases List.mem_append.mp hmem with hmem | hmem
        · exact hundeleted _ _ hmem
        · simp at hmem
      rcases hraised with ⟨code, rfl⟩ | rfl <;>
      · simp only [Prog.traceCaught, Prog.throw_eq, Prog.trace_raise, List.append_nil]
        exact ⟨committed_append.mpr ⟨hcommitted, hsingle⟩, .inr ⟨⟨_, ⟨_, _, _, rfl⟩, rfl⟩, hnot⟩⟩
    · have hsingle : Committed [⟨.deleteMessage handle, .ok ()⟩] := by simp [Committed]
      simp only [Prog.traceCaught, List.append_nil]
      exact ⟨committed_append.mpr ⟨hcommitted, hsingle⟩,
        .inl ⟨trivial, List.mem_append.mpr (.inr List.mem_cons_self)⟩⟩

/-- The latency of a message that has been deleted. -/
def observe (message : CallMessage) : WorkerM Bool := do
  let time ← workerRequest .now
  let _ ← Prog.ofExcept (message.timestamp.before time)
  return true

theorem observe_ends (hdoc : h.Documented) (message : CallMessage) (s : σ) :
    Committed (Prog.trace h (observe message) s) ∧ Undeleted (Prog.trace h (observe message) s) ∧
      ((∃ t, message.timestamp = .aware t) ∧ (Prog.exec h (observe message) s).1 = .ok true ∨
        (∀ t, message.timestamp ≠ .aware t) ∧ (Prog.exec h (observe message) s).1 = .error .typeError) := by
  have hinner : (observe message).All WorkerRequest.Inner :=
    (Prog.All.perform trivial).bind fun _ => (Prog.All.ofExcept _).bind fun _ => trivial
  obtain ⟨hcommitted, hundeleted⟩ := committed_of_inner (h := h) hinner s
  refine ⟨hcommitted, hundeleted, ?_⟩
  unfold observe workerRequest
  rw [Prog.exec_bind, Prog.exec_perform]
  rcases hnow : h .now s with ⟨exc | time, s₁⟩
  · exact (hdoc .now s exc (by rw [hnow])).elim
  · simp only [Prog.exec_bind, Prog.exec_ofExcept]
    cases hstamp : message.timestamp with
    | aware t => exact .inl ⟨⟨t, rfl⟩, rfl⟩
    | naive wall => exact .inr ⟨fun t => by simp, rfl⟩

theorem acknowledge_ends (settings : WorkerSettings) (hdoc : h.Documented) (handle : ReceiptHandle)
    (message : CallMessage) (s : σ) :
    let acknowledge := SqsAdapter.deleteMessage settings handle >>= fun _ => observe message
    Committed (Prog.trace h acknowledge s) ∧
      ((∀ exc, (Prog.exec h acknowledge s).1 = .error exc → IsAwsError exc) ↔
        ∀ handle', ⟨.deleteMessage handle', .ok ()⟩ ∈ Prog.trace h acknowledge s →
          ∃ t, message.timestamp = .aware t) := by
  intro acknowledge
  obtain ⟨hcommitted, hends⟩ := deleteMessage_ends settings hdoc handle s
  unfold acknowledge
  rw [Prog.trace_bind, Prog.exec_bind]
  rcases hrun : Prog.exec h (SqsAdapter.deleteMessage settings handle) s with ⟨exc | _, s₁⟩
  · rw [hrun] at hends
    rcases hends with ⟨hok, -⟩ | ⟨⟨exc', haws, herror⟩, hnot⟩
    · cases hok
    · cases herror
      simp only [Prog.traceAfter, List.append_nil]
      refine ⟨hcommitted, fun _ handle' hmem => absurd hmem (hnot handle'), ?_⟩
      rintro - exc' herror
      cases herror
      exact haws
  · rw [hrun] at hends
    obtain ⟨hkept, -, hlast⟩ := observe_ends hdoc message s₁
    simp only [Prog.traceAfter]
    refine ⟨committed_append.mpr ⟨hcommitted, hkept⟩, ?_⟩
    rcases hends with ⟨-, hdeleted⟩ | ⟨⟨exc', -, herror⟩, -⟩
    · rcases hlast with ⟨haware, hend⟩ | ⟨hnaive, hend⟩
      · rw [hend]
        exact ⟨fun _ _ _ => haware, fun _ exc herror => by cases herror⟩
      · rw [hend]
        constructor
        · intro haws
          obtain ⟨service, operation, key, hexc⟩ := haws _ rfl
          cases hexc
        · intro haware
          obtain ⟨t, ht⟩ := haware handle (List.mem_append.mpr (.inl hdeleted))
          exact absurd ht (hnaive t)
    · cases herror

theorem handlePoison_ends (settings : WorkerSettings) (hdoc : h.Documented) (msg : Delivery) (s : σ) :
    Committed (Prog.trace h (handlePoison settings msg) s) ∧
      ∀ exc, (Prog.exec h (handlePoison settings msg) s).1 = .error exc → IsAwsError exc := by
  unfold handlePoison
  split
  · obtain ⟨hcommitted, hends⟩ := deleteMessage_ends settings hdoc msg.receiptHandle s
    rw [Prog.trace_bind, Prog.exec_bind]
    rcases hrun : Prog.exec h (SqsAdapter.deleteMessage settings msg.receiptHandle) s with ⟨exc | _, s₁⟩
    · refine ⟨committed_append.mpr ⟨hcommitted, committed_nil⟩, fun exc' herror => ?_⟩
      cases herror
      exact (SqsAdapter.raisesOnly_deleteMessage msg.receiptHandle).exec hdoc hrun
    · exact ⟨committed_append.mpr ⟨hcommitted, committed_nil⟩, fun exc herror => by cases herror⟩
  · exact ⟨committed_nil, fun exc herror => by cases herror⟩

theorem saved_survives_iff (settings : WorkerSettings) (hdoc : h.Documented) {msg : Delivery} {message : CallMessage}
    (hbody : fromBody msg.body = some message) {caught : WorkerM Bool} {s : σ}
    (hcaught : Ends h caught s (fun r => ∀ exc, r ≠ .error exc)) :
    let p : WorkerM Bool := caught >>= fun saved =>
      if saved then SqsAdapter.deleteMessage settings msg.receiptHandle >>= fun _ => observe message
      else return false
    (∀ exc, (Prog.exec h p s).1 = .error exc → IsAwsError exc) ↔ Survivable fromBody msg (Prog.trace h p s) := by
  obtain ⟨hundeleted, hends⟩ := hcaught
  intro p
  unfold p
  rw [Prog.trace_bind, Prog.exec_bind]
  rcases hrun : Prog.exec h caught s with ⟨exc | saved, s₁⟩
  · rw [hrun] at hends
    rcases hends with ⟨-, hnot⟩ | ⟨hlost, herror⟩
    · exact absurd rfl (hnot exc)
    · cases herror
      simp only [Prog.traceAfter, List.append_nil]
      constructor
      · intro haws
        obtain ⟨service, operation, key, hexc⟩ := haws _ rfl
        cases hexc
      · intro hsurvivable
        exact absurd hsurvivable.committed hlost
  · rw [hrun] at hends
    rcases hends with ⟨hcommitted, -⟩ | ⟨-, herror⟩
    · cases saved with
      | false =>
          refine ⟨fun _ => ⟨committed_append.mpr ⟨hcommitted, committed_nil⟩, fun _ handle _ hmem => ?_⟩,
            fun _ exc herror => by cases herror⟩
          rcases List.mem_append.mp hmem with hmem | hmem
          · exact absurd hmem (hundeleted handle _)
          · cases hmem
      | true =>
          obtain ⟨hkept, hlast⟩ := acknowledge_ends settings hdoc msg.receiptHandle message s₁
          refine hlast.trans ⟨fun haware => ?_, fun hsurvivable handle hmem => ?_⟩
          · refine ⟨committed_append.mpr ⟨hcommitted, hkept⟩, fun message' handle hmessage hmem => ?_⟩
            obtain rfl := Option.some.inj (hbody.symm.trans hmessage)
            rcases List.mem_append.mp hmem with hmem | hmem
            · exact absurd hmem (hundeleted handle _)
            · exact haware handle hmem
          · exact hsurvivable.aware message handle hbody (List.mem_append.mpr (.inr hmem))
    · cases herror

theorem processMessage_survives_iff (fromBody : String → Option CallMessage) (settings : WorkerSettings)
    (hdoc : h.Documented) (msg : Delivery) (s : σ) :
    (∀ exc, (Prog.exec h (processMessage fromBody settings msg) s).1 = .error exc → IsAwsError exc) ↔
      Survivable fromBody msg (Prog.trace h (processMessage fromBody settings msg) s) := by
  unfold processMessage
  cases hbody : fromBody msg.body with
  | none =>
      obtain ⟨hcommitted, haws⟩ := handlePoison_ends settings hdoc msg s
      refine ⟨fun _ => ⟨hcommitted, fun message _ hmessage => ?_⟩, fun _ => haws⟩
      rw [hbody] at hmessage
      cases hmessage
  | some message =>
      have hinner := inner_save message msg.receiveCount
      have hraises := raisesOnly_save message msg.receiveCount
      refine saved_survives_iff settings hdoc hbody ?_
      refine caught_ends hdoc hinner hraises ?_ ?_ s
      · intro operation
        rfl
      · rfl

end Transaction

/-! ## A poll and the loop -/

theorem processed_survives_iff {h : WorkerHandler σ} (hdoc : h.Documented) (msgs : List Delivery) (n : Nat) (s : σ) :
    (∀ exc, (Prog.exec h (Prog.foldEach (fun processed msg => do
        if ← processMessage fromBody settings msg then return processed + 1
        else return processed) n msgs) s).1 = .error exc → IsAwsError exc) ↔
      ∀ x ∈ processed h fromBody settings msgs s,
        Survivable fromBody x.1 (Prog.trace h (processMessage fromBody settings x.1) x.2) := by
  induction msgs generalizing n s with
  | nil =>
      refine ⟨fun _ x hx => absurd hx List.not_mem_nil, fun _ exc herror => by cases herror⟩
  | cons msg msgs ih =>
      have hmsg := processMessage_survives_iff fromBody settings hdoc msg s
      unfold Prog.foldEach processed
      rw [Prog.exec_bind, Prog.exec_bind]
      rcases hrun : Prog.exec h (processMessage fromBody settings msg) s with ⟨exc | saved, s'⟩
      · rw [hrun] at hmsg
        simpa using hmsg
      · rw [hrun] at hmsg
        have hsurvivable := hmsg.mp fun exc herror => by cases herror
        simp only [List.forall_mem_cons, hsurvivable, true_and]
        cases saved with
        | false => exact ih n s'
        | true => exact ih (n + 1) s'

/-- A poll returns or raises an `AwsError` if and only if every message it processes is survivable. -/
theorem pollOnce_survives_iff {h : WorkerHandler σ} (hdoc : h.Documented) (s : σ) :
    (∀ exc, (Prog.exec h (pollOnce fromBody settings) s).1 = .error exc → IsAwsError exc) ↔
      SurvivablePoll h fromBody settings s := by
  unfold pollOnce SurvivablePoll
  rw [Prog.exec_bind]
  rcases hrun : Prog.exec h (SqsAdapter.receiveMessages settings) s with ⟨exc | msgs, s'⟩
  · constructor
    · rintro - msgs s₁ hmsgs
      cases hmsgs
    · rintro - exc' herror
      cases herror
      exact SqsAdapter.raisesOnly_receiveMessages.exec hdoc hrun
  · refine (processed_survives_iff hdoc msgs 0 s').trans ⟨fun hall msgs' s₁ hmsgs => ?_, fun hall => hall msgs s' rfl⟩
    cases hmsgs
    exact hall

section Loop

variable {h : LoopHandler σ}

theorem exec_worker (p : WorkerM α) (s : σ) :
    Prog.exec h (Prog.lift .worker (fun _ r => r) p) s = Prog.exec h.worker p s := by
  induction p generalizing s with
  | ret a => rfl
  | raise exc => rfl
  | act o k ih =>
      unfold Prog.lift Prog.exec
      rw [ih]
      unfold LoopHandler.worker
      cases (h (.worker o) s).1 <;> rfl

theorem touchHeartbeat_returns (hdoc : h.Documented) (s : σ) : (Prog.exec h touchHeartbeat s).1 = .ok () := by
  unfold touchHeartbeat loopRequest
  rw [Prog.tryCatch_eq, Prog.exec_tryCatch, Prog.exec_perform]
  rcases htouch : h .touch s with ⟨exc | _, s'⟩
  · obtain rfl : exc = .osError := hdoc .touch s exc (by rw [htouch])
    rfl
  · rfl

/-- A round ends the loop with what its poll raises, unless that is an `AwsError`. -/
theorem pollRound_returns_iff (fromBody : String → Option CallMessage) (settings : WorkerSettings)
    (hdoc : h.Documented) (s : σ) :
    (Prog.exec h (pollRound fromBody settings) s).1 = .ok () ↔ SurvivablePoll h.worker fromBody settings s := by
  rw [← pollOnce_survives_iff (h := h.worker) fun o s exc hexc => hdoc (.worker o) s exc hexc]
  unfold pollRound
  rw [Prog.tryCatch_eq, Prog.exec_tryCatch, Prog.exec_bind, exec_worker]
  rcases hrun : Prog.exec h.worker (pollOnce fromBody settings) s with ⟨exc | n, s₁⟩
  · constructor
    · intro hreturns exc' herror
      cases herror
      cases exc with
      | awsError service operation key => exact ⟨_, _, _, rfl⟩
      | _ => cases hreturns
    · intro haws
      obtain ⟨service, operation, key, rfl⟩ := haws exc rfl
      simp only [loopRequest, Prog.exec_perform]
      rcases hsleep : h (.sleep 5) s₁ with ⟨exc | _, s₂⟩
      · exact (hdoc (.sleep 5) s₁ exc (by rw [hsleep])).elim
      · rfl
  · refine ⟨fun _ exc herror => (by cases herror), fun _ => ?_⟩
    have htouch := touchHeartbeat_returns hdoc s₁
    rcases hrest : Prog.exec h touchHeartbeat s₁ with ⟨exc | _, s₂⟩
    · rw [hrest] at htouch
      cases htouch
    · simp only [hrest]

theorem all_pollRound {P : LoopRequest → Prop} (hworker : ∀ o, P (.worker o)) (htouch : P .touch)
    (hsleep : ∀ seconds, P (.sleep seconds)) : (pollRound fromBody settings).All P := by
  refine ((Prog.All.lift hworker _).bind fun _ => (Prog.All.perform htouch).tryCatch fun exc => ?_).tryCatch
    fun exc => ?_
  · cases exc <;> trivial
  · cases exc with
    | awsError service operation key => exact Prog.All.perform (hsleep 5)
    | _ => trivial

theorem keepsPolling_iff (hdoc : h.Documented) (n : Nat) (s : σ) :
    KeepsPolling h fromBody settings n s ↔
      ∀ s' ∈ polls h fromBody settings n s, SurvivablePoll h.worker fromBody settings s' := by
  induction n generalizing s with
  | zero => exact ⟨fun _ s' hs' => absurd hs' List.not_mem_nil, fun _ => .inl rfl⟩
  | succ n ih =>
      have hround := pollRound_returns_iff fromBody settings hdoc
      unfold KeepsPolling at ih ⊢
      unfold runForever polls loopRequest
      rw [Prog.exec_bind, Prog.trace_bind, Prog.exec_perform, Prog.trace_perform]
      rcases hrunning : h .isRunning s with ⟨exc | running, s₁⟩
      · exact (hdoc .isRunning s exc (by rw [hrunning])).elim
      · cases running with
        | false =>
            refine ⟨fun _ s' hs' => absurd hs' List.not_mem_nil, fun _ => .inr ⟨rfl, ?_⟩⟩
            exact List.mem_append.mpr (.inl List.mem_cons_self)
        | true =>
            simp only [↓reduceIte, Prog.traceAfter, Prog.exec_bind, Prog.trace_bind]
            rcases hrun : Prog.exec h (pollRound fromBody settings) s₁ with ⟨exc | _, s₂⟩
            · have hnot : ¬ SurvivablePoll h.worker fromBody settings s₁ := fun hsurvivable => by
                have hreturns := (hround s₁).mpr hsurvivable
                rw [hrun] at hreturns
                cases hreturns
              constructor
              · rintro (hlast | ⟨hlast, -⟩) <;> cases hlast
              · intro hall
                exact absurd (hall s₁ List.mem_cons_self) hnot
            · have hsurvivable := (hround s₁).mp (by rw [hrun])
              rw [List.forall_mem_cons, ← ih s₂]
              simp only [List.mem_append, hsurvivable, true_and]
              refine or_congr_right (and_congr_right fun _ => ⟨?_, fun hmem => .inr (.inr hmem)⟩)
              rintro (hmem | hmem | hmem)
              · simp at hmem
              · have hother := (all_pollRound (P := fun o => o ≠ .isRunning) (by simp) (by simp) (by simp)).trace _ hmem
                exact absurd rfl hother
              · exact hmem

end Loop

end Hailcast
