import Hailcast.Store.FileStore

/-!
# What the store operations do to the bucket
-/

namespace Hailcast

variable {env : StoreEnv} {s s' : S3State} {key : String}

def S3State.exec {α : Type} (env : StoreEnv) (p : StoreM α) (s : S3State) : Except PyError α × S3State :=
  Prog.exec (S3State.handler env) p s

def StoreRequest.Quiet (o : StoreRequest) : Prop := ∀ key body, o ≠ .putObject key body

theorem S3State.handler_objects {o : StoreRequest} (ho : o.Quiet) (s : S3State) :
    (S3State.handler env o s).2.objects = s.objects := by
  unfold S3State.handler
  split
  · rfl
  · cases o with
    | putObject key body => exact absurd rfl (ho key body)
    | getObject key => simp only [S3State.answer]; split <;> rfl
    | _ => rfl

theorem S3State.exec_quiet {α : Type} (env : StoreEnv) {p : StoreM α} (hp : p.All StoreRequest.Quiet) (s : S3State) :
    (s.exec env p).2.objects = s.objects :=
  Prog.All.exec (I := fun t : S3State => t.objects = s.objects)
    (fun _ t ho ht => (S3State.handler_objects ho t).trans ht) hp rfl

/-- After an operation that writes no object only its answer is to be looked at. -/
theorem S3State.wp_bind_quiet {α β : Type} {p : StoreM α} {f : α → StoreM β} {P : β → S3State → Prop}
    {Q : PyError → S3State → Prop} (hp : p.All StoreRequest.Quiet)
    (hok : ∀ a s', s.exec env p = (.ok a, s') → s'.objects = s.objects → Prog.wp (S3State.handler env) (f a) P Q s')
    (herr : ∀ e s', s'.objects = s.objects → Q e s') : Prog.wp (S3State.handler env) (p >>= f) P Q s := by
  have hsame := S3State.exec_quiet env hp s
  apply (Prog.wp_bind _ _).mpr
  unfold S3State.exec at hok hsame
  unfold Prog.wp at hok ⊢
  split
  · rename_i a s' he
    rw [he] at hsame
    exact hok a s' he hsame
  · rename_i e s' he
    rw [he] at hsame
    exact herr e s' hsame

/-! ## Which operations write -/

namespace StoreRequest

theorem quiet_request {o : StoreRequest} (ho : o.Quiet) : (storeRequest o).All Quiet := Prog.All.perform ho

theorem quiet_wrap {α : Type} {operation key : String} {p : StoreM α} (hp : p.All Quiet) :
    (S3Adapter.wrap operation key p).All Quiet :=
  hp.tryCatch fun e => by cases e <;> trivial

theorem quiet_exists (key : String) : (S3Adapter.exists key).All Quiet :=
  ((quiet_request (by simp [Quiet])).bind fun _ => by trivial).tryCatch fun e => by cases e <;> trivial

theorem quiet_readText (key : String) : (FileStore.readText key).All Quiet := by
  refine (quiet_exists key).bind fun found => ?_
  cases found with
  | false => trivial
  | true => exact (quiet_wrap (quiet_request (by simp [Quiet]))).bind fun _ => trivial

theorem quiet_readJson (key : String) : (FileStore.readJson key).All Quiet := by
  refine (quiet_readText key).bind fun text => ?_
  cases text with
  | none => trivial
  | some text => exact (Prog.All.ofExcept _).bind fun _ => trivial

theorem quiet_listKeys (pfx : String) : (S3Adapter.listKeys pfx).All Quiet :=
  quiet_wrap (quiet_request (by simp [Quiet]))

theorem quiet_ensureBucket (autoCreate : Bool) : (S3Adapter.ensureBucket autoCreate).All Quiet := by
  unfold S3Adapter.ensureBucket
  cases autoCreate with
  | false => trivial
  | true =>
      refine (quiet_request (by simp [Quiet])).bind fun ensured => ?_
      cases ensured with
      | true => trivial
      | false =>
          refine ((quiet_request (by simp [Quiet])).tryCatch fun e => ?_).bind fun _ =>
            quiet_request (by simp [Quiet])
          cases e <;> first | trivial | exact quiet_request (by simp [Quiet])

end StoreRequest

/-! ## Reading and writing -/

namespace S3State

theorem exec_request (o : StoreRequest) : s.exec env (storeRequest o) = S3State.handler env o s :=
  Prog.exec_perform o s

/-- A HEAD of the object is answered by a `ClientError`. -/
def HeadRefused (env : StoreEnv) (key : String) : Prop :=
  ∃ code, env.fault (.headObject key) = some (.clientError code)

/-- An object counts as absent when it is, or when its HEAD is refused. -/
theorem exec_exists (env : StoreEnv) (key : String) (s : S3State) :
    s.exec env (S3Adapter.exists key) =
      match env.fault (.headObject key) with
      | some (.clientError _) => (.ok false, s)
      | some exc => (.error exc, s)
      | none => (.ok (s.objects.get? key).isSome, s) := by
  simp only [S3State.exec, S3Adapter.exists, storeRequest, Prog.perform, Prog.tryCatch_eq, Prog.act_bind,
    Prog.tryCatch, Prog.exec, handler]
  cases hf : env.fault (.headObject key) with
  | some exc => cases exc <;> rfl
  | none => cases hg : s.objects.get? key <;> simp [answer, hg, Prog.tryCatch]

theorem exec_downloadText {blob : Blob} (h : s.exec env (S3Adapter.downloadText key) = (.ok blob, s')) :
    s' = s ∧ s.objects.get? key = some blob := by
  simp only [S3State.exec, S3Adapter.downloadText, S3Adapter.wrap, storeRequest, Prog.perform, Prog.tryCatch_eq,
    Prog.tryCatch, Prog.exec, handler] at h
  cases hf : env.fault (.getObject key) with
  | some exc =>
      rw [hf] at h
      cases exc <;> cases (Prod.mk.inj h).1
  | none =>
      rw [hf] at h
      cases hg : s.objects.get? key with
      | none => simp [answer, hg, Prog.tryCatch] at h
      | some blob' => simpa [answer, hg, Prog.exec, Prog.tryCatch, and_comm, eq_comm] using h

/-- What `read_json` returns of an object, unless its HEAD is refused. -/
theorem exec_readJson {body : Option Json} (h : s.exec env (FileStore.readJson key) = (.ok body, s')) :
    s' = s ∧
      ((body = none ∧ (HeadRefused env key ∨ s.objects.get? key = none)) ∨
        ∃ blob value, s.objects.get? key = some blob ∧ blob.loads = .ok value ∧ body = some value) := by
  obtain ⟨text, s₁, htext, hbody⟩ := Prog.exec_bind_ok h
  obtain ⟨found, s₂, hfound, hdown⟩ := Prog.exec_bind_ok htext
  have hexists := (exec_exists env key s).symm.trans hfound
  cases found with
  | false =>
      obtain ⟨ht, rfl⟩ := Prod.mk.inj hdown
      obtain rfl := Except.ok.inj ht
      obtain ⟨hb, rfl⟩ := Prod.mk.inj hbody
      obtain rfl := Except.ok.inj hb
      split at hexists
      · rename_i code hf
        exact ⟨(Prod.mk.inj hexists).2.symm, Or.inl ⟨rfl, Or.inl ⟨code, hf⟩⟩⟩
      · cases (Prod.mk.inj hexists).1
      · obtain ⟨hsome, rfl⟩ := Prod.mk.inj hexists
        refine ⟨rfl, Or.inl ⟨rfl, Or.inr ?_⟩⟩
        simpa using Except.ok.inj hsome
  | true =>
      have hs₂ : s₂ = s := by
        split at hexists
        · cases (Prod.mk.inj hexists).1
        · cases (Prod.mk.inj hexists).1
        · exact (Prod.mk.inj hexists).2.symm
      obtain ⟨blob, s₃, hblob, hsome⟩ := Prog.exec_bind_ok hdown
      obtain ⟨hs₃, hget⟩ := exec_downloadText hblob
      obtain ⟨ht, hs₁⟩ := Prod.mk.inj hsome
      obtain rfl := Except.ok.inj ht
      obtain ⟨value, s₄, hvalue, hret⟩ := Prog.exec_bind_ok hbody
      obtain ⟨hloads, hs₄⟩ := Prod.mk.inj ((Prog.exec_ofExcept _ _).symm.trans hvalue)
      obtain ⟨hb, hs'⟩ := Prod.mk.inj hret
      obtain rfl := Except.ok.inj hb
      refine ⟨?_, Or.inr ⟨blob, value, hs₂ ▸ hget, hloads, rfl⟩⟩
      rw [← hs', ← hs₄, ← hs₁, hs₃, hs₂]

theorem wp_wrap {α : Type} {operation key : String} {p : StoreM α} {P : α → S3State → Prop} {Q : S3State → Prop}
    (h : Prog.wp (handler env) p P (fun _ => Q) s) :
    Prog.wp (handler env) (S3Adapter.wrap operation key p) P (fun _ => Q) s := by
  apply (Prog.wp_tryCatch _ _).mpr
  apply h.mono (fun _ _ hp => hp)
  intro exc s' hq
  cases exc <;> exact hq

theorem wp_writeJson (env : StoreEnv) (autoCreate : Bool) (key : String) (data : Json) (s : S3State) :
    Prog.wp (handler env) (FileStore.writeJson autoCreate key data)
      (fun _ s' => s'.objects = s.objects.set key (.json data)) (fun _ s' => s'.objects = s.objects) s := by
  apply wp_wrap
  apply wp_bind_quiet (StoreRequest.quiet_ensureBucket autoCreate) _ (fun _ _ h => h)
  intro _ s₁ _ h₁
  apply (Prog.wp_perform _).mpr
  unfold handler
  cases env.fault (.putObject key (.json data)) with
  | some exc => exact h₁
  | none => exact congrArg (fun objects => objects.set key (.json data)) h₁

end S3State

end Hailcast
