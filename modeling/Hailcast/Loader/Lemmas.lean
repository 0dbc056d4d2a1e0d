import Hailcast.Loader.System

/-!
# Where a loaded model comes from
-/

namespace Hailcast

open Concurrent

variable {ι κ : Type}

/-! ## The invariant -/

namespace ModelState

/-- The metadata belongs to a model, with which its version is in the list of the uploads. -/
def Belongs (s : ModelState ι κ) (object : MetadataObject) : Prop :=
  ∃ model, s.sent[object.source]? = some model ∧ ⟨object.body.version, model⟩ ∈ s.uploads

structure Inv (s : ModelState ι κ) : Prop where
  models : ∀ key object, s.models key = some object → s.sent[object.source]? = some object.model
  metadata : ∀ key object, s.metadata key = some object → s.Belongs object
  files : ∀ path model, s.files path = some model → ⟨path.version, model⟩ ∈ s.uploads
  cached : ∀ i model, (s.fields i).model = some model →
    ∃ metadata, (s.fields i).metadata = some metadata ∧ ⟨metadata.version, model⟩ ∈ s.uploads
  delivered : ∀ pair ∈ s.delivered, ∃ model metadata, pair = (some model, some metadata) ∧
    ⟨metadata.version, model⟩ ∈ s.uploads
  unique : ∀ upload ∈ s.uploads, ∀ upload' ∈ s.uploads, upload.version = upload'.version →
    upload.model = upload'.model

def Onward (s s' : ModelState ι κ) : Prop :=
  (∀ (n : Nat) (model : Model), s.sent[n]? = some model → s'.sent[n]? = some model) ∧
    ∀ upload ∈ s.uploads, upload ∈ s'.uploads

/-- The part of the state that only this thread changes. -/
def Own (t : ModelThread ι κ) (s s' : ModelState ι κ) : Prop :=
  match t with
  | .loader i => s'.fields i = s.fields i ∧ s'.found i = s.found i
  | .trainer k => s'.pending k = s.pending k

def Rely (t : ModelThread ι κ) (s s' : ModelState ι κ) : Prop := s.Onward s' ∧ s.Own t s'

theorem Onward.refl (s : ModelState ι κ) : s.Onward s := ⟨fun _ _ h => h, fun _ h => h⟩

theorem Onward.trans {s s' s'' : ModelState ι κ} (h : s.Onward s') (h' : s'.Onward s'') : s.Onward s'' :=
  ⟨fun n model hn => h'.1 n model (h.1 n model hn), fun upload hu => h'.2 upload (h.2 upload hu)⟩

theorem Own.refl (t : ModelThread ι κ) (s : ModelState ι κ) : s.Own t s := by
  cases t with
  | loader i => exact ⟨rfl, rfl⟩
  | trainer k => rfl

theorem Own.trans {t : ModelThread ι κ} {s s' s'' : ModelState ι κ} (h : s.Own t s') (h' : s'.Own t s'') :
    s.Own t s'' := by
  cases t with
  | loader i => exact ⟨h'.1.trans h.1, h'.2.trans h.2⟩
  | trainer k => exact Eq.trans h' h

theorem rely_refl (t : ModelThread ι κ) (s : ModelState ι κ) : s.Rely t s := ⟨.refl s, .refl t s⟩

theorem rely_trans (t : ModelThread ι κ) (s s' s'' : ModelState ι κ) (h : s.Rely t s') (h' : s'.Rely t s'') :
    s.Rely t s'' := ⟨h.1.trans h'.1, h.2.trans h'.2⟩

variable {s s' : ModelState ι κ}

theorem Belongs.mono {object : MetadataObject} (h : s.Belongs object) (hon : s.Onward s') : s'.Belongs object := by
  obtain ⟨model, hsent, hupload⟩ := h
  exact ⟨model, hon.1 _ _ hsent, hon.2 _ hupload⟩

/-! ## The effects -/

theorem onward_putModel [DecidableEq κ] (s : ModelState ι κ) (k : κ) (key : String) (model : Model) :
    s.Onward (s.putModel k key model) := by
  refine ⟨fun n model' hn => ?_, fun _ h => h⟩
  obtain ⟨hlt, _⟩ := List.getElem?_eq_some_iff.mp hn
  simpa [putModel, List.getElem?_append_left hlt] using hn

theorem Inv.putModel [DecidableEq κ] (h : s.Inv) (k : κ) (key : String) (model : Model) :
    (s.putModel k key model).Inv := by
  have hon := onward_putModel s k key model
  refine { h with models := fun key' object hobject => ?_, metadata := fun key' object hobject => ?_ }
  · simp only [ModelState.putModel, Function.update_apply] at hobject
    split at hobject
    · obtain rfl := Option.some.inj hobject
      simp [ModelState.putModel]
    · exact hon.1 _ _ (h.models key' object hobject)
  · exact (h.metadata key' object hobject).mono hon

theorem onward_putMetadata (s : ModelState ι κ) (k : κ) (key : String) (body : StoredMetadata) :
    s.Onward (s.putMetadata k key body) := by
  refine ⟨fun _ _ h => h, fun upload hu => ?_⟩
  simp [putMetadata, hu]

/-- The metadata of a run comes after its model, with a new version. -/
theorem Inv.putMetadata (h : s.Inv) {k : κ} {model : Model} (hsent : s.sent[s.pending k]? = some model) (key : String)
    {body : StoredMetadata} (hfresh : ∀ upload ∈ s.uploads, upload.version ≠ body.version) :
    (s.putMetadata k key body).Inv := by
  have hon := onward_putMetadata s k key body
  have huploads : (s.putMetadata k key body).uploads = s.uploads ++ [⟨body.version, model⟩] := by
    simp [ModelState.putMetadata, hsent]
  refine {
    models := h.models
    metadata := fun key' object hobject => ?_
    files := fun path model' hfile => hon.2 _ (h.files path model' hfile)
    cached := fun i model' hmodel => ?_
    delivered := fun pair hpair => ?_
    unique := fun upload hu upload' hu' hversion => ?_ }
  · simp only [ModelState.putMetadata, Function.update_apply] at hobject
    split at hobject
    · obtain rfl := Option.some.inj hobject
      exact ⟨model, hsent, by rw [huploads]; simp⟩
    · exact (h.metadata key' object hobject).mono hon
  · obtain ⟨metadata, hmetadata, hmem⟩ := h.cached i model' hmodel
    exact ⟨metadata, hmetadata, hon.2 _ hmem⟩
  · obtain ⟨model', metadata, hpair, hmem⟩ := h.delivered pair hpair
    exact ⟨model', metadata, hpair, hon.2 _ hmem⟩
  · rw [huploads, List.mem_append, List.mem_singleton] at hu hu'
    rcases hu with hu | rfl <;> rcases hu' with hu' | rfl
    · exact h.unique upload hu upload' hu' hversion
    · exact absurd hversion (hfresh upload hu)
    · exact absurd hversion.symm (hfresh upload' hu')
    · rfl

theorem Inv.putFile (h : s.Inv) {path : LocalPath} {model : Model} (hmem : ⟨path.version, model⟩ ∈ s.uploads) :
    Inv { s with files := Function.update s.files path (some model) } := by
  refine { h with files := fun path' model' hfile => ?_ }
  simp only [Function.update_apply] at hfile
  split at hfile
  · rename_i hpath
    obtain rfl := Option.some.inj hfile
    rw [hpath]
    exact hmem
  · exact h.files path' model' hfile

theorem Inv.setFields [DecidableEq ι] (h : s.Inv) (i : ι) {version : ModelVersion} {model : Model}
    {metadata : StoredMetadata} (hmem : ⟨metadata.version, model⟩ ∈ s.uploads) :
    Inv { s with fields := Function.update s.fields i ⟨some version, some model, some metadata⟩ } := by
  refine { h with cached := fun j model' hmodel => ?_ }
  simp only [Function.update_apply] at hmodel ⊢
  split at hmodel
  · obtain rfl := Option.some.inj hmodel
    rename_i hj
    exact ⟨metadata, by simp [hj], hmem⟩
  · rename_i hj
    simpa [hj] using h.cached j model' hmodel

theorem Inv.deliver (h : s.Inv) {model : Model} {metadata : StoredMetadata}
    (hmem : ⟨metadata.version, model⟩ ∈ s.uploads) :
    Inv { s with delivered := s.delivered ++ [(some model, some metadata)] } := by
  refine { h with delivered := fun pair hpair => ?_ }
  rcases List.mem_append.mp hpair with hpair | hpair
  · exact h.delivered pair hpair
  · exact ⟨model, metadata, List.mem_singleton.mp hpair, hmem⟩

theorem Inv.find [DecidableEq ι] (h : s.Inv) (i : ι) (object : Option MetadataObject) :
    Inv { s with found := Function.update s.found i object } := { h with }

end ModelState

/-- A call to the outside raises, with or without its effect, or has it. -/
theorem ModelState.reply_cases {α : Type} {c : ModelChoice} {a : α} {s s' s'' : ModelState ι κ} {r : Except PyError α}
    (h : reply c a s s' = some (r, s'')) : (s'' = s ∨ s'' = s') ∧ ∀ b, r = .ok b → b = a ∧ s'' = s' := by
  unfold reply at h
  split at h
  · obtain ⟨rfl, rfl⟩ := Prod.mk.inj (Option.some.inj h)
    refine ⟨?_, fun b hb => by cases hb⟩
    split
    · exact Or.inr rfl
    · exact Or.inl rfl
  · obtain ⟨rfl, rfl⟩ := Prod.mk.inj (Option.some.inj h)
    exact ⟨Or.inr rfl, fun b hb => ⟨(Except.ok.inj hb).symm, rfl⟩⟩

/-! ## What stays -/

namespace ModelState

def Stable (t : ModelThread ι κ) (J : ModelState ι κ → Prop) : Prop := ∀ s s', J s → s.Rely t s' → J s'

theorem stable_true (t : ModelThread ι κ) : Stable t (fun _ => True) := fun _ _ _ _ => trivial

def Sent (k : κ) (s : ModelState ι κ) : Prop := ∃ model, s.sent[s.pending k]? = some model

theorem stable_sent (k : κ) : Stable (.trainer k : ModelThread ι κ) (Sent k) := by
  rintro s s' ⟨model, hsent⟩ ⟨hon, hown⟩
  refine ⟨model, ?_⟩
  rw [show s'.pending k = s.pending k from hown]
  exact hon.1 _ _ hsent

def Found (i : ι) (metadata : StoredMetadata) (s : ModelState ι κ) : Prop :=
  ∃ object, s.found i = some object ∧ object.body = metadata ∧ s.Belongs object

theorem stable_found (i : ι) (metadata : StoredMetadata) :
    Stable (.loader i : ModelThread ι κ) (Found i metadata) := by
  rintro s s' ⟨object, hfound, hbody, hbelongs⟩ ⟨hon, hown⟩
  exact ⟨object, hown.2.trans hfound, hbody, hbelongs.mono hon⟩

def Loaded (i : ι) (s : ModelState ι κ) : Prop :=
  ∃ model metadata, (s.fields i).model = some model ∧ (s.fields i).metadata = some metadata ∧
    ⟨metadata.version, model⟩ ∈ s.uploads

theorem stable_loaded (i : ι) : Stable (.loader i : ModelThread ι κ) (Loaded i) := by
  rintro s s' ⟨model, metadata, hmodel, hmetadata, hmem⟩ ⟨hon, hown⟩
  refine ⟨model, metadata, ?_, ?_, hon.2 _ hmem⟩ <;> rwa [hown.1]

/-- The pair is of one upload. -/
def Paired (pair : Option Model × Option StoredMetadata) (s : ModelState ι κ) : Prop :=
  ∃ model metadata, pair = (some model, some metadata) ∧ ⟨metadata.version, model⟩ ∈ s.uploads

theorem stable_paired (t : ModelThread ι κ) (pair : Option Model × Option StoredMetadata) :
    Stable t (Paired pair) := by
  rintro s s' ⟨model, metadata, hpair, hmem⟩ hr
  exact ⟨model, metadata, hpair, hr.1.2 _ hmem⟩

theorem own_of_eq {s s' : ModelState ι κ} (hfields : s'.fields = s.fields) (hfound : s'.found = s.found)
    (hpending : s'.pending = s.pending) (t : ModelThread ι κ) : s.Own t s' := by
  cases t with
  | loader i => exact ⟨congrFun hfields i, congrFun hfound i⟩
  | trainer k => exact congrFun hpending k

theorem own_putMetadata (k : κ) (key : String) (body : StoredMetadata) (s : ModelState ι κ) (t : ModelThread ι κ) :
    s.Own t (s.putMetadata k key body) := own_of_eq rfl rfl rfl t

theorem own_putModel [DecidableEq κ] {k : κ} (key : String) (model : Model) (s : ModelState ι κ)
    {t : ModelThread ι κ} (ht : t ≠ .trainer k) : s.Own t (s.putModel k key model) := by
  cases t with
  | loader i => exact ⟨rfl, rfl⟩
  | trainer k' =>
      have hk : k' ≠ k := fun h => ht (by rw [h])
      exact Function.update_of_ne hk _ _

theorem own_find [DecidableEq ι] (i : ι) (object : Option MetadataObject) (s : ModelState ι κ) {t : ModelThread ι κ}
    (ht : t ≠ .loader i) : s.Own t { s with found := Function.update s.found i object } := by
  cases t with
  | loader j => exact ⟨rfl, Function.update_of_ne (fun h => ht (by rw [h])) _ _⟩
  | trainer k => rfl

end ModelState

/-! ## The system -/

variable [DecidableEq ι] [DecidableEq κ]

/-- The loaders, each with its prefix and its directory, and the training runs. A thread that has been aborted is one
that makes no more steps. -/
def modelSystem (ι κ : Type) [DecidableEq ι] [DecidableEq κ] (modelPrefix cacheDir : ι → String)
    (jobs : κ → TrainJob) :
    System (ModelThread ι κ) ModelRequest ModelRequest.Answer ModelChoice Empty (ModelState ι κ) PyError where
  answer := ModelState.answer
  allow t o _ s := s.undisturbed t o = true
  inv := ModelState.Inv
  rely := ModelState.Rely
  rely_refl := ModelState.rely_refl
  rely_trans := ModelState.rely_trans
  body
    | .loader i => do
        let (model, metadata) ← loadLatest (modelPrefix i) (cacheDir i)
        modelRequest (.deliver model metadata)
    | .trainer k => (jobs k).upload
  crashes := false
  reset _ _ s := s
  environment _ s := s
  done _ _ := True

variable {modelPrefix cacheDir : ι → String} {jobs : κ → TrainJob} {t : ModelThread ι κ}

/-- From `s` on the program keeps the protocol and ends in `Q`. -/
abbrev ModelState.Runs {α : Type} (modelPrefix cacheDir : ι → String) (jobs : κ → TrainJob) (t : ModelThread ι κ)
    (Q : α → ModelState ι κ → Prop) (p : ModelM α) (s : ModelState ι κ) : Prop :=
  Safe (modelSystem ι κ modelPrefix cacheDir jobs).toProtocol t Q (fun _ _ => True) p s

theorem ModelState.runs_request {o : ModelRequest} {J : ModelState ι κ → Prop} {Q : o.Answer → ModelState ι κ → Prop}
    (hJ : Stable t J) (hQ : ∀ a, Stable t (Q a))
    (h : ∀ s c r s', s.Inv → J s → s.undisturbed t o = true → s.answer t o c = some (r, s') →
      s'.Inv ∧ s.Onward s' ∧ (∀ t', t' ≠ t → s.Own t' s') ∧ ∀ a, r = .ok a → Q a s')
    {s : ModelState ι κ} (hs : J s) : Runs modelPrefix cacheDir jobs t Q (modelRequest o) s := by
  refine Safe.perform fun s₁ hr hi c r s₂ hallow ha => ?_
  obtain ⟨hinv, hon, hown, hanswer⟩ := h s₁ c r s₂ hi (hJ s s₁ hs hr) hallow ha
  refine ⟨hinv, fun t' ht' => ⟨hon, hown t' ht'⟩, fun s₃ hr₃ _ => ?_⟩
  cases r with
  | ok a => exact hQ a s₂ s₃ (hanswer a rfl) hr₃
  | error e => trivial

namespace ModelState

/-- A call that raises without effect wherever it finds nothing, and elsewhere answers `a` and leaves `s'`. -/
theorem runs_lookup {o : ModelRequest} {J : ModelState ι κ → Prop} {Q : o.Answer → ModelState ι κ → Prop}
    (hJ : Stable t J) (hQ : ∀ a, Stable t (Q a))
    (h : ∀ s, s.Inv → J s → s.undisturbed t o = true →
      (∃ exc, ∀ c, s.answer t o c = some (.error exc, s)) ∨
        ∃ a s', (∀ c, s.answer t o c = reply c a s s') ∧ s'.Inv ∧ s.Onward s' ∧ (∀ t', t' ≠ t → s.Own t' s') ∧ Q a s')
    {s : ModelState ι κ} (hs : J s) : Runs modelPrefix cacheDir jobs t Q (modelRequest o) s := by
  refine runs_request hJ hQ (fun s₁ c r s₂ hi hj hu ha => ?_) hs
  rcases h s₁ hi hj hu with ⟨exc, hmissing⟩ | ⟨a, s', hreply, hinv, hon, hown, hq⟩
  · rw [hmissing c] at ha
    obtain ⟨rfl, rfl⟩ := Prod.mk.inj (Option.some.inj ha)
    exact ⟨hi, .refl _, fun t' _ => .refl t' _, fun b hb => by cases hb⟩
  · obtain ⟨hstate, hok⟩ := reply_cases ((hreply c).symm.trans ha)
    have hanswer : ∀ b, r = .ok b → Q b s₂ := by
      intro b hb
      obtain ⟨rfl, rfl⟩ := hok b hb
      exact hq
    rcases hstate with rfl | rfl
    · exact ⟨hi, .refl _, fun t' _ => .refl t' _, hanswer⟩
    · exact ⟨hinv, hon, hown, hanswer⟩

theorem runs_reply {o : ModelRequest} {J : ModelState ι κ → Prop} {Q : o.Answer → ModelState ι κ → Prop}
    {a : o.Answer} {f : ModelState ι κ → ModelState ι κ} (ho : ∀ c s, s.answer t o c = reply c a s (f s))
    (hJ : Stable t J) (hQ : ∀ a, Stable t (Q a))
    (h : ∀ s, s.Inv → J s → s.undisturbed t o = true →
      (f s).Inv ∧ s.Onward (f s) ∧ (∀ t', t' ≠ t → s.Own t' (f s)) ∧ Q a (f s))
    {s : ModelState ι κ} (hs : J s) : Runs modelPrefix cacheDir jobs t Q (modelRequest o) s :=
  runs_lookup hJ hQ (fun s hi hj hu => Or.inr ⟨a, f s, fun c => ho c s, h s hi hj hu⟩) hs

theorem runs_quiet {o : ModelRequest} {J : ModelState ι κ → Prop} {a : o.Answer}
    (ho : ∀ c (s : ModelState ι κ), s.answer t o c = reply c a s s) (hJ : Stable t J) {s : ModelState ι κ} (hs : J s) :
    Runs modelPrefix cacheDir jobs t (fun _ => J) (modelRequest o) s :=
  runs_reply ho hJ (fun _ => hJ) (fun s hi hj _ => ⟨hi, .refl s, fun t' _ => .refl t' s, hj⟩) hs

/-! ## Uploads -/

theorem runs_uploadFile {k : κ} (key : String) (model : Model) (s : ModelState ι κ) :
    Runs modelPrefix cacheDir jobs (.trainer k) (fun _ => Sent k) (modelRequest (.retrain (.uploadFile key model)))
      s := by
  refine runs_reply (a := ()) (f := fun s => s.putModel k key model) (fun _ _ => rfl) (stable_true _)
    (fun _ => stable_sent k) (fun s hi _ _ => ?_) trivial
  refine ⟨hi.putModel k key model, onward_putModel s k key model, fun t' ht => own_putModel key model s ht, model, ?_⟩
  simp [putModel]

theorem runs_putMetadata {k : κ} {o : ModelRequest} {a : o.Answer} (key : String) (body : StoredMetadata)
    (ho : ∀ c (s : ModelState ι κ), s.answer (.trainer k) o c = reply c a s (s.putMetadata k key body))
    (hnew : ∀ s : ModelState ι κ, s.undisturbed (.trainer k) o = true →
      ∀ upload ∈ s.uploads, upload.version ≠ body.version)
    {s : ModelState ι κ} (hs : s.Sent k) :
    Runs modelPrefix cacheDir jobs (.trainer k) (fun _ _ => True) (modelRequest o) s := by
  refine runs_reply ho (stable_sent k) (fun _ => stable_true _) (fun s hi hsent hu => ?_) hs
  obtain ⟨model, hsent⟩ := hsent
  exact ⟨hi.putMetadata hsent key (hnew s hu), onward_putMetadata s k key body,
    fun t' _ => own_putMetadata k key body s t', trivial⟩

theorem runs_uploadTrainJson {k : κ} (key : String) (body : TrainMetadata) {s : ModelState ι κ} (hs : s.Sent k) :
    Runs modelPrefix cacheDir jobs (.trainer k) (fun _ _ => True) (modelRequest (.uploadTrainJson key body)) s :=
  runs_putMetadata (a := ()) key (.trained body) (fun _ _ => rfl)
    (fun _ hu => by simpa [undisturbed, StoredMetadata.version] using hu) hs

theorem runs_uploadJson {k : κ} (key : String) (body : ModelMetadata) {s : ModelState ι κ} (hs : s.Sent k) :
    Runs modelPrefix cacheDir jobs (.trainer k) (fun _ _ => True) (modelRequest (.retrain (.uploadJson key body)))
      s :=
  runs_putMetadata (a := ()) key (.continued body) (fun _ _ => rfl)
    (fun _ hu => by simpa [undisturbed, StoredMetadata.version] using hu) hs

theorem runs_now {k : κ} (s : ModelState ι κ) :
    Runs modelPrefix cacheDir jobs (.trainer k) (fun _ _ => True) (modelRequest (.retrain .now)) s := by
  refine runs_request (stable_true _) (fun _ => stable_true _) (fun s c r s' hi _ _ ha => ?_) trivial
  obtain ⟨rfl, rfl⟩ := Prod.mk.inj (Option.some.inj ha)
  exact ⟨hi, .refl s, fun t' _ => .refl t' s, fun _ _ => trivial⟩

theorem runs_uploadToS3 {k : κ} (model : Model) (mae rmse : ℚ) (settings : MlTrainSettings) (s : ModelState ι κ) :
    Runs modelPrefix cacheDir jobs (.trainer k) (fun _ _ => True) (uploadToS3 model mae rmse settings) s := by
  unfold uploadToS3
  split
  · refine Safe.andThen (runs_now s) fun time s₁ _ _ => ?_
    refine Safe.andThen (runs_uploadFile _ model s₁) fun _ s₂ _ hsent => ?_
    exact runs_uploadTrainJson _ _ hsent
  · exact Safe.ret fun _ _ _ => trivial

theorem lift_request {α : Type} (o : RetrainRequest) (f : o.Answer → RetrainM α) :
    (retrainRequest o >>= f).lift ModelRequest.retrain (fun _ answer => answer) =
      modelRequest (.retrain o) >>= fun answer => (f answer).lift ModelRequest.retrain (fun _ answer => answer) := by
  unfold retrainRequest
  rw [Prog.lift_bind, Prog.lift_perform, Prog.bind_assoc]
  rfl

theorem runs_uploadContinuedModel {k : κ} (model : Model) (report : FitReport) (settings : RetrainTriggerSettings)
    (count : Nat) (s : ModelState ι κ) :
    Runs modelPrefix cacheDir jobs (.trainer k) (fun _ _ => True)
      ((uploadContinuedModel model report settings count).lift .retrain (fun _ answer => answer)) s := by
  rw [uploadContinuedModel, lift_request]
  refine Safe.andThen (runs_quiet (a := ()) (fun _ _ => rfl) (stable_true _) trivial) fun _ s₁ _ _ => ?_
  split
  · rw [lift_request]
    refine Safe.andThen (runs_now s₁) fun time s₂ _ _ => ?_
    rw [lift_request]
    refine Safe.andThen (runs_uploadFile _ model s₂) fun _ s₃ _ hsent => ?_
    rw [retrainRequest, Prog.lift_perform]
    exact Safe.andThen (runs_uploadJson _ _ hsent) fun _ _ _ _ => Safe.ret fun _ _ _ => trivial
  · exact Safe.ret fun _ _ _ => trivial

/-! ## Loading -/

theorem runs_downloadJson {i : ι} (key : String) (s : ModelState ι κ) :
    Runs modelPrefix cacheDir jobs (.loader i) (Found i) (modelRequest (.downloadJson key)) s := by
  refine runs_lookup (stable_true _) (stable_found i) (fun s hi _ _ => ?_) trivial
  cases hobject : s.metadata key with
  | none => exact Or.inl ⟨.awsError "s3" "get_object" key, fun c => by simp only [answer, hobject]⟩
  | some object =>
      refine Or.inr ⟨object.body, { s with found := Function.update s.found i (some object) }, fun c => ?_,
        hi.find i _, ⟨fun _ _ h => h, fun _ h => h⟩, fun t' ht => own_find i _ s ht, object, by simp, rfl,
        hi.metadata key object hobject⟩
      simp only [answer, hobject]

theorem runs_fields {i : ι} {J : ModelState ι κ → Prop} (hJ : Stable (.loader i) J) {s : ModelState ι κ} (hs : J s) :
    Runs modelPrefix cacheDir jobs (.loader i) (fun fields s => J s ∧ s.fields i = fields) (modelRequest .fields)
      s := by
  refine runs_request hJ (fun fields s s' h hr => ⟨hJ s s' h.1 hr, hr.2.1.trans h.2⟩) (fun s c r s' hi hj _ ha => ?_) hs
  obtain ⟨rfl, rfl⟩ := Prod.mk.inj (Option.some.inj ha)
  exact ⟨hi, .refl s, fun t' _ => .refl t' s, fun a hr => ⟨hj, Except.ok.inj hr⟩⟩

theorem runs_downloadFile {i : ι} {metadata : StoredMetadata} (key dir : String) {s : ModelState ι κ}
    (hs : s.Found i metadata) :
    Runs modelPrefix cacheDir jobs (.loader i) (fun _ => Found i metadata)
      (modelRequest (.downloadFile key ⟨dir, metadata.version⟩)) s := by
  refine runs_lookup (stable_found i metadata) (fun _ => stable_found i metadata) (fun s hi hfound hu => ?_) hs
  cases hobject : s.models key with
  | none => exact Or.inl ⟨.awsError "s3" "download_file" key, fun c => by simp only [answer, hobject]⟩
  | some object =>
      obtain ⟨found, hread, rfl, model, hsent, hmem⟩ := hfound
      have hsource : found.source = object.source := by
        simpa [undisturbed, hobject, hread] using hu
      -- the source is that of the metadata, so the model is
      have hmodel : object.model = model := by
        have hobject := hi.models key object hobject
        rw [← hsource, hsent] at hobject
        exact (Option.some.inj hobject).symm
      have hfile : ⟨found.body.version, object.model⟩ ∈ s.uploads := by rwa [hmodel]
      refine Or.inr ⟨(), { s with files := Function.update s.files ⟨dir, found.body.version⟩ (some object.model) },
        fun c => ?_, hi.putFile hfile, ⟨fun _ _ h => h, fun _ h => h⟩, fun t' _ => own_of_eq rfl rfl rfl t',
        found, hread, rfl, model, hsent, hmem⟩
      simp only [answer, hobject]

theorem runs_joblibLoad {i : ι} (path : LocalPath) (s : ModelState ι κ) :
    Runs modelPrefix cacheDir jobs (.loader i) (fun model (s : ModelState ι κ) => ⟨path.version, model⟩ ∈ s.uploads)
      (modelRequest (.joblibLoad path)) s := by
  have hstable : ∀ model, Stable (.loader i) (fun s : ModelState ι κ => ⟨path.version, model⟩ ∈ s.uploads) :=
    fun _ s s' h hr => hr.1.2 _ h
  refine runs_lookup (stable_true _) hstable (fun s hi _ _ => ?_) trivial
  cases hfile : s.files path with
  | none => exact Or.inl ⟨.osError, fun c => by simp only [answer, hfile]⟩
  | some model =>
      refine Or.inr ⟨model, s, fun c => ?_, hi, .refl s, fun t' _ => .refl t' s, hi.files path model hfile⟩
      simp only [answer, hfile]

theorem runs_setFields {i : ι} {version : ModelVersion} {model : Model} {metadata : StoredMetadata}
    {s : ModelState ι κ} (hs : ⟨metadata.version, model⟩ ∈ s.uploads) :
    Runs modelPrefix cacheDir jobs (.loader i) (fun _ => Loaded i)
      (modelRequest (.setFields ⟨some version, some model, some metadata⟩)) s := by
  refine runs_request (J := fun s => ⟨metadata.version, model⟩ ∈ s.uploads) (fun s s' h hr => hr.1.2 _ h)
    (fun _ => stable_loaded i) (fun s c r s' hi hmem _ ha => ?_) hs
  obtain ⟨rfl, rfl⟩ := Prod.mk.inj (Option.some.inj ha)
  refine ⟨hi.setFields i hmem, ⟨fun _ _ h => h, fun _ h => h⟩, ?_, fun _ _ => ⟨model, metadata, by simp, by simp, hmem⟩⟩
  rintro (j | k) ht
  · exact ⟨Function.update_of_ne (fun h => ht (by rw [h])) _ _, rfl⟩
  · rfl

theorem runs_loadLatest {i : ι} (modelPrefix' cacheDir' : String) (s : ModelState ι κ) :
    Runs modelPrefix cacheDir jobs (.loader i) Paired (loadLatest modelPrefix' cacheDir') s := by
  refine Safe.andThen (runs_downloadJson _ s) fun metadata s₁ _ hfound => ?_
  refine Safe.andThen (runs_fields (stable_found i metadata) hfound) fun self s₂ hi hself => ?_
  obtain ⟨hfound, hself⟩ := hself
  have hrest : ∀ s₃ : ModelState ι κ, s₃.Loaded i → Runs modelPrefix cacheDir jobs (.loader i) Paired
      (modelRequest .fields >>= fun self => .ret (self.model, self.metadata)) s₃ := by
    intro s₃ hloaded
    refine Safe.andThen (runs_fields (stable_loaded i) hloaded) fun self s₄ _ hself => ?_
    obtain ⟨⟨model, metadata, hmodel, hmetadata, hmem⟩, rfl⟩ := hself
    exact Safe.ret fun s₅ hr _ => ⟨model, metadata, by rw [hmodel, hmetadata], hr.1.2 _ hmem⟩
  simp only
  split
  · -- another version, or nothing in memory yet
    refine Safe.andThen (runs_quiet (a := ()) (fun _ _ => rfl) (stable_found i metadata) hfound) fun _ s₃ _ hfound => ?_
    refine Safe.andThen (runs_downloadFile _ cacheDir' hfound) fun _ s₄ _ _ => ?_
    refine Safe.andThen (runs_joblibLoad ⟨cacheDir', metadata.version⟩ s₄) fun model s₅ _ hmem => ?_
    exact Safe.andThen (runs_setFields hmem) fun _ s₆ _ hloaded => hrest s₆ hloaded
  · rename_i hcached
    cases hmodel : self.model with
    | none => simp [hmodel] at hcached
    | some model =>
        obtain ⟨metadata', hmetadata, hmem⟩ := hi.cached i model (by rw [hself, hmodel])
        exact hrest s₂ ⟨model, metadata', by rw [hself, hmodel], hmetadata, hmem⟩

theorem runs_deliver {i : ι} {pair : Option Model × Option StoredMetadata} {s : ModelState ι κ} (hs : s.Paired pair) :
    Runs modelPrefix cacheDir jobs (.loader i) (fun _ _ => True) (modelRequest (.deliver pair.1 pair.2)) s := by
  refine runs_request (stable_paired _ pair) (fun _ => stable_true _) (fun s c r s' hi hpaired _ ha => ?_) hs
  obtain ⟨rfl, rfl⟩ := Prod.mk.inj (Option.some.inj ha)
  obtain ⟨model, metadata, rfl, hmem⟩ := hpaired
  exact ⟨hi.deliver hmem, ⟨fun _ _ h => h, fun _ h => h⟩, fun t' _ => own_of_eq rfl rfl rfl t', fun _ _ => trivial⟩

end ModelState

theorem modelSystem_sound : (modelSystem ι κ modelPrefix cacheDir jobs).Sound where
  body _ t s _ _ := by
    cases t with
    | loader i =>
        exact Safe.andThen (ModelState.runs_loadLatest _ _ s) fun pair s' _ hpair => ModelState.runs_deliver hpair
    | trainer k =>
        change ModelState.Runs modelPrefix cacheDir jobs (.trainer k) (fun _ _ => True) (jobs k).upload s
        cases jobs k with
        | train model mae rmse settings => exact ModelState.runs_uploadToS3 model mae rmse settings s
        | retrain model report settings count =>
            exact ModelState.runs_uploadContinuedModel model report settings count s
  reset_inv _ _ _ hi := hi
  reset_rely _ _ j s _ _ := ModelState.rely_refl j s
  environment_inv e := e.elim
  environment_rely e := e.elim

end Hailcast
