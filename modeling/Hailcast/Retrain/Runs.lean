import Hailcast.Lib.EventRun
import Hailcast.Retrain.Lemmas

/-!
# Runs of the trigger that may abort

A request that raises ends the run, and so does a kill of the process before the request. A write that takes
effect and then raises leaves what a fault at the next request leaves.
-/

namespace Hailcast

inductive RetrainEvent where
  | put (key : Str × Str) (attributes : DynamoItem)
  | run (env : RetrainEnv) (force yes : Bool)

/-- The faults of a run are numbered from its own first request. -/
def RetrainState.step (settings : RetrainTriggerSettings) (s : RetrainState) : RetrainEvent → RetrainState
  | .put key attributes => { s with table := s.table.put key attributes }
  | .run env force yes => (({ s with requests := 0 } : RetrainState).exec env (retrainMain settings force yes)).2

/-! ## The requests of a run that publishes -/

/-- None of these requests raises; the first of them has the number `n`. -/
def RetrainEnv.Passes (env : RetrainEnv) : Nat → List RetrainRequest → Prop
  | _, [] => True
  | n, o :: os => env.fault n o = none ∧ env.Passes (n + 1) os

def questions (yes : Bool) : List RetrainRequest := if yes then [] else [.isatty, .input]

def uploadRequests (settings : RetrainTriggerSettings) (yes : Bool) (base : Model) (usable : List DynamoItem) :
    List RetrainRequest :=
  .scanAll :: questions yes ++
    [.trainingFrame usable, .downloadFile (modelKey settings), .fit base usable, .dump (.continued base usable), .now,
      .uploadFile (modelKey settings) (.continued base usable)]

def updateRequests (usable : List DynamoItem) : List RetrainRequest :=
  usable.filterMap (fun item => item.key.map .updateItem)

/-- The requests after it: the metadata, and the mark of each record. -/
def markRequests (settings : RetrainTriggerSettings) (env : RetrainEnv) (base : Model) (usable : List DynamoItem) :
    List RetrainRequest :=
  .uploadJson (metadataKey settings)
      ⟨.continued (env.clock / 1000000), usable.length, (env.fit base usable).mae, (env.fit base usable).rmse⟩ ::
    updateRequests usable

/-- The run uploads the model that continues `base` on the records `usable`. -/
structure Publishes (settings : RetrainTriggerSettings) (env : RetrainEnv) (force yes : Bool) (s : RetrainState)
    (base : Model) (usable : List DynamoItem) : Prop where
  batch : ∃ untrained, filterUntrained s.table.items = .ok untrained ∧ usable = splitUsable untrained
  proceeds : ¬ StopsEarly env force yes s.table
  interactive : yes = true ∨ env.isatty = true
  stored : s.model = some base
  grows : (env.fit base usable).before < (env.fit base usable).after
  passes : env.Passes 0 (uploadRequests settings yes base usable)

/-- The run uploads a model, and a later request of it raises. -/
def AbortsAfterUpload (settings : RetrainTriggerSettings) (env : RetrainEnv) (force yes : Bool) (s : RetrainState) :
    Prop :=
  ∃ base usable, Publishes settings env force yes s base usable ∧
    ¬ env.Passes (uploadRequests settings yes base usable).length (markRequests settings env base usable)

theorem RetrainEnv.passes_append {env : RetrainEnv} {n : Nat} {os os' : List RetrainRequest} :
    env.Passes n (os ++ os') ↔ env.Passes n os ∧ env.Passes (n + os.length) os' := by
  induction os generalizing n with
  | nil => simp [Passes]
  | cons o os ih => simp [Passes, ih, and_assoc, Nat.add_comm os.length, Nat.add_assoc]

theorem RetrainEnv.passes_of_forall {env : RetrainEnv} {n : Nat} {os : List RetrainRequest}
    (h : ∀ n, ∀ o ∈ os, env.fault n o = none) : env.Passes n os := by
  induction os generalizing n with
  | nil => trivial
  | cons o os ih => exact ⟨h n o List.mem_cons_self, ih fun n o ho => h n o (List.mem_cons_of_mem _ ho)⟩

/-! ## The stages of a run -/

namespace RetrainState

variable {env : RetrainEnv} {settings : RetrainTriggerSettings} {s s' : RetrainState}

def after (s : RetrainState) (n : Nat) : RetrainState := { s with requests := n }

/-- Wherever the program ends, by returning or by raising, `R` holds. -/
def Ends {α : Type} (env : RetrainEnv) (p : RetrainM α) (R : RetrainState → Prop) (s : RetrainState) : Prop :=
  Prog.wp (handler env) p (fun _ => R) (fun _ => R) s

variable {α : Type} {R : RetrainState → Prop} {n : Nat}

theorem Ends.exec {p : RetrainM α} (h : Ends env p R s) : R (s.exec env p).2 := by
  unfold Ends Prog.wp at h
  unfold RetrainState.exec
  rcases he : Prog.exec (handler env) p s with ⟨e | a, s'⟩
  · rw [he] at h
    exact h
  · rw [he] at h
    exact h

/-- What is to hold after an answer: the rest of the program ends in `R`, or the exception is raised in it. -/
def Continues {β : Type} (env : RetrainEnv) (f : β → RetrainM α) (R : RetrainState → Prop) :
    Except PyError β × RetrainState → Prop
  | (.ok b, s) => Ends env (f b) R s
  | (.error _, s) => R s

theorem ends_request {o : RetrainRequest} {f : o.Answer → RetrainM α}
    (hraise : env.fault n o ≠ none → R (s.after (n + 1)))
    (hnext : env.fault n o = none → Continues env f R ((s.after (n + 1)).answer env o)) :
    Ends env (retrainRequest o >>= f) R (s.after n) := by
  unfold Ends
  rw [Prog.wp_bind, retrainRequest, Prog.wp_perform]
  cases hf : env.fault n o with
  | some exc =>
      have hanswer : handler env o (s.after n) = (.error exc, s.after (n + 1)) := by simp [handler, after, hf]
      rw [hanswer]
      exact hraise (by simp [hf])
  | none =>
      have hanswer : handler env o (s.after n) = (s.after (n + 1)).answer env o := by simp [handler, after, hf]
      have hnext := hnext hf
      rw [hanswer]
      rcases ha : (s.after (n + 1)).answer env o with ⟨a | a, s'⟩
      · rwa [ha] at hnext
      · rwa [ha] at hnext

theorem ends_quiet {o : RetrainRequest} {a : o.Answer} {f : o.Answer → RetrainM α}
    (ha : (s.after (n + 1)).answer env o = (.ok a, s.after (n + 1))) (hquiet : ∀ m, R (s.after m))
    (hnext : env.fault n o = none → Ends env (f a) R (s.after (n + 1))) :
    Ends env (retrainRequest o >>= f) R (s.after n) := by
  refine ends_request (fun _ => hquiet _) fun hf => ?_
  rw [ha]
  exact hnext hf

theorem ends_confirmed {yes : Bool} {f : Bool → RetrainM α} (hquiet : ∀ m, R (s.after m))
    (hnext : yes = true ∨ env.isatty = true → env.Passes n (questions yes) →
      Ends env (f (yes || answersYes env.answer)) R (s.after (n + (questions yes).length))) :
    Ends env (confirmed yes >>= f) R (s.after n) := by
  cases yes with
  | true => exact hnext (Or.inl rfl) trivial
  | false =>
      rw [confirmed, if_neg (by simp), Prog.bind_assoc]
      refine ends_quiet rfl hquiet fun htty => ?_
      cases hisatty : env.isatty with
      | false => exact hquiet _
      | true =>
          rw [if_pos rfl, Prog.bind_assoc]
          exact ends_quiet rfl hquiet fun hinput => hnext (Or.inr hisatty) ⟨htty, hinput, trivial⟩

theorem ends_markUsedAsTrained {items : List DynamoItem} (hkeys : ∀ item ∈ items, ∃ key, item.key = some key)
    (hdone : ∀ s', s'.table = s.table.markAll items → s'.uploads = s.uploads → R s')
    (habort : ¬ env.Passes n (updateRequests items) → ∀ s', R s') :
    Ends env (markUsedAsTrained items) R (s.after n) := by
  induction items generalizing s n with
  | nil => exact hdone _ rfl rfl
  | cons item items ih =>
      obtain ⟨key, hk⟩ := hkeys item (by simp)
      have hmark : markTrained item = retrainRequest (.updateItem key) := by simp [markTrained, hk]
      change Ends env (markTrained item >>= fun _ => markUsedAsTrained items) R (s.after n)
      rw [hmark]
      have hupdates : updateRequests (item :: items) = .updateItem key :: updateRequests items := by
        simp [updateRequests, hk]
      rw [hupdates] at habort
      refine ends_request (fun hf => habort (fun hpass => hf hpass.1) _) fun hf => ?_
      · refine ih (s := { s with table := s.table.update key "학습여부" (.n 1) }) (fun i hi => hkeys i (by simp [hi])) ?_ ?_
        · intro s' ht hu
          refine hdone s' ?_ hu
          rw [ht]
          simp [DynamoTable.markAll, hk]
        · exact fun hno => habort fun hpass => hno hpass.2

theorem ends_continueTrain {items : List DynamoItem} {f : Model × FitReport → RetrainM α}
    (hquiet : ∀ m, R (s.after m))
    (hnext : ∀ base, s.model = some base → (env.fit base items).before < (env.fit base items).after →
      env.Passes n [.trainingFrame items, .downloadFile (modelKey settings), .fit base items] →
      Ends env (f (.continued base items, env.fit base items)) R (s.after (n + 3))) :
    Ends env (continueTrain items settings >>= f) R (s.after n) := by
  rw [continueTrain, Prog.bind_assoc]
  refine ends_quiet rfl hquiet fun hframe => ?_
  rw [Prog.bind_assoc]
  refine ends_request (fun _ => hquiet _) fun hbase => ?_
  cases hm : s.model with
  | none =>
      have hmissing : (s.after (n + 2)).answer env (.downloadFile (modelKey settings)) =
          (.error (.awsError "s3" "download_file" (modelKey settings)), s.after (n + 2)) := by simp [answer, after, hm]
      rw [hmissing]
      exact hquiet _
  | some base =>
      have hmodel : (s.after (n + 2)).answer env (.downloadFile (modelKey settings)) =
          (.ok base, s.after (n + 2)) := by simp [answer, after, hm]
      rw [hmodel]
      simp only [Continues]
      rw [Prog.bind_assoc]
      refine ends_quiet rfl hquiet fun hfit => ?_
      split
      · exact hquiet _
      · rename_i hgrow
        exact hnext base hm (not_le.mp hgrow) ⟨hframe, hbase, hfit, trivial⟩

def published (s : RetrainState) (settings : RetrainTriggerSettings) (model : Model) : RetrainState :=
  { s with model := some model, uploads := (modelKey settings, model) :: s.uploads }

theorem ends_uploadContinuedModel (hup : settings.mlS3UploadEnabled = true) {model : Model} {report : FitReport}
    {count : Nat} {f : Unit → RetrainM α} (hquiet : ∀ m, R (s.after m))
    (hnext : env.Passes n [.dump model, .now, .uploadFile (modelKey settings) model] →
      (env.fault (n + 3) (.uploadJson (metadataKey settings)
          ⟨.continued (env.clock / 1000000), count, report.mae, report.rmse⟩) ≠ none →
        ∀ s', R s') ∧
      (env.fault (n + 3) (.uploadJson (metadataKey settings)
          ⟨.continued (env.clock / 1000000), count, report.mae, report.rmse⟩) = none →
        ∀ metadata, Ends env (f ()) R ({ s.published settings model with metadata := metadata }.after (n + 4)))) :
    Ends env (uploadContinuedModel model report settings count >>= f) R (s.after n) := by
  rw [uploadContinuedModel, Prog.bind_assoc]
  refine ends_quiet rfl hquiet fun hdump => ?_
  rw [if_pos hup, Prog.bind_assoc]
  refine ends_quiet rfl hquiet fun hnow => ?_
  rw [Prog.bind_assoc]
  refine ends_request (fun _ => hquiet _) fun hfile => ?_
  obtain ⟨hraise, hnext⟩ := hnext ⟨hdump, hnow, hfile, trivial⟩
  exact ends_request (s := s.published settings model) (fun hf => hraise hf _) fun hf => hnext hf _

end RetrainState

/-! ## What one run does -/

inductive RunResult (settings : RetrainTriggerSettings) (env : RetrainEnv) (force yes : Bool) (s s' : RetrainState) :
    Prop where
  | unpublished (htable : s'.table = s.table) (huploads : s'.uploads = s.uploads)
  | published (base : Model) (usable : List DynamoItem) (hpub : Publishes settings env force yes s base usable)
      (htable : s'.table = s.table.markAll usable)
      (huploads : s'.uploads = (modelKey settings, .continued base usable) :: s.uploads)
  | aborted (habort : AbortsAfterUpload settings env force yes s)

namespace RetrainState

variable {env : RetrainEnv} {settings : RetrainTriggerSettings} {s : RetrainState} {force yes : Bool}

theorem ends_retrain (hup : settings.mlS3UploadEnabled = true) {R : RetrainState → Prop} {n : Nat}
    {usable : List DynamoItem} (hkeys : ∀ item ∈ usable, ∃ key, item.key = some key) (hquiet : ∀ m, R (s.after m))
    (hnext : ∀ base, s.model = some base → (env.fit base usable).before < (env.fit base usable).after →
      env.Passes n [.trainingFrame usable, .downloadFile (modelKey settings), .fit base usable,
        .dump (.continued base usable), .now, .uploadFile (modelKey settings) (.continued base usable)] →
      (∀ s' : RetrainState, s'.table = s.table.markAll usable →
        s'.uploads = (modelKey settings, .continued base usable) :: s.uploads → R s') ∧
      (¬ env.Passes (n + 6) (markRequests settings env base usable) → ∀ s', R s')) :
    Ends env (retrain settings usable) R (s.after n) := by
  unfold retrain
  refine ends_continueTrain hquiet fun base hbase hgrow ⟨hframe, hdownload, hfit, _⟩ => ?_
  refine ends_uploadContinuedModel hup hquiet fun ⟨hdump, hnow, hfile, _⟩ => ?_
  obtain ⟨hdone, habort⟩ := hnext base hbase hgrow ⟨hframe, hdownload, hfit, hdump, hnow, hfile, trivial⟩
  refine ⟨fun hf => habort fun hpass => hf hpass.1, fun hf metadata => ?_⟩
  exact ends_markUsedAsTrained hkeys hdone fun hno => habort fun hpass => hno hpass.2

theorem run_result (hup : settings.mlS3UploadEnabled = true) (s : RetrainState) (env : RetrainEnv) (force yes : Bool) :
    RunResult settings env force yes s (s.step settings (.run env force yes)) := by
  have hquiet : ∀ m, RunResult settings env force yes s (s.after m) := fun _ => .unpublished rfl rfl
  refine Ends.exec (s := s.after 0) ?_
  unfold retrainMain
  refine ends_quiet rfl hquiet fun hscan => ?_
  change Ends env (Prog.ofExcept (filterUntrained s.table.items) >>= _) _ _
  refine Prog.wp_bind_ofExcept.mpr ⟨fun untrained huntrained => ?_, fun _ _ => hquiet 1⟩
  change Ends env _ _ (s.after 1)
  split
  · exact hquiet 1
  · rename_i hfew
    dsimp only
    split
    · exact hquiet 1
    · rename_i hempty
      refine ends_confirmed hquiet fun hinteractive hquestions => ?_
      cases hgo : yes || answersYes env.answer with
      | false => exact hquiet _
      | true =>
          have hproceeds : ¬ StopsEarly env force yes s.table := by
            rintro ⟨untrained', huntrained', hstop⟩
            obtain rfl : untrained = untrained' := Except.ok.inj (huntrained.symm.trans huntrained')
            rcases hstop with hstop | hstop | hstop
            · exact hfew hstop
            · exact hempty (List.isEmpty_iff.mpr hstop)
            · exact absurd (hgo.symm.trans hstop) (by decide)
          refine ends_retrain hup (fun item hi => ?_) hquiet fun base hbase hgrow hpass => ?_
          · obtain ⟨key, _, _, rfl⟩ := DynamoTable.mem_items.mp (mem_splitUsable huntrained hi).1
            exact ⟨key, DynamoTable.key_item key _⟩
          · have hpub : Publishes settings env force yes s base (splitUsable untrained) :=
              ⟨⟨untrained, huntrained, rfl⟩, hproceeds, hinteractive, hbase, hgrow,
                RetrainEnv.passes_append.mpr ⟨⟨hscan, hquestions⟩, by simpa [Nat.add_comm] using hpass⟩⟩
            have hlength : (uploadRequests settings yes base (splitUsable untrained)).length =
                0 + 1 + (questions yes).length + 6 := by
              simp [uploadRequests, Nat.add_comm]
              omega
            refine ⟨fun s' => .published base _ hpub, fun hno s' => .aborted ⟨base, _, hpub, ?_⟩⟩
            rw [hlength]
            exact hno

/-! ## Runs -/

/-- The writes of the accuracy log have distinct keys. -/
def NewKey (s : RetrainState) : RetrainEvent → Prop
  | .put key _ => s.table.get? key = none
  | .run _ _ _ => True

def LeavesUnmarked (settings : RetrainTriggerSettings) (s : RetrainState) : RetrainEvent → Prop
  | .put _ _ => False
  | .run env force yes => AbortsAfterUpload settings env force yes s

/-- No record is in the training sets of two uploaded models. -/
def UsedOnce (s : RetrainState) : Prop :=
  s.uploads.Pairwise (fun upload upload' =>
    ∀ record ∈ upload.2.trainingSet, ∀ record' ∈ upload'.2.trainingSet, record.key ≠ record'.key)

def Flagged (s : RetrainState) (record : DynamoItem) : Prop :=
  ∃ key attributes, record.key = some key ∧ s.table.get? key = some attributes ∧ trainedFlag attributes = .ok 1

/-- What an uploaded model was trained on is marked in the table. -/
structure Marked (s : RetrainState) : Prop where
  flagged : ∀ upload ∈ s.uploads, ∀ record ∈ upload.2.trainingSet, s.Flagged record
  once : s.UsedOnce

theorem Flagged.put {record : DynamoItem} (h : s.Flagged record) {key : Str × Str} (hkey : s.table.get? key = none)
    (attributes : DynamoItem) : { s with table := s.table.put key attributes }.Flagged record := by
  obtain ⟨other, attributes', hk, hget, hflag⟩ := h
  have hne : key ≠ other := by
    rintro rfl
    exact absurd (hkey.symm.trans hget) (by simp)
  refine ⟨other, attributes', hk, ?_, hflag⟩
  simp only [DynamoTable.put, Dict.get?_set, if_neg hne]
  exact hget

theorem flagged_of_used {s' : RetrainState} {usable : List DynamoItem} {record : DynamoItem} (hused : record ∈ usable)
    (hitem : record ∈ s.table.items) (htable : s'.table = s.table.markAll usable) : s'.Flagged record := by
  obtain ⟨key, attributes, hget, rfl⟩ := DynamoTable.mem_items.mp hitem
  obtain ⟨attributes', hget', hflag'⟩ :=
    s.table.markAll_flagged key (Or.inl ⟨_, hused, DynamoTable.key_item key attributes⟩)
  rw [← htable] at hget'
  exact ⟨key, attributes', rfl, hget', hflag'⟩

theorem Flagged.markAll {s' : RetrainState} {items : List DynamoItem} {record : DynamoItem} (h : s.Flagged record)
    (htable : s'.table = s.table.markAll items) : s'.Flagged record := by
  obtain ⟨key, attributes, hk, hget, hflag⟩ := h
  obtain ⟨attributes', hget', hflag'⟩ : ∃ attributes,
      (s.table.markAll items).get? key = some attributes ∧ trainedFlag attributes = .ok 1 :=
    s.table.markAll_flagged key (Or.inr ⟨attributes, hget, hflag⟩)
  rw [← htable] at hget'
  exact ⟨key, attributes', hk, hget', hflag'⟩

/-- A record that still carries the flag 0 is in none of the training sets. -/
theorem Marked.unused (h : s.Marked) {record : DynamoItem} (hitem : record ∈ s.table.items)
    (hzero : trainedFlag record = .ok 0) :
    ∀ upload ∈ s.uploads, ∀ record' ∈ upload.2.trainingSet, record.key ≠ record'.key := by
  intro upload hu record' hr' hk
  obtain ⟨key', attributes', hk', hget', hflag'⟩ := h.flagged upload hu record' hr'
  obtain ⟨key, attributes, hget, rfl⟩ := DynamoTable.mem_items.mp hitem
  obtain rfl : key = key' := Option.some.inj (hk.trans hk')
  obtain rfl : attributes = attributes' := Option.some.inj (hget.symm.trans hget')
  exact absurd (hzero.symm.trans hflag') (by decide)

theorem Marked.step (hup : settings.mlS3UploadEnabled = true) (h : s.Marked) {e : RetrainEvent} (hkey : s.NewKey e)
    (hmark : ¬ s.LeavesUnmarked settings e) : (s.step settings e).Marked := by
  cases e with
  | put key attributes =>
      exact ⟨fun upload hu record hr => (h.flagged upload hu record hr).put hkey attributes, h.once⟩
  | run env force yes =>
      generalize s.step settings (.run env force yes) = s', run_result hup s env force yes = hres
      cases hres with
      | aborted habort => exact absurd habort hmark
      | unpublished htable huploads =>
          refine ⟨?_, ?_⟩
          · unfold Flagged
            rw [htable, huploads]
            exact h.flagged
          · unfold UsedOnce
            rw [huploads]
            exact h.once
      | published base usable hpub htable huploads =>
          obtain ⟨⟨untrained, huntrained, rfl⟩, _⟩ := hpub
          have hin := fun item hi => (mem_splitUsable huntrained hi : item ∈ s.table.items ∧ trainedFlag item = .ok 0)
          refine ⟨?_, ?_⟩
          · rw [huploads]
            intro upload hu record hr
            rcases List.mem_cons.mp hu with rfl | hu
            · exact flagged_of_used hr (hin record hr).1 htable
            · exact (h.flagged upload hu record hr).markAll htable
          · unfold UsedOnce
            rw [huploads]
            refine List.pairwise_cons.mpr ⟨fun upload hu record hr => ?_, h.once⟩
            exact h.unused (hin record hr).1 (hin record hr).2 upload hu

end RetrainState

end Hailcast
