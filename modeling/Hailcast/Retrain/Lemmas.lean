import Hailcast.Retrain.Trigger

/-!
# Runs of the trigger that complete
-/

namespace Hailcast

variable {env : RetrainEnv} {settings : RetrainTriggerSettings} {s s' : RetrainState}

def RetrainState.exec {α : Type} (env : RetrainEnv) (p : RetrainM α) (s : RetrainState) :
    Except PyError α × RetrainState := Prog.exec (RetrainState.handler env) p s

/-- Nothing but the number of requests has changed. -/
def RetrainState.Unchanged (s s' : RetrainState) : Prop :=
  s'.table = s.table ∧ s'.model = s.model ∧ s'.uploads = s.uploads

theorem RetrainState.Unchanged.trans {s'' : RetrainState} (h : s.Unchanged s') (h' : s'.Unchanged s'') :
    s.Unchanged s'' :=
  ⟨h'.1.trans h.1, h'.2.1.trans h.2.1, h'.2.2.trans h.2.2⟩

/-! ## The stages -/

namespace RetrainState

theorem exec_request_ok {o : RetrainRequest} {a : o.Answer} (h : s.exec env (retrainRequest o) = (.ok a, s')) :
    ({ s with requests := s.requests + 1 } : RetrainState).answer env o = (.ok a, s') := by
  unfold RetrainState.exec retrainRequest at h
  rw [Prog.exec_perform] at h
  unfold handler at h
  simp only at h
  split at h
  · cases h
  · exact h

theorem exec_bind_ok {α β : Type} {p : RetrainM α} {f : α → RetrainM β} {b : β}
    (h : s.exec env (p >>= f) = (.ok b, s')) :
    ∃ a s₁, s.exec env p = (.ok a, s₁) ∧ s₁.exec env (f a) = (.ok b, s') := Prog.exec_bind_ok h

theorem exec_request_unchanged {o : RetrainRequest} {a : o.Answer} (hu : ∀ key model, o ≠ .uploadFile key model)
    (hm : ∀ key, o ≠ .updateItem key) (h : s.exec env (retrainRequest o) = (.ok a, s')) : s.Unchanged s' := by
  have h := exec_request_ok h
  cases o with
  | uploadFile key model => exact absurd rfl (hu key model)
  | updateItem key => exact absurd rfl (hm key)
  | downloadFile key =>
      simp only [answer] at h
      split at h
      · obtain rfl := (Prod.mk.inj h).2; exact ⟨rfl, rfl, rfl⟩
      · cases (Prod.mk.inj h).1
  | _ =>
      simp only [answer, Prod.mk.injEq] at h
      obtain rfl := h.2
      exact ⟨rfl, rfl, rfl⟩

theorem exec_scanAll {items : List DynamoItem} (h : s.exec env (retrainRequest .scanAll) = (.ok items, s')) :
    items = s.table.items ∧ s.Unchanged s' := by
  refine ⟨?_, exec_request_unchanged (by simp) (by simp) h⟩
  have h := exec_request_ok h
  simp only [answer, Prod.mk.injEq, Except.ok.injEq] at h
  exact h.1.symm

theorem exec_confirmed {yes b : Bool} (h : s.exec env (confirmed yes) = (.ok b, s')) :
    b = (yes || answersYes env.answer) ∧ s.Unchanged s' := by
  cases yes with
  | true =>
      obtain ⟨hb, rfl⟩ := Prod.mk.inj h
      exact ⟨(Except.ok.inj hb).symm, rfl, rfl, rfl⟩
  | false =>
      obtain ⟨tty, s₁, htty, h⟩ := exec_bind_ok h
      have h₁ : s.Unchanged s₁ := exec_request_unchanged (by simp) (by simp) htty
      cases tty with
      | false => cases (Prod.mk.inj h).1
      | true =>
          obtain ⟨text, s₂, htext, h⟩ := exec_bind_ok h
          have h₂ : s₁.Unchanged s₂ := exec_request_unchanged (by simp) (by simp) htext
          have hanswer := exec_request_ok htext
          simp only [answer, Prod.mk.injEq, Except.ok.injEq] at hanswer
          obtain ⟨hb, rfl⟩ := Prod.mk.inj h
          exact ⟨by rw [← Except.ok.inj hb, ← hanswer.1]; rfl, h₁.trans h₂⟩

/-- A training that returns has used its whole batch. -/
theorem exec_continueTrain {items : List DynamoItem} {model : Model} {report : FitReport}
    (h : s.exec env (continueTrain items settings) = (.ok (model, report), s')) :
    model.trainingSet = items ∧ s.Unchanged s' := by
  obtain ⟨_, s₁, hframe, h⟩ := exec_bind_ok h
  obtain ⟨base, s₂, hbase, h⟩ := exec_bind_ok h
  obtain ⟨fitted, s₃, hfit, h⟩ := exec_bind_ok h
  have h₁ : s.Unchanged s₁ := exec_request_unchanged (by simp) (by simp) hframe
  have h₂ : s₁.Unchanged s₂ := exec_request_unchanged (by simp) (by simp) hbase
  have h₃ : s₂.Unchanged s₃ := exec_request_unchanged (by simp) (by simp) hfit
  split at h
  · cases (Prod.mk.inj h).1
  · obtain ⟨hm, rfl⟩ := Prod.mk.inj h
    obtain ⟨rfl, rfl⟩ := Prod.mk.inj (Except.ok.inj hm)
    exact ⟨rfl, (h₁.trans h₂).trans h₃⟩

theorem exec_uploadContinuedModel {model : Model} {report : FitReport} {count : Nat} {u : Unit}
    (h : s.exec env (uploadContinuedModel model report settings count) = (.ok u, s')) :
    s'.table = s.table ∧
      s'.uploads = if settings.mlS3UploadEnabled then (modelKey settings, model) :: s.uploads else s.uploads := by
  obtain ⟨_, s₁, hdump, h⟩ := exec_bind_ok h
  have h₁ : s.Unchanged s₁ := exec_request_unchanged (by simp) (by simp) hdump
  split at h
  · rename_i hup
    obtain ⟨_, s₂, hnow, h⟩ := exec_bind_ok h
    obtain ⟨_, s₃, hfile, hjson⟩ := exec_bind_ok h
    have h₂ : s₁.Unchanged s₂ := exec_request_unchanged (by simp) (by simp) hnow
    have h₄ : s₃.Unchanged s' := exec_request_unchanged (by simp) (by simp) hjson
    have hfile := exec_request_ok hfile
    simp only [answer, Prod.mk.injEq] at hfile
    obtain rfl := hfile.2
    have h₁₂ := h₁.trans h₂
    refine ⟨h₄.1.trans h₁₂.1, ?_⟩
    rw [if_pos hup, h₄.2.2, ← h₁₂.2.2]
  · rename_i hup
    obtain rfl := (Prod.mk.inj h).2
    rw [if_neg hup]
    exact ⟨h₁.1, h₁.2.2⟩

end RetrainState

/-! ## Marking -/

def DynamoTable.markAll (table : DynamoTable) (items : List DynamoItem) : DynamoTable :=
  items.foldl (fun t item =>
    match item.key with
    | some key => t.update key "학습여부" (.n 1)
    | none => t) table

theorem RetrainState.exec_markUsedAsTrained {items : List DynamoItem} {u : Unit}
    (h : s.exec env (markUsedAsTrained items) = (.ok u, s')) :
    s'.table = s.table.markAll items ∧ s'.uploads = s.uploads := by
  induction items generalizing s with
  | nil =>
      obtain rfl := (Prod.mk.inj h).2
      exact ⟨rfl, rfl⟩
  | cons item items ih =>
      obtain ⟨_, s₁, hmark, h⟩ := exec_bind_ok h
      obtain ⟨ht, hu⟩ := ih h
      cases hk : item.key with
      | none => simp [markTrained, hk] at hmark; cases (Prod.mk.inj hmark).1
      | some key =>
          simp only [markTrained, hk] at hmark
          have hmark := exec_request_ok hmark
          simp only [answer, Prod.mk.injEq] at hmark
          obtain rfl := hmark.2
          exact ⟨by rw [ht]; simp [DynamoTable.markAll, hk], hu⟩

/-! ## A run that completes -/

/-- `main` ends before the training: too few records, none that can be used, or the answer is no. -/
def StopsEarly (env : RetrainEnv) (force yes : Bool) (table : DynamoTable) : Prop :=
  ∃ untrained, filterUntrained table.items = .ok untrained ∧
    ((untrained.length < minRecordsForTraining ∧ ¬ force) ∨ splitUsable untrained = [] ∨
      (yes || answersYes env.answer) = false)

inductive MainResult (env : RetrainEnv) (settings : RetrainTriggerSettings) (force yes : Bool)
    (s s' : RetrainState) : Prop where
  | stopped (hstop : StopsEarly env force yes s.table) (htable : s'.table = s.table)
      (huploads : s'.uploads = s.uploads)
  | trained (untrained : List DynamoItem) (model : Model) (hrun : ¬ StopsEarly env force yes s.table)
      (huntrained : filterUntrained s.table.items = .ok untrained) (husable : splitUsable untrained ≠ [])
      (hmodel : model.trainingSet = splitUsable untrained)
      (htable : s'.table = s.table.markAll (splitUsable untrained))
      (huploads : s'.uploads =
        if settings.mlS3UploadEnabled then (modelKey settings, model) :: s.uploads else s.uploads)

/-- The batch is trained on, published when uploads are enabled, and marked. -/
theorem RetrainState.exec_retrain {usable : List DynamoItem} {u : Unit}
    (h : s.exec env (retrain settings usable) = (.ok u, s')) :
    ∃ model : Model, model.trainingSet = usable ∧ s'.table = s.table.markAll usable ∧
      s'.uploads = if settings.mlS3UploadEnabled then (modelKey settings, model) :: s.uploads else s.uploads := by
  obtain ⟨⟨model, report⟩, s₁, htrain, h⟩ := exec_bind_ok h
  obtain ⟨hmodel, h₁⟩ := exec_continueTrain htrain
  obtain ⟨_, s₂, hupload, hmark⟩ := exec_bind_ok h
  obtain ⟨htable₂, huploads₂⟩ := exec_uploadContinuedModel hupload
  obtain ⟨htable, huploads⟩ := exec_markUsedAsTrained hmark
  refine ⟨model, hmodel, ?_, ?_⟩
  · rw [htable, htable₂, h₁.1]
  · rw [huploads, huploads₂, h₁.2.2]

theorem RetrainState.exec_retrainMain {force yes : Bool} {u : Unit}
    (h : s.exec env (retrainMain settings force yes) = (.ok u, s')) :
    MainResult env settings force yes s s' := by
  obtain ⟨items, s₁, hscan, h⟩ := exec_bind_ok h
  obtain ⟨rfl, h₁⟩ := exec_scanAll hscan
  obtain ⟨untrained, s₂, hfilter, h⟩ := exec_bind_ok h
  have hfilter : filterUntrained s.table.items = .ok untrained ∧ s₁ = s₂ :=
    Prod.mk.inj ((Prog.exec_ofExcept _ _).symm.trans hfilter)
  obtain ⟨huntrained, rfl⟩ := hfilter
  split at h
  · rename_i hfew
    obtain rfl := (Prod.mk.inj h).2
    exact .stopped ⟨untrained, huntrained, Or.inl hfew⟩ h₁.1 h₁.2.2
  · rename_i hfew
    simp only at h
    split at h
    · rename_i hempty
      obtain rfl := (Prod.mk.inj h).2
      exact .stopped ⟨untrained, huntrained, Or.inr (Or.inl (List.isEmpty_iff.mp hempty))⟩ h₁.1 h₁.2.2
    · rename_i hempty
      have husable : splitUsable untrained ≠ [] := fun he => hempty (List.isEmpty_iff.mpr he)
      obtain ⟨go, s₃, hconfirm, h⟩ := exec_bind_ok h
      obtain ⟨hgo, h₂⟩ := exec_confirmed hconfirm
      have h₁₂ := h₁.trans h₂
      cases go with
      | false =>
          obtain rfl := (Prod.mk.inj h).2
          exact .stopped ⟨untrained, huntrained, Or.inr (Or.inr hgo.symm)⟩ h₁₂.1 h₁₂.2.2
      | true =>
          have hrun : ¬ StopsEarly env force yes s.table := by
            rintro ⟨untrained', huntrained', hstop⟩
            obtain rfl : untrained = untrained' := Except.ok.inj (huntrained.symm.trans huntrained')
            rcases hstop with hstop | hstop | hstop
            · exact hfew hstop
            · exact husable hstop
            · exact absurd (hgo.trans hstop) (by decide)
          obtain ⟨model, hmodel, htable, huploads⟩ := exec_retrain h
          refine .trained untrained model hrun huntrained husable hmodel ?_ ?_
          · rw [htable, h₁₂.1]
          · rw [huploads, h₁₂.2.2]

/-! ## What is marked -/

theorem filterUntrained_eq_ok {items untrained : List DynamoItem} (h : filterUntrained items = .ok untrained) :
    untrained = items.filter (fun item => trainedFlag item = .ok 0) := by
  induction items generalizing untrained with
  | nil => exact (Except.ok.inj h).symm
  | cons item items ih =>
      obtain ⟨flag, hflag, h⟩ := bind_eq_ok h
      obtain ⟨rest, hrest, h⟩ := bind_eq_ok h
      obtain rfl := Except.ok.inj h
      by_cases hz : flag = 0
      · simp [hflag, hz, ih hrest]
      · simp [hflag, hz, ih hrest]

theorem mem_splitUsable {table : DynamoTable} {untrained : List DynamoItem}
    (h : filterUntrained table.items = .ok untrained) {record : DynamoItem} (hr : record ∈ splitUsable untrained) :
    record ∈ table.items ∧ trainedFlag record = .ok 0 := by
  rw [filterUntrained_eq_ok h] at hr
  simpa using List.mem_of_mem_filter hr

@[simp] theorem trainedFlag_item (key : Str × Str) (attributes : DynamoItem) :
    trainedFlag (DynamoTable.item key attributes) = trainedFlag attributes := rfl

theorem trainedFlag_marked (attributes : DynamoItem) :
    trainedFlag (attributes.setAttr "학습여부" (.n 1)) = .ok 1 := by
  rw [trainedFlag, DynamoItem.attr_setAttr, if_pos rfl]
  rfl

theorem DynamoTable.get?_markAll {items : List DynamoItem} {table : DynamoTable} {key : Str × Str}
    (h : ∀ item ∈ items, item.key ≠ some key) : (table.markAll items).get? key = table.get? key := by
  induction items generalizing table with
  | nil => rfl
  | cons item items ih =>
      have hrest := @ih (match item.key with
        | some key => table.update key "학습여부" (.n 1)
        | none => table) (fun i hi => h i (by simp [hi]))
      change (DynamoTable.markAll _ items).get? key = _
      rw [hrest]
      cases hk : item.key with
      | none => rfl
      | some other =>
          have hne : other ≠ key := fun he => h item (by simp) (he ▸ hk)
          simp only [DynamoTable.get?_update, if_neg hne]

theorem DynamoTable.markAll_flagged {items : List DynamoItem} (table : DynamoTable) (key : Str × Str)
    (h : (∃ item ∈ items, item.key = some key) ∨
      ∃ attributes, table.get? key = some attributes ∧ trainedFlag attributes = .ok 1) :
    ∃ attributes, (table.markAll items).get? key = some attributes ∧ trainedFlag attributes = .ok 1 := by
  induction items generalizing table with
  | nil =>
      rcases h with ⟨_, hi, _⟩ | h
      · cases hi
      · exact h
  | cons item items ih =>
      refine ih (match item.key with
        | some key => table.update key "학습여부" (.n 1)
        | none => table) ?_
      rcases h with ⟨item', hi, hk⟩ | ⟨attributes, hget, hflag⟩
      · rcases List.mem_cons.mp hi with rfl | hi
        · right
          simp only [hk, DynamoTable.get?_update, if_pos]
          exact ⟨_, rfl, trainedFlag_marked _⟩
        · exact Or.inl ⟨item', hi, hk⟩
      · right
        cases hk : item.key with
        | none => exact ⟨attributes, hget, hflag⟩
        | some other =>
            simp only [DynamoTable.get?_update]
            split
            · exact ⟨_, rfl, trainedFlag_marked _⟩
            · exact ⟨attributes, hget, hflag⟩

end Hailcast
