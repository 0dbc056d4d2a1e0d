import Hailcast.Retrain.Threshold

/-!
# What a retrain run consumes
-/

namespace Hailcast

variable {table : DynamoTable} {record record' : DynamoItem}

/-- The trigger starts on this table, with this model and metadata stored. -/
def RetrainState.start (table : DynamoTable) (model : Option Model) (metadata : Option ModelMetadata) :
    RetrainState where
  table := table
  model := model
  metadata := metadata

/-- Each record that goes from untrained to trained is in the training set of a model that was uploaded to the
latest model. -/
def ConsumesPublished (settings : RetrainTriggerSettings) (table : DynamoTable) (s : RetrainState) : Prop :=
  ∀ record ∈ table.items, trainedFlag record = .ok 0 →
    (∃ record' ∈ s.table.items, record'.key = record.key ∧ trainedFlag record' = .ok 1) →
    ∃ model, (modelKey settings, model) ∈ s.uploads ∧ record ∈ model.trainingSet

theorem DynamoTable.mem_items_unique (h : record ∈ table.items) (h' : record' ∈ table.items)
    (hk : record'.key = record.key) : record' = record := by
  obtain ⟨key, attributes, hget, rfl⟩ := DynamoTable.mem_items.mp h
  obtain ⟨key', attributes', hget', rfl⟩ := DynamoTable.mem_items.mp h'
  obtain rfl : key' = key := by simpa using hk
  obtain rfl : attributes' = attributes := Option.some.inj (hget'.symm.trans hget)
  rfl

theorem mem_of_marked {items : List DynamoItem} (hitems : ∀ item ∈ items, item ∈ table.items)
    (hr : record ∈ table.items) (h0 : trainedFlag record = .ok 0) (hr' : record' ∈ (table.markAll items).items)
    (hk : record'.key = record.key) (h1 : trainedFlag record' = .ok 1) : record ∈ items := by
  by_contra hn
  obtain ⟨key, attributes, hget, rfl⟩ := DynamoTable.mem_items.mp hr
  obtain ⟨key', attributes', hget', rfl⟩ := DynamoTable.mem_items.mp hr'
  obtain rfl : key' = key := by simpa using hk
  have hkept : (table.markAll items).get? key' = table.get? key' := by
    refine DynamoTable.get?_markAll fun item hi he => hn ?_
    rwa [← DynamoTable.mem_items_unique hr (hitems item hi) (by simpa using he)]
  obtain rfl : attributes' = attributes := Option.some.inj (hget'.symm.trans (hkept.trans hget))
  rw [trainedFlag_item] at h0 h1
  exact absurd (h0.symm.trans h1) (by decide)

theorem marked_of_mem {items : List DynamoItem} (hr : record ∈ items) (hin : record ∈ table.items) :
    ∃ record' ∈ (table.markAll items).items, record'.key = record.key ∧ trainedFlag record' = .ok 1 := by
  obtain ⟨key, attributes, _, rfl⟩ := DynamoTable.mem_items.mp hin
  obtain ⟨attributes', hget, hflag⟩ :=
    DynamoTable.markAll_flagged table key (Or.inl ⟨_, hr, DynamoTable.key_item key attributes⟩)
  exact ⟨_, DynamoTable.mem_items.mpr ⟨key, attributes', hget, rfl⟩, rfl, hflag⟩

/-- A run that completes consumes only what it has published exactly when uploads are enabled or it ends before
the training. -/
theorem retrain_consumes_published_iff (settings : RetrainTriggerSettings) (force yes : Bool) (env : RetrainEnv)
    (table : DynamoTable) (model : Option Model) (metadata : Option ModelMetadata)
    (hdone : ((RetrainState.start table model metadata).exec env (retrainMain settings force yes)).1 = .ok ()) :
    ConsumesPublished settings table
        ((RetrainState.start table model metadata).exec env (retrainMain settings force yes)).2 ↔
      settings.mlS3UploadEnabled = true ∨ StopsEarly env force yes table := by
  generalize hs' : ((RetrainState.start table model metadata).exec env (retrainMain settings force yes)).2 = s'
  cases RetrainState.exec_retrainMain (Prod.ext hdone hs') with
  | stopped hstop htable huploads =>
      refine ⟨fun _ => Or.inr hstop, fun _ record hr h0 ⟨record', hr', hk, h1⟩ => ?_⟩
      rw [htable] at hr'
      obtain rfl := DynamoTable.mem_items_unique hr hr' hk
      exact absurd (h0.symm.trans h1) (by decide)
  | trained untrained trained hrun huntrained husable hmodel htable huploads =>
      have hin := fun item hi => (mem_splitUsable huntrained hi : item ∈ table.items ∧ trainedFlag item = .ok 0)
      change s'.table = table.markAll _ at htable
      constructor
      · intro hc
        by_contra hnot
        obtain ⟨record, hr⟩ := List.exists_mem_of_ne_nil _ husable
        have hmarked := marked_of_mem hr (hin record hr).1
        obtain ⟨_, hup, _⟩ := hc record (hin record hr).1 (hin record hr).2 (htable ▸ hmarked)
        rw [huploads, if_neg (fun he => hnot (Or.inl he))] at hup
        cases hup
      · rintro (hup | hstop)
        · intro record hr h0 ⟨record', hr', hk, h1⟩
          rw [htable] at hr'
          refine ⟨trained, ?_, ?_⟩
          · rw [huploads, if_pos hup]; exact List.mem_cons_self
          · rw [hmodel]
            exact mem_of_marked (fun item hi => (hin item hi).1) hr h0 hr' hk h1
        · exact absurd hstop hrun

/-- A complete untrained record of an hour of one Friday in Seoul, with its key. -/
def hourRecord (hour : Int) : (Str × Str) × DynamoItem :=
  let time := (hour + 15) * 3600000000
  ((.date (time / 86400000000), .aware time),
    [("날짜", .s (.naive (time + 32400000000))), ("요일", .n 5), ("온도", .n (18 + hour)), ("습도", .n 50),
      ("강수유무", .n 0), ("승객수", .n (1000 + 100 * hour)), ("학습여부", .n 0)])

def twentyRecords : DynamoTable :=
  (List.range 20).foldl (fun table hour => table.put (hourRecord hour).1 (hourRecord hour).2) Dict.empty

/-- An outside in which nothing fails but a fit that cannot work: on a single record it raises, and where no split
leaves 8 records on each side it adds no tree. -/
def boosting : RetrainEnv where
  fault := fun _ o =>
    match o with
    | .fit _ [_] => some .valueError
    | _ => none
  fit := fun _ items => if items.length < 17 then ⟨8000, 8000, 140, 180⟩ else ⟨8000, 8030, 140, 180⟩

theorem retrain_consumes_published_enabled :
    ConsumesPublished { mlS3UploadEnabled := true } twentyRecords
      ((RetrainState.start twentyRecords (some (.scratch (.trained 0))) none).exec boosting
        (retrainMain { mlS3UploadEnabled := true } false true)).2 :=
  (retrain_consumes_published_iff { mlS3UploadEnabled := true } false true boosting twentyRecords
    (some (.scratch (.trained 0))) none (by decide +kernel)).mpr (Or.inl rfl)

/-- With the uploads off, which is the default, `--yes` marks the twenty records and publishes nothing. -/
theorem retrain_consumes_unpublished :
    ((RetrainState.start twentyRecords (some (.scratch (.trained 0))) none).exec boosting
        (retrainMain {} false true)).1 = .ok () ∧
      ¬ ConsumesPublished {} twentyRecords
        ((RetrainState.start twentyRecords (some (.scratch (.trained 0))) none).exec boosting
          (retrainMain {} false true)).2 := by
  refine ⟨by decide +kernel, fun h => ?_⟩
  have hbefore : ∃ record ∈ twentyRecords.items,
      record.key = some (hourRecord 0).1 ∧ trainedFlag record = .ok 0 := by decide +kernel
  have hafter : ∃ record ∈ ((RetrainState.start twentyRecords (some (.scratch (.trained 0))) none).exec boosting
      (retrainMain {} false true)).2.table.items,
      record.key = some (hourRecord 0).1 ∧ trainedFlag record = .ok 1 := by decide +kernel
  have hnone : ((RetrainState.start twentyRecords (some (.scratch (.trained 0))) none).exec boosting
      (retrainMain {} false true)).2.uploads.length = 0 := by decide +kernel
  obtain ⟨record, hin, hkey, hzero⟩ := hbefore
  obtain ⟨record', hin', hkey', hone⟩ := hafter
  obtain ⟨_, hup, _⟩ := h record hin hzero ⟨record', hin', hkey'.trans hkey.symm, hone⟩
  rw [List.length_eq_zero_iff.mp hnone] at hup
  cases hup

/-! ## Runs that may abort -/

/-- As long as no run aborts between the upload of its model and the last of its marks, no record is used for two
published models. -/
theorem retrain_records_used_once (settings : RetrainTriggerSettings) (hup : settings.mlS3UploadEnabled = true)
    (table : DynamoTable) (model : Option Model) (metadata : Option ModelMetadata) (events : List RetrainEvent)
    (hkeys : EventRun.Along (RetrainState.step settings) RetrainState.NewKey (.start table model metadata) events)
    (hmark : EventRun.Along (RetrainState.step settings) (fun s e => ¬ s.LeavesUnmarked settings e)
      (.start table model metadata) events) :
    (EventRun.run (RetrainState.step settings) (.start table model metadata) events).UsedOnce := by
  have hstart : (RetrainState.start table model metadata).Marked := ⟨fun _ hu => (nomatch hu), List.Pairwise.nil⟩
  exact (EventRun.Along.invariant (fun _ _ h he => h.step hup he.1 he.2) hstart (hkeys.and hmark)).once

/-- `boosting`, with one more request that raises. -/
def refusing (request : Nat) : RetrainEnv :=
  { boosting with
    fault := fun n o => if n = request then some (.awsError "s3" "put_object" "") else boosting.fault n o }

/-- The upload of the model fails in the first run, and the second run completes. -/
theorem retrain_records_used_once_retried :
    (EventRun.run (RetrainState.step { mlS3UploadEnabled := true })
      (.start twentyRecords (some (.scratch (.trained 0))) none)
      [.run (refusing 6) false true, .run boosting false true]).UsedOnce := by
  refine retrain_records_used_once _ rfl _ _ _ _ ⟨trivial, trivial, trivial⟩ ⟨?_, ?_, trivial⟩
  · rintro ⟨base, usable, hpub, _⟩
    exact absurd hpub.passes (by simp [uploadRequests, questions, RetrainEnv.Passes, refusing])
  · rintro ⟨base, usable, _, hno⟩
    refine hno (RetrainEnv.passes_of_forall fun n o ho => ?_)
    rcases List.mem_cons.mp ho with rfl | ho
    · rfl
    · obtain ⟨item, _, hkey⟩ := List.mem_filterMap.mp ho
      obtain ⟨key, _, rfl⟩ := Option.map_eq_some_iff.mp hkey
      rfl

/-- The metadata upload of the first run fails: its model is stored, and the second run uses the records again. -/
theorem retrain_record_used_twice :
    EventRun.Along (RetrainState.step { mlS3UploadEnabled := true }) RetrainState.NewKey
        (.start twentyRecords (some (.scratch (.trained 0))) none)
        [.run (refusing 7) false true, .run boosting false true] ∧
      ¬ (EventRun.run (RetrainState.step { mlS3UploadEnabled := true })
        (.start twentyRecords (some (.scratch (.trained 0))) none)
        [.run (refusing 7) false true, .run boosting false true]).UsedOnce := by
  refine ⟨⟨trivial, trivial, trivial⟩, ?_⟩
  unfold RetrainState.UsedOnce
  decide +kernel

/-! ## The threshold -/

/-- Along every sequence of runs and writes, no run without `--force` trains on fewer than 20 records exactly if none
is let through at a table of at least 20 untrained records of which some, but fewer than 20, can be used. -/
theorem retrain_trains_enough_iff (settings : RetrainTriggerSettings) (table : DynamoTable) (model : Option Model)
    (metadata : Option ModelMetadata) (events : List RetrainEvent) :
    EventRun.Along (RetrainState.step settings) (fun s e => s.TrainsEnough settings e) (.start table model metadata)
        events ↔
      EventRun.Along (RetrainState.step settings) (fun s e => ¬ s.CountsUnusable e) (.start table model metadata)
        events := by
  simp only [EventRun.along_iff_prefix, RetrainState.trainsEnough_iff]

/-- Nineteen untrained records without the weather columns, and one that can be used. -/
def legacyTable : DynamoTable :=
  (List.range 19).foldl
    (fun table hour => table.put (hourRecord (hour + 1)).1
      [("predicted_demand", .n 1000), ("actual_demand", .n 2000), ("diff", .n 1000)])
    (DynamoTable.put Dict.empty (hourRecord 0).1 (hourRecord 0).2)

theorem filterUntrained_of_zero {items : List DynamoItem} (h : ∀ item ∈ items, trainedFlag item = .ok 0) :
    filterUntrained items = .ok items := by
  induction items with
  | nil => rfl
  | cons item items ih =>
      have hzero := h item List.mem_cons_self
      have hrest := ih fun i hi => h i (List.mem_cons_of_mem _ hi)
      simp [filterUntrained, hzero, hrest, bind, Except.bind, pure, Except.pure]

/-- A run with `--yes` and without `--force` calls `continue_train` with the single usable record. -/
theorem retrain_trains_on_one :
    ¬ EventRun.Along (RetrainState.step {}) (fun s e => s.TrainsEnough {} e)
      (.start legacyTable (some (.scratch (.trained 0))) none) [.run boosting false true] := by
  rintro ⟨henough, _⟩
  refine (RetrainState.trainsEnough_iff {} _ _).mp henough ⟨rfl, ⟨legacyTable.items, ?_, ?_⟩, Or.inl rfl, ?_, rfl⟩
  · exact filterUntrained_of_zero (by decide +kernel)
  · refine ⟨by decide +kernel, ?_, by decide +kernel⟩
    exact List.ne_nil_of_length_pos (by decide +kernel)
  · exact ⟨rfl, trivial⟩

end Hailcast
