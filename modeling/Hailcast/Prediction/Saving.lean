import Hailcast.Prediction.Reader

/-!
# What a forecast leaves in the two stores
-/

namespace Hailcast

variable {cfg : PredictSettings} {zone : Zone} {env : ForecastEnv} {document : PredictionDocument}

/-! ## Writes that take effect -/

namespace ForecastEnv

def published (cfg : PredictSettings) (env : ForecastEnv) : Nat := Retry.writes env.latestWrite cfg.forecastRetryCount

/-- The writes before that to the database return. -/
def reachesDb (cfg : PredictSettings) (env : ForecastEnv) : Bool :=
  Retry.returns env.latestWrite cfg.forecastRetryCount &&
    (!cfg.predictionKeepHistoryInS3 || Retry.returns env.historyWrite cfg.forecastRetryCount) && env.csvWrite.returns

def inserted (cfg : PredictSettings) (env : ForecastEnv) : Nat :=
  if env.reachesDb cfg then Retry.writes env.dbWrite cfg.forecastRetryCount else 0

end ForecastEnv

def copies (n : Nat) (items : List PredictionItem) : List PredictionItem := (List.replicate n items).flatten

theorem length_copies (n : Nat) (items : List PredictionItem) : (copies n items).length = n * items.length := by
  simp [copies]

theorem copies_one (items : List PredictionItem) : copies 1 items = items := by
  simp [copies]

/-- `latest.json` is written `published` times and the rows `inserted` times. -/
def Saved (document : PredictionDocument) (published inserted : Nat) (s s' : ForecastStore) : Prop :=
  s'.latest = (if published = 0 then s.latest else some document) ∧
    s'.predictions = s.predictions ++ (copies inserted document.predictions).map document.row

namespace ForecastStore

theorem iterate_putLatest (document : PredictionDocument) (n : Nat) (s : ForecastStore) :
    Saved document n 0 s ((putLatest document)^[n] s) := by
  induction n generalizing s with
  | zero => simp [Saved, copies]
  | succ n ih =>
      obtain ⟨hlatest, hrows⟩ := ih (putLatest document s)
      rw [Function.iterate_succ_apply]
      refine ⟨?_, hrows⟩
      rw [hlatest]
      split <;> rfl

theorem iterate_unread {f : ForecastStore → ForecastStore} (hlatest : ∀ s, (f s).latest = s.latest)
    (hrows : ∀ s, (f s).predictions = s.predictions) (document : PredictionDocument) (n : Nat) (s : ForecastStore) :
    Saved document 0 0 s (f^[n] s) := by
  induction n generalizing s with
  | zero => simp [Saved, copies]
  | succ n ih => simpa [Saved, hlatest, hrows] using ih (f s)

theorem iterate_putHistory (document : PredictionDocument) (n : Nat) (s : ForecastStore) :
    Saved document 0 0 s ((putHistory document)^[n] s) :=
  iterate_unread (f := putHistory document) (fun _ => rfl) (fun _ => rfl) document n s

theorem iterate_putCsv (zone : Zone) (document : PredictionDocument) (n : Nat) (s : ForecastStore) :
    Saved document 0 0 s ((putCsv zone document)^[n] s) :=
  iterate_unread (f := putCsv zone document) (fun _ => rfl) (fun _ => rfl) document n s

theorem iterate_saveDocument (document : PredictionDocument) (n : Nat) (s : ForecastStore) :
    Saved document 0 n s ((saveDocument document)^[n] s) := by
  induction n generalizing s with
  | zero => simp [Saved, copies]
  | succ n ih =>
      obtain ⟨hlatest, hrows⟩ := ih (saveDocument document s)
      rw [Function.iterate_succ_apply]
      refine ⟨hlatest, ?_⟩
      rw [hrows]
      simp [saveDocument, copies, List.replicate_succ]

end ForecastStore

theorem Saved.trans {p q i j : Nat} {s s' s'' : ForecastStore} (h : Saved document p i s s')
    (h' : Saved document q j s' s'') : Saved document (p + q) (i + j) s s'' := by
  obtain ⟨hlatest, hrows⟩ := h
  obtain ⟨hlatest', hrows'⟩ := h'
  refine ⟨?_, ?_⟩
  · rw [hlatest', hlatest]
    by_cases hq : q = 0 <;> by_cases hp : p = 0 <;> simp [hp, hq]
  · rw [hrows', hrows]
    rw [copies, copies, copies, List.replicate_add, List.flatten_append, List.map_append, List.append_assoc]

theorem csvAndDb_saved (zone : Zone) (env : ForecastEnv) (document : PredictionDocument) (n : Nat)
    (s : ForecastStore) :
    let inserted := if env.csvWrite.returns then Retry.writes env.dbWrite n else 0
    Retry.Ends (fun _ => Saved document 0 inserted s) (Saved document 0 inserted s)
      ((do
        Retry.write (ForecastStore.putCsv zone document) env.csvWrite
        Retry.retry PyError.typeError n (fun k => Retry.write (ForecastStore.saveDocument document) (env.dbWrite k)))
        s) := by
  intro inserted
  have hcsv := ForecastStore.iterate_putCsv zone document env.csvWrite.count s
  refine Retry.write_then (Retry.write_wrote (ForecastStore.putCsv zone document) env.csvWrite s) ?_ ?_
  · intro hr
    have hins : inserted = 0 := by simp [inserted, hr]
    rw [hins]
    exact hcsv
  · intro hr
    have hins : inserted = Retry.writes env.dbWrite n := by simp [inserted, hr]
    have hall := hcsv.trans (ForecastStore.iterate_saveDocument document inserted _)
    rw [zero_add, zero_add, hins] at hall
    rw [hins]
    exact (Retry.retry_write PyError.typeError _ env.dbWrite n _).ends hall

theorem saveForecast_saved (cfg : PredictSettings) (zone : Zone) (env : ForecastEnv) (document : PredictionDocument)
    (s : ForecastStore) :
    Retry.Ends (fun _ => Saved document (env.published cfg) (env.inserted cfg) s)
      (Saved document (env.published cfg) (env.inserted cfg) s) (saveForecast cfg zone env document s) := by
  have hlatest := ForecastStore.iterate_putLatest document (env.published cfg) s
  unfold saveForecast withForecastRetry
  refine Retry.write_then (Retry.retry_write _ _ _ _ s) ?_ ?_
  · intro hr
    have hins : env.inserted cfg = 0 := by simp [ForecastEnv.inserted, ForecastEnv.reachesDb, hr]
    rw [hins]
    exact hlatest
  · intro hr
    simp only
    split
    · rename_i hkeep
      -- the history, and then the rest
      refine Retry.write_then (Retry.retry_write _ _ _ _ _) ?_ ?_
      · intro hh
        have hins : env.inserted cfg = 0 := by simp [ForecastEnv.inserted, ForecastEnv.reachesDb, hr, hkeep, hh]
        rw [hins]
        exact hlatest.trans (ForecastStore.iterate_putHistory document _ _)
      · intro hh
        have hins : env.inserted cfg =
            if env.csvWrite.returns then Retry.writes env.dbWrite cfg.forecastRetryCount else 0 := by
          simp [ForecastEnv.inserted, ForecastEnv.reachesDb, hr, hkeep, hh]
        rw [hins]
        refine (csvAndDb_saved zone env document _ _).imp fun s' hs' => ?_
        simpa using (hlatest.trans (ForecastStore.iterate_putHistory document _ _)).trans hs'
    · rename_i hkeep
      have hins : env.inserted cfg =
          if env.csvWrite.returns then Retry.writes env.dbWrite cfg.forecastRetryCount else 0 := by
        simp [ForecastEnv.inserted, ForecastEnv.reachesDb, hr, hkeep]
      rw [hins]
      refine (csvAndDb_saved zone env document _ _).imp fun s' hs' => ?_
      simpa using hlatest.trans hs'

/-! ## One run -/

theorem forecastDocument_eq_ok (h : forecastDocument cfg zone env = .ok document) :
    document.generatedAt = env.generatedClock ∧ document.predictions ≠ [] := by
  obtain ⟨version, _, h⟩ := bind_eq_ok h
  obtain ⟨rows, _, h⟩ := bind_eq_ok h
  simp only at h
  split at h
  · cases h
  · split at h
    · cases h
    · rename_i hhours
      obtain ⟨items, hitems, h⟩ := bind_eq_ok h
      obtain rfl := Except.ok.inj h
      exact ⟨rfl, ne_nil_of_mapM hitems (by simpa using hhours)⟩

theorem step_of_no_document {exc : PyError} (h : forecastDocument cfg zone env = .error exc) (s : ForecastStore) :
    s.step cfg zone env = s := by
  simp only [ForecastStore.step, runForecast, Retry.tryCatch_run, h]
  rfl

theorem step_saved (h : forecastDocument cfg zone env = .ok document) (s : ForecastStore) :
    Saved document (env.published cfg) (env.inserted cfg) s (s.step cfg zone env) := by
  have hsave := saveForecast_saved cfg zone env document s
  simp only [ForecastStore.step, runForecast, Retry.tryCatch_run, h]
  cases hr : saveForecast cfg zone env document s with
  | ok u s' =>
      rw [hr] at hsave
      rw [Retry.bind_ok hr]
      exact hsave
  | error exc s' =>
      rw [hr] at hsave
      rw [Retry.bind_error hr]
      exact hsave

/-! ## The retried write to the database -/

/-- Of the batch of the document, the second store has no row more often than the first one and the document. -/
def PredictionDocument.WrittenOnce (document : PredictionDocument) (s s' : ForecastStore) : Prop :=
  (getBatch s'.predictions document.generatedAt).Subperm
    (getBatch s.predictions document.generatedAt ++ document.predictions.map document.row)

theorem getBatch_perm (rows : List PredictionRow) (generatedAt : Int) :
    (getBatch rows generatedAt).Perm (rows.filter (fun row => row.generatedAt = generatedAt)) :=
  List.mergeSort_perm _ _

theorem getBatch_append_perm (document : PredictionDocument) (rows : List PredictionRow) (items : List PredictionItem) :
    (getBatch (rows ++ items.map document.row) document.generatedAt).Perm
      (getBatch rows document.generatedAt ++ items.map document.row) := by
  refine (getBatch_perm _ _).trans ?_
  rw [List.filter_append, filter_map_row]
  exact (getBatch_perm _ _).symm.append_right _

theorem Saved.writtenOnce_iff {published inserted : Nat} {s s' : ForecastStore}
    (h : Saved document published inserted s s') :
    document.WrittenOnce s s' ↔ inserted ≤ 1 ∨ document.predictions = [] := by
  unfold PredictionDocument.WrittenOnce
  rw [h.2]
  have hperm := getBatch_append_perm document s.predictions (copies inserted document.predictions)
  constructor
  · intro hsub
    have hlen := (hperm.symm.subperm.trans hsub).length_le
    simp only [List.length_append, List.length_map, length_copies] at hlen
    by_contra hno
    push Not at hno
    have hpos : 0 < document.predictions.length := List.length_pos_iff.mpr hno.2
    nlinarith
  · rintro (hle | hnil)
    · refine hperm.subperm.trans ?_
      obtain rfl | rfl : inserted = 0 ∨ inserted = 1 := by omega
      · simpa [copies] using (List.sublist_append_left _ _).subperm
      · rw [copies_one]
    · simpa [hnil, copies] using hperm.subperm

theorem retried_writtenOnce_iff (cfg : PredictSettings) (document : PredictionDocument)
    (reply : Nat → Retry.WriteReply PyError) (s : ForecastStore) :
    Retry.Ends (fun _ => document.WrittenOnce s) (document.WrittenOnce s)
        (withForecastRetry cfg (fun k => Retry.write (.saveDocument document) (reply k)) s) ↔
      Retry.writes reply cfg.forecastRetryCount ≤ 1 ∨ document.predictions = [] := by
  rw [← (ForecastStore.iterate_saveDocument document _ s).writtenOnce_iff]
  have hwrote := Retry.retry_write PyError.typeError (.saveDocument document) reply cfg.forecastRetryCount s
  refine ⟨fun h => ?_, fun h => hwrote.ends h⟩
  unfold withForecastRetry at h
  cases hret : Retry.returns reply cfg.forecastRetryCount with
  | true =>
      rw [hret] at hwrote
      rwa [show _ = _ from hwrote] at h
  | false =>
      rw [hret] at hwrote
      obtain ⟨exc, hexc⟩ := hwrote
      rwa [hexc] at h

/-! ## When the readers agree -/

/-- A document that is made is of a later time than those in the table. -/
def ForecastEnv.Later (cfg : PredictSettings) (zone : Zone) (s : ForecastStore) (env : ForecastEnv) : Prop :=
  ∀ document, forecastDocument cfg zone env = .ok document →
    ∀ row ∈ s.predictions, row.generatedAt < env.generatedClock

/-- A document that is made is not written to `latest.json`, or it is and its rows are inserted just once. -/
def ForecastEnv.SavesBoth (cfg : PredictSettings) (zone : Zone) (env : ForecastEnv) : Prop :=
  ∀ document, forecastDocument cfg zone env = .ok document → env.published cfg = 0 ∨ env.inserted cfg = 1

theorem inserted_of_unpublished (h : env.published cfg = 0) : env.inserted cfg = 0 := by
  have hreturns : Retry.returns env.latestWrite cfg.forecastRetryCount = false := by
    by_contra hne
    have hpos := Retry.writes_pos (Bool.of_not_eq_false hne)
    rw [ForecastEnv.published] at h
    omega
  simp [ForecastEnv.inserted, ForecastEnv.reachesDb, hreturns]

theorem not_agrees_of_older {s : ForecastStore} (hlatest : s.latest = some document)
    (holder : ∀ row ∈ s.predictions, row.generatedAt < document.generatedAt) : ¬ s.Agrees cfg := by
  rintro ⟨read, hread, hsame⟩
  rw [hlatest] at hsame
  cases read with
  | none => cases hsame
  | some read =>
      obtain ⟨row, hrow, htime⟩ := readLatestDb_mem hread
      have hlt := holder row hrow
      rw [htime, hsame.1] at hlt
      exact lt_irrefl _ hlt

/-- After a document has been published the readers agree exactly if its rows are inserted once. -/
theorem agrees_saved_iff {s s' : ForecastStore} {published inserted : Nat}
    (hpublished : published ≠ 0) (hsaved : Saved document published inserted s s')
    (hlater : ∀ row ∈ s.predictions, row.generatedAt < document.generatedAt) (hitems : document.predictions ≠ []) :
    s'.Agrees cfg ↔ inserted = 1 := by
  obtain ⟨hlatest, hrows⟩ := hsaved
  rw [if_neg hpublished] at hlatest
  have hlen : 0 < document.predictions.length := List.length_pos_iff.mpr hitems
  by_cases hins : inserted = 0
  · subst hins
    refine iff_of_false (not_agrees_of_older hlatest ?_) Nat.zero_ne_one
    simpa [hrows, copies] using hlater
  · unfold ForecastStore.Agrees
    rw [hlatest, hrows]
    have hcopies : copies inserted document.predictions ≠ [] := by
      rw [← List.length_pos_iff, length_copies]
      positivity
    obtain ⟨read, hread, htime, hpredictions⟩ := readLatestDb_append hlater hcopies
    rw [hread]
    constructor
    · rintro ⟨read', hread', hsame⟩
      obtain rfl : some read = read' := Except.ok.inj hread'
      have hperm := hsame.2.1.length_eq
      rw [hpredictions, List.length_mergeSort, length_copies] at hperm
      nlinarith
    · rintro rfl
      rw [copies_one] at hpredictions
      refine ⟨some read, rfl, htime.symm, ?_, ?_⟩
      · rw [hpredictions]
        exact (List.mergeSort_perm _ _).symm
      · intro hsorted
        rw [hpredictions, mergeSort_byTargetTime hsorted]

theorem ForecastStore.Agrees.step_iff {s : ForecastStore} (h : s.Agrees cfg) (hlater : env.Later cfg zone s) :
    (s.step cfg zone env).Agrees cfg ↔ env.SavesBoth cfg zone := by
  cases hdocument : forecastDocument cfg zone env with
  | error exc =>
      rw [step_of_no_document hdocument]
      refine ⟨fun _ document hok => ?_, fun _ => h⟩
      rw [hdocument] at hok
      cases hok
  | ok document =>
      obtain ⟨htime, hitems⟩ := forecastDocument_eq_ok hdocument
      have hsaved := step_saved hdocument s
      have hboth : env.SavesBoth cfg zone ↔ env.published cfg = 0 ∨ env.inserted cfg = 1 := by
        refine ⟨fun hs => hs document hdocument, fun hs _ _ => hs⟩
      rw [hboth]
      by_cases hpublished : env.published cfg = 0
      · -- nothing is written at all
        rw [hpublished, inserted_of_unpublished hpublished] at hsaved
        obtain ⟨hlatest, hrows⟩ := hsaved
        refine ⟨fun _ => Or.inl hpublished, fun _ => ?_⟩
        simpa [ForecastStore.Agrees, copies, hlatest, hrows] using h
      · rw [agrees_saved_iff hpublished hsaved (by rw [htime]; exact hlater document hdocument) hitems]
        simp [hpublished]

end Hailcast
