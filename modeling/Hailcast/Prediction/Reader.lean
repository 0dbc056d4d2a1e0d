import Hailcast.Lib.EventRun
import Hailcast.Prediction.Service

/-!
# Prediction readers

`FilePredictionReader` and `GET /prediction/latest` read `latest.json`; `DbPredictionReader` reads the batch of the
table with the latest `generated_at`.
-/

namespace Hailcast

/-! ## Reading the table -/

/-- `PredictionItem(...)` of a row -/
def PredictionRow.item (row : PredictionRow) : Except PyError PredictionItem :=
  if hdemand : 0 ≤ row.predictedDemand then
    if hconfidence : ∀ c ∈ row.confidence, 0 ≤ c ∧ c ≤ 1 then .ok {
      targetTime := row.targetTime
      predictedDemand := row.predictedDemand
      confidence := row.confidence
      temperature := row.temperature
      humidity := row.humidity
      isRaining := row.isRaining.map (fun r => decide (r ≠ 0))
      demand_nonneg := hdemand
      confidence_mem := hconfidence }
    else .error (.validationError "confidence")
  else .error (.validationError "predicted_demand")

def latestGeneratedAt (rows : List PredictionRow) : Option Int := (rows.map PredictionRow.generatedAt).max?

def getBatch (rows : List PredictionRow) (generatedAt : Int) : List PredictionRow :=
  (rows.filter (fun row => row.generatedAt = generatedAt)).mergeSort (fun r r' => decide (r.targetTime ≤ r'.targetTime))

/-- `DbPredictionReader.read_latest` -/
def readLatestDb (windowMinutes : Int) (rows : List PredictionRow) : Except PyError (Option PredictionDocument) :=
  match latestGeneratedAt rows with
  | none => .ok none
  | some generatedAt =>
      match getBatch rows generatedAt with
      | [] => .ok none
      | first :: rest => do
          let items ← (first :: rest).mapM PredictionRow.item
          return some {
            generatedAt := generatedAt
            modelVersion := first.modelVersion
            predictionWindowMinutes :=
              if first.predictionWindowMinutes = 0 then windowMinutes else first.predictionWindowMinutes
            horizonSteps := items.length
            predictedTaxiDemand := (items.head?.map PredictionItem.predictedDemand).getD 0
            predictions := items }

/-! ## Agreement -/

/-- Nothing and nothing, or two forecasts of one time with the same items; where the first lists them by distinct
target times in order, they stand in the same order. -/
def SameForecast : Option PredictionDocument → Option PredictionDocument → Prop
  | none, none => True
  | some d, some d' =>
      d.generatedAt = d'.generatedAt ∧ d.predictions.Perm d'.predictions ∧
        (d.predictions.Pairwise (fun i j => i.targetTime < j.targetTime) → d.predictions = d'.predictions)
  | _, _ => False

/-- The two readers serve the same. -/
def ForecastStore.Agrees (cfg : PredictSettings) (s : ForecastStore) : Prop :=
  ∃ document, readLatestDb cfg.predictionWindowMinutes s.predictions = .ok document ∧ SameForecast s.latest document

/-! ## The batch of a document -/

variable {windowMinutes : Int} {document : PredictionDocument}

theorem item_row (item : PredictionItem) : (document.row item).item = .ok item := by
  have hrain : (document.row item).isRaining.map (fun r => decide (r ≠ 0)) = item.isRaining := by
    cases h : item.isRaining with
    | none => simp [PredictionDocument.row, h]
    | some rain => cases rain <;> simp [PredictionDocument.row, h]
  unfold PredictionRow.item
  rw [dif_pos (show 0 ≤ (document.row item).predictedDemand from item.demand_nonneg),
    dif_pos (show ∀ c ∈ (document.row item).confidence, 0 ≤ c ∧ c ≤ 1 from item.confidence_mem)]
  simp only [hrain]
  rfl

theorem mapM_item_row (items : List PredictionItem) :
    (items.map document.row).mapM PredictionRow.item = .ok items := by
  rw [mapM_eq_ok_iff, List.forall₂_map_left_iff, List.forall₂_same]
  exact fun item _ => item_row item

def byTargetTime (i j : PredictionItem) : Bool := decide (i.targetTime ≤ j.targetTime)

theorem latestGeneratedAt_append {rows : List PredictionRow} {items : List PredictionItem}
    (hlater : ∀ row ∈ rows, row.generatedAt < document.generatedAt) (hitems : items ≠ []) :
    latestGeneratedAt (rows ++ items.map document.row) = some document.generatedAt := by
  rw [latestGeneratedAt, List.max?_eq_some_iff]
  refine ⟨?_, ?_⟩
  · obtain ⟨item, hitem⟩ := List.exists_mem_of_ne_nil items hitems
    have hrow : document.row item ∈ rows ++ items.map document.row :=
      List.mem_append_right rows (List.mem_map_of_mem hitem)
    exact List.mem_map.mpr ⟨document.row item, hrow, rfl⟩
  · intro t ht
    obtain ⟨row, hrow, rfl⟩ := List.mem_map.mp ht
    rcases List.mem_append.mp hrow with hold | hnew
    · exact (hlater row hold).le
    · obtain ⟨item, _, rfl⟩ := List.mem_map.mp hnew
      exact le_refl _

theorem filter_map_row (items : List PredictionItem) :
    (items.map document.row).filter (fun row => row.generatedAt = document.generatedAt) = items.map document.row := by
  rw [List.filter_eq_self]
  intro row hrow
  obtain ⟨item, _, rfl⟩ := List.mem_map.mp hrow
  simp [PredictionDocument.row]

theorem getBatch_append {rows : List PredictionRow} (items : List PredictionItem)
    (hlater : ∀ row ∈ rows, row.generatedAt < document.generatedAt) :
    getBatch (rows ++ items.map document.row) document.generatedAt =
      (items.mergeSort byTargetTime).map document.row := by
  have hold : rows.filter (fun row => row.generatedAt = document.generatedAt) = [] := by
    rw [List.filter_eq_nil_iff]
    intro row hrow
    simpa using (hlater row hrow).ne
  rw [getBatch, List.filter_append, hold, filter_map_row, List.nil_append, ← List.map_mergeSort]
  intro i _ j _
  rfl

/-- The table gives the latest batch back, by target time. -/
theorem readLatestDb_append {rows : List PredictionRow} {items : List PredictionItem}
    (hlater : ∀ row ∈ rows, row.generatedAt < document.generatedAt) (hitems : items ≠ []) :
    ∃ read, readLatestDb windowMinutes (rows ++ items.map document.row) = .ok (some read) ∧
      read.generatedAt = document.generatedAt ∧ read.predictions = items.mergeSort byTargetTime := by
  have hbatch := getBatch_append items hlater
  simp only [readLatestDb, latestGeneratedAt_append hlater hitems]
  cases hsort : items.mergeSort byTargetTime with
  | nil =>
      have hlen := congrArg List.length hsort
      rw [List.length_mergeSort] at hlen
      exact absurd (List.length_eq_zero_iff.mp hlen) hitems
  | cons first rest =>
      rw [hsort] at hbatch
      rw [hbatch]
      simp only [List.map_cons]
      rw [← List.map_cons, mapM_item_row]
      exact ⟨_, rfl, rfl, rfl⟩

/-- What the table serves is of a time that one of its rows has. -/
theorem readLatestDb_mem {rows : List PredictionRow} {read : PredictionDocument}
    (h : readLatestDb windowMinutes rows = .ok (some read)) : ∃ row ∈ rows, row.generatedAt = read.generatedAt := by
  unfold readLatestDb at h
  split at h
  · cases h
  · rename_i generatedAt hmax
    obtain ⟨row, hrow, rfl⟩ := List.mem_map.mp (List.max?_eq_some_iff.mp hmax).1
    split at h
    · cases h
    · obtain ⟨items, _, h⟩ := bind_eq_ok h
      obtain rfl := Option.some.inj (Except.ok.inj h)
      exact ⟨row, hrow, rfl⟩

theorem mergeSort_byTargetTime {items : List PredictionItem}
    (h : items.Pairwise (fun i j => i.targetTime < j.targetTime)) : items.mergeSort byTargetTime = items := by
  refine List.mergeSort_of_pairwise (h.imp ?_)
  intro i j hij
  simpa [byTargetTime] using hij.le

/-! ## Round trip -/

/-- The shape that `_run` gives a document, from hours in order and a window that is not empty. -/
structure PredictionDocument.Shaped (document : PredictionDocument) : Prop where
  items : document.predictions ≠ []
  sorted : document.predictions.Pairwise (fun i j => i.targetTime < j.targetTime)
  demand : document.predictedTaxiDemand = (document.predictions.head?.map PredictionItem.predictedDemand).getD 0
  steps : document.horizonSteps = document.predictions.length
  window : 0 < document.predictionWindowMinutes

/-- The rows of a shaped document give it back with all its fields. -/
theorem readLatestDb_shaped {rows : List PredictionRow} (h : document.Shaped)
    (hlater : ∀ row ∈ rows, row.generatedAt < document.generatedAt) :
    readLatestDb windowMinutes (rows ++ document.predictions.map document.row) = .ok (some document) := by
  have hbatch := getBatch_append document.predictions hlater
  rw [mergeSort_byTargetTime h.sorted] at hbatch
  simp only [readLatestDb, latestGeneratedAt_append hlater h.items]
  cases hitems : document.predictions with
  | nil => exact absurd hitems h.items
  | cons first rest =>
      rw [hitems] at hbatch
      rw [hbatch]
      simp only [List.map_cons]
      rw [← List.map_cons, mapM_item_row]
      have hwindow : (document.row first).predictionWindowMinutes = document.predictionWindowMinutes := rfl
      simp only [bind, Except.bind, pure, Except.pure, hwindow, h.window.ne', ↓reduceIte, ← hitems]
      rw [← h.demand, ← h.steps]
      rfl

theorem rows_of_saves (documents : List PredictionDocument) (s : ForecastStore) :
    (EventRun.run (fun s d => ForecastStore.saveDocument d s) s documents).predictions =
      s.predictions ++ documents.flatMap (fun d => d.predictions.map d.row) := by
  induction documents generalizing s with
  | nil => simp
  | cons d documents ih => rw [EventRun.run_cons, ih]; simp [ForecastStore.saveDocument]

end Hailcast
