import Mathlib.Data.Finset.Sort
import Mathlib.Order.Bounds.Basic
import Hailcast.Prediction.Lemmas

/-!
# The rows and hours of a forecast

Which hours a forecast is made for, and which row of an hour it takes.
-/

namespace Hailcast

variable {cfg : PredictSettings} {zone : Zone} {env : ForecastEnv} {rows : List WeatherRow} {hour : Int}

/-! ## The row of an hour -/

section Model

variable {model : Features → ℚ}

/-- What the model says of the row in that hour. -/
def demandAt (model : Features → ℚ) (hour : Int) (row : WeatherRow) : ℚ :=
  model (buildFeatures hour row.temperature row.humidity row.isRaining)

/-- The loop over the rows of an hour, with a model that always answers. -/
def pickRow (model : Features → ℚ) (hour : Int) (best : BestRow) (row : WeatherRow) : BestRow :=
  if best.demand ≤ demandAt model hour row then ⟨demandAt model hour row, row⟩ else best

theorem retry_ok {α : Type} {exc : PyError} {count : Nat} (h : 0 < count) (a : α) :
    Retry.retry exc count (fun _ => (.ok a : Except PyError α)) = .ok a := by
  cases count with
  | zero => exact absurd h (lt_irrefl 0)
  | succ n => rfl

theorem retry_pos {α : Type} {count : Nat} {exc : PyError} {fn : Nat → Except PyError α} {a : α}
    (h : Retry.retry exc count fn = .ok a) : 0 < count := by
  cases count with
  | zero => cases h
  | succ n => exact Nat.succ_pos n

theorem foldlM_tryRow_model (hcount : 0 < cfg.forecastRetryCount)
    (hmodel : ∀ features attempt, env.predict features attempt = .ok (model features)) (rows : List WeatherRow)
    (best : BestRow) : rows.foldlM (tryRow cfg env hour) best = .ok (rows.foldl (pickRow model hour) best) := by
  induction rows generalizing best with
  | nil => rfl
  | cons row rows ih =>
      have hrow : tryRow cfg env hour best row = .ok (pickRow model hour best row) := by
        have hpredict : env.predict (buildFeatures hour row.temperature row.humidity row.isRaining) =
            fun _ => .ok (demandAt model hour row) := funext fun attempt => hmodel _ attempt
        simp only [tryRow, hpredict, retry_ok hcount]
        rfl
      rw [List.foldlM_cons, hrow]
      exact ih _

/-- The start is kept as long as every row is below it; a row that is taken has the demand that is kept. -/
theorem foldl_pickRow_cases (model : Features → ℚ) (hour : Int) (rows : List WeatherRow) (best : BestRow) :
    (rows.foldl (pickRow model hour) best = best ∧ ∀ row ∈ rows, demandAt model hour row < best.demand) ∨
      ∃ row ∈ rows, rows.foldl (pickRow model hour) best = ⟨demandAt model hour row, row⟩ ∧
        best.demand ≤ demandAt model hour row ∧ ∀ row' ∈ rows, demandAt model hour row' ≤ demandAt model hour row := by
  induction rows generalizing best with
  | nil => exact .inl ⟨rfl, fun row hrow => absurd hrow List.not_mem_nil⟩
  | cons row rows ih =>
      rw [List.foldl_cons]
      by_cases hle : best.demand ≤ demandAt model hour row
      · right
        have hpick : pickRow model hour best row = ⟨demandAt model hour row, row⟩ := if_pos hle
        rw [hpick]
        rcases ih ⟨demandAt model hour row, row⟩ with ⟨hkept, hbelow⟩ | ⟨row', hrow', htaken, hge, hall⟩
        · refine ⟨row, List.mem_cons_self, hkept, hle, fun row' hrow' => ?_⟩
          rcases List.mem_cons.mp hrow' with rfl | hrow'
          · exact le_refl _
          · exact (hbelow row' hrow').le
        · refine ⟨row', List.mem_cons_of_mem _ hrow', htaken, hle.trans hge, fun row'' hrow'' => ?_⟩
          rcases List.mem_cons.mp hrow'' with rfl | hrow''
          · exact hge
          · exact hall row'' hrow''
      · have hpick : pickRow model hour best row = best := if_neg hle
        have hlt : demandAt model hour row < best.demand := not_le.mp hle
        rw [hpick]
        rcases ih best with ⟨hkept, hbelow⟩ | ⟨row', hrow', htaken, hge, hall⟩
        · refine .inl ⟨hkept, fun row' hrow' => ?_⟩
          rcases List.mem_cons.mp hrow' with rfl | hrow'
          · exact hlt
          · exact hbelow row' hrow'
        · refine .inr ⟨row', List.mem_cons_of_mem _ hrow', htaken, hge, fun row'' hrow'' => ?_⟩
          rcases List.mem_cons.mp hrow'' with rfl | hrow''
          · exact hlt.le.trans hge
          · exact hall row'' hrow''

theorem exists_worst (model : Features → ℚ) (hour : Int) (first : WeatherRow) (rest : List WeatherRow) :
    ∃ row ∈ first :: rest, ∀ row' ∈ first :: rest, demandAt model hour row' ≤ demandAt model hour row := by
  rcases foldl_pickRow_cases model hour (first :: rest) ⟨demandAt model hour first, first⟩ with
    ⟨-, hbelow⟩ | ⟨row, hrow, -, -, hall⟩
  · exact absurd (hbelow first List.mem_cons_self) (lt_irrefl _)
  · exact ⟨row, hrow, hall⟩

/-- The worst case of an hour: the greatest demand that the model has for its rows, from zero on, and a row that has
it. -/
structure WorstCase (zone : Zone) (model : Features → ℚ) (rows : List WeatherRow) (hour : Int)
    (item : PredictionItem) : Prop where
  targetTime : item.targetTime = zone.utcOf hour
  worst : ∃ demand, IsGreatest {d | ∃ row ∈ rows, floorToHour row.time = hour ∧ d = demandAt model hour row} demand ∧
    item.predictedDemand = pyRound (max 0 demand) 2 ∧
    (0 ≤ demand → ∃ row ∈ rows, floorToHour row.time = hour ∧ demandAt model hour row = demand ∧
      item.temperature = some row.temperature ∧ item.humidity = some row.humidity ∧ item.isRaining = some row.isRaining)

theorem forecastHour_worst (hcount : 0 < cfg.forecastRetryCount)
    (hmodel : ∀ features attempt, env.predict features attempt = .ok (model features))
    (hhour : ∃ row ∈ rows, floorToHour row.time = hour) :
    ∃ item, forecastHour cfg zone env hour (rows.filter (fun row => floorToHour row.time = hour)) = .ok item ∧
      WorstCase zone model rows hour item := by
  have hmem : ∀ row, row ∈ rows.filter (fun row => floorToHour row.time = hour) ↔
      row ∈ rows ∧ floorToHour row.time = hour := fun row => by simp
  generalize rows.filter (fun row => floorToHour row.time = hour) = bucket at hmem
  cases bucket with
  | nil =>
      obtain ⟨row, hrow, hhour⟩ := hhour
      exact absurd ((hmem row).mpr ⟨hrow, hhour⟩) List.not_mem_nil
  | cons first rest =>
      unfold forecastHour
      simp only [foldlM_tryRow_model hcount hmodel]
      refine ⟨_, rfl, rfl, ?_⟩
      rcases foldl_pickRow_cases model hour (first :: rest) ⟨0, first⟩ with
        ⟨hkept, hbelow⟩ | ⟨row, hrow, htaken, hge, hall⟩
      · -- every demand is negative, and the item zero
        obtain ⟨row, hrow, hall⟩ := exists_worst model hour first rest
        have hneg : demandAt model hour row < 0 := hbelow row hrow
        refine ⟨demandAt model hour row, ⟨⟨row, ((hmem row).mp hrow).1, ((hmem row).mp hrow).2, rfl⟩, ?_⟩, ?_, ?_⟩
        · rintro d ⟨row', hrow', hhour', rfl⟩
          exact hall row' ((hmem row').mpr ⟨hrow', hhour'⟩)
        · rw [hkept, max_eq_left hneg.le]
          rfl
        · intro hnonneg
          exact absurd hnonneg (not_le.mpr hneg)
      · refine ⟨demandAt model hour row, ⟨⟨row, ((hmem row).mp hrow).1, ((hmem row).mp hrow).2, rfl⟩, ?_⟩, ?_, ?_⟩
        · rintro d ⟨row', hrow', hhour', rfl⟩
          exact hall row' ((hmem row').mpr ⟨hrow', hhour'⟩)
        · rw [htaken]
        · intro _
          rw [htaken]
          exact ⟨row, ((hmem row).mp hrow).1, ((hmem row).mp hrow).2, rfl, rfl, rfl, rfl⟩

end Model

/-! ## The hours -/

/-- The hours of the rows that are not before the current one, the earliest first. -/
def upcomingHours (zone : Zone) (clock : Int) (rows : List WeatherRow) : List Int :=
  ((rows.map fun row => floorToHour row.time).toFinset.filter (fun h => floorToHour (zone.wallAt clock) ≤ h)).sort

theorem mem_upcomingHours {clock : Int} {h : Int} :
    h ∈ upcomingHours zone clock rows ↔
      (∃ row ∈ rows, floorToHour row.time = h) ∧ floorToHour (zone.wallAt clock) ≤ h := by
  simp [upcomingHours]

theorem pairwise_upcomingHours (zone : Zone) (clock : Int) (rows : List WeatherRow) :
    (upcomingHours zone clock rows).Pairwise (· < ·) := (Finset.sortedLT_sort _).pairwise

theorem targetHours_eq (cfg : PredictSettings) (zone : Zone) (clock : Int) (rows : List WeatherRow) :
    targetHours cfg zone clock (groupByHour rows).keys =
      sliceTo cfg.predictionHorizonHours (upcomingHours zone clock rows) := by
  have hnodup : ((groupByHour rows).keys.filter (fun h => decide (floorToHour (zone.wallAt clock) ≤ h))).Nodup :=
    (groupByHour rows).nodup.filter _
  have hperm : List.Perm
      (((groupByHour rows).keys.filter (fun h => decide (floorToHour (zone.wallAt clock) ≤ h))).mergeSort
        (fun h h' => decide (h ≤ h'))) (upcomingHours zone clock rows) := by
    have hnodup' : (upcomingHours zone clock rows).Nodup := (pairwise_upcomingHours zone clock rows).imp ne_of_lt
    refine (List.mergeSort_perm _ _).trans ((List.perm_ext_iff_of_nodup hnodup hnodup').mpr fun h => ?_)
    rw [mem_upcomingHours, List.mem_filter, groupByHour, Dict.mem_keys_build, decide_eq_true_iff]
  have hsorted := hperm.eq_of_pairwise' (List.pairwise_mergeSort' (· ≤ ·) _)
    ((pairwise_upcomingHours zone clock rows).imp le_of_lt)
  exact congrArg (sliceTo cfg.predictionHorizonHours) hsorted

theorem foldl_append_singleton (bucket : List WeatherRow) (rows : List WeatherRow) :
    (rows.foldl (fun old row => some (old.getD [] ++ [row])) (some bucket)).getD [] = bucket ++ rows := by
  induction rows generalizing bucket with
  | nil => simp
  | cons row rows ih => simp [ih]

theorem get?_groupByHour (rows : List WeatherRow) (hour : Int) :
    ((groupByHour rows).get? hour).getD [] = rows.filter (fun row => floorToHour row.time = hour) := by
  unfold groupByHour
  rw [Dict.get?_build]
  cases rows.filter (fun row => floorToHour row.time = hour) with
  | nil => rfl
  | cons row bucket => exact foldl_append_singleton [row] bucket

/-! ## The document -/

theorem mem_sliceTo {α : Type} {n : Int} {xs : List α} {x : α} (h : x ∈ sliceTo n xs) : x ∈ xs := by
  unfold sliceTo at h
  split at h <;> exact List.mem_of_mem_take h

theorem targetTime_forecastHour {bucket : List WeatherRow} {item : PredictionItem}
    (h : forecastHour cfg zone env hour bucket = .ok item) : item.targetTime = zone.utcOf hour := by
  cases bucket with
  | nil => cases h
  | cons first rest =>
      obtain ⟨best, -, h⟩ := bind_eq_ok h
      obtain rfl := Except.ok.inj h
      rfl

theorem targetTimes_forecastDocument {document : PredictionDocument} (hrows : env.weatherRows = .ok rows)
    (h : forecastDocument cfg zone env = .ok document) :
    document.predictions.map PredictionItem.targetTime =
      (sliceTo cfg.predictionHorizonHours (upcomingHours zone env.clock rows)).map zone.utcOf := by
  obtain ⟨version, -, h⟩ := bind_eq_ok h
  obtain ⟨rows', hrows', h⟩ := bind_eq_ok h
  obtain rfl := Except.ok.inj (hrows.symm.trans hrows')
  simp only at h
  split at h
  · cases h
  · split at h
    · cases h
    · obtain ⟨items, hitems, h⟩ := bind_eq_ok h
      obtain rfl := Except.ok.inj h
      rw [targetHours_eq] at hitems
      exact mapM_map hitems fun hour item hitem => targetTime_forecastHour hitem

theorem upcomingHours_ne_nil {document : PredictionDocument} (hrows : env.weatherRows = .ok rows)
    (h : forecastDocument cfg zone env = .ok document) :
    sliceTo cfg.predictionHorizonHours (upcomingHours zone env.clock rows) ≠ [] := by
  obtain ⟨version, -, h⟩ := bind_eq_ok h
  obtain ⟨rows', hrows', h⟩ := bind_eq_ok h
  obtain rfl := Except.ok.inj (hrows.symm.trans hrows')
  simp only at h
  split at h
  · cases h
  · split at h
    · cases h
    · rwa [targetHours_eq, List.isEmpty_iff] at *

theorem forecastDocument_worst {model : Features → ℚ} {version : Option String}
    (hload : Retry.retry PyError.typeError cfg.forecastRetryCount env.loadLatest = .ok version)
    (hmodel : ∀ features attempt, env.predict features attempt = .ok (model features))
    (hrows : env.weatherRows = .ok rows)
    (hhours : sliceTo cfg.predictionHorizonHours (upcomingHours zone env.clock rows) ≠ []) :
    ∃ document, forecastDocument cfg zone env = .ok document ∧
      List.Forall₂ (WorstCase zone model rows) (sliceTo cfg.predictionHorizonHours (upcomingHours zone env.clock rows))
        document.predictions ∧
      document.predictions.head?.map PredictionItem.predictedDemand = some document.predictedTaxiDemand := by
  have hitems : ∀ hour ∈ sliceTo cfg.predictionHorizonHours (upcomingHours zone env.clock rows),
      ∃ item, forecastHour cfg zone env hour (((groupByHour rows).get? hour).getD []) = .ok item ∧
        WorstCase zone model rows hour item := by
    intro hour hhour
    rw [get?_groupByHour]
    exact forecastHour_worst (retry_pos hload) hmodel (mem_upcomingHours.mp (mem_sliceTo hhour)).1
  obtain ⟨items, hok, hall⟩ := mapM_ok hitems
  have hne : items ≠ [] := by
    rintro rfl
    exact hhours (List.forall₂_nil_right_iff.mp hall)
  have hsome : rows.isEmpty = false := by
    cases rows with
    | nil => exact absurd (by simp [upcomingHours, sliceTo]) hhours
    | cons row rows => rfl
  unfold forecastDocument
  simp only [hload, hrows, hsome, targetHours_eq, bind, Except.bind, Bool.false_eq_true, ↓reduceIte, pure,
    Except.pure]
  rw [if_neg (by simpa using hhours)]
  simp only [hok]
  refine ⟨_, rfl, hall, ?_⟩
  cases items with
  | nil => exact absurd rfl hne
  | cons item items => rfl

theorem forecastDocument_none {version : Option String}
    (hload : Retry.retry PyError.typeError cfg.forecastRetryCount env.loadLatest = .ok version)
    (hrows : env.weatherRows = .ok rows)
    (hhours : sliceTo cfg.predictionHorizonHours (upcomingHours zone env.clock rows) = []) :
    ∃ message, forecastDocument cfg zone env = .error (.predictionError message) := by
  unfold forecastDocument
  simp only [hload, hrows, targetHours_eq, hhours, bind, Except.bind]
  split
  · exact ⟨_, rfl⟩
  · exact ⟨_, rfl⟩

end Hailcast
