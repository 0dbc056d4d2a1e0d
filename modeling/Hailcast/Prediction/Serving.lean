import Hailcast.Lib.EventRun
import Hailcast.Prediction.Theorems

/-!
# From the weather to the scaler

The forecast scheduler and the scaling scheduler share the table: whatever fails between them, a tick acts on what the
model said for its hour.
-/

namespace Hailcast

variable {cfg : PredictSettings} {zone : Zone} {env : ForecastEnv} {document read : PredictionDocument}

/-! ## The service -/

structure PredictState where
  store : ForecastStore := {}
  world : World

inductive PredictEvent where
  | forecast (env : ForecastEnv)
  /-- A step of the scaler; a tick of it whose reader does not raise gets what the table serves. -/
  | scaler (e : ScalerStep)

def ForecastStore.serve (cfg : PredictSettings) (s : ForecastStore) (env : TickEnv) : TickEnv :=
  { env with document := env.document >>= fun _ => readLatestDb cfg.predictionWindowMinutes s.predictions }

def PredictState.step (cfg : PredictSettings) (zone : Zone) (s : PredictState) : PredictEvent → PredictState
  | .forecast env => { s with store := s.store.step cfg zone env }
  | .scaler (.tick env) => { s with world := s.world.step cfg (.tick (s.store.serve cfg env)) }
  | .scaler e => { s with world := s.world.step cfg e }

/-! ## The document of a forecast -/

/-- Whatever attempt answers, it says what the model says. -/
def ForecastEnv.Predicts (env : ForecastEnv) (model : Features → ℚ) : Prop :=
  ∀ features attempt demand, env.predict features attempt = .ok demand → demand = model features

theorem retry_answer {α : Type} {exc : PyError} {count : Nat} {fn : Nat → Except PyError α} {a : α}
    (h : Retry.retry exc count fn = .ok a) : ∃ attempt, fn attempt = .ok a := by
  unfold Retry.retry at h
  generalize 1 = attempt at h
  induction count generalizing attempt exc with
  | zero => cases h
  | succ count ih =>
      unfold Retry.retryFrom at h
      cases hfn : fn attempt with
      | ok b =>
          rw [hfn] at h
          obtain rfl := Except.ok.inj h
          exact ⟨attempt, hfn⟩
      | error e =>
          rw [hfn] at h
          exact ih (attempt + 1) h

section Model

variable {model : Features → ℚ} {hour : Int}

theorem tryRow_model (hmodel : env.Predicts model) {best best' : BestRow} {row : WeatherRow}
    (h : tryRow cfg env hour best row = .ok best') : best' = pickRow model hour best row := by
  obtain ⟨raw, hraw, h⟩ := bind_eq_ok h
  obtain ⟨attempt, hanswer⟩ := retry_answer hraw
  obtain rfl := Except.ok.inj h
  rw [hmodel _ _ _ hanswer]
  rfl

theorem foldlM_tryRow_predicts (hmodel : env.Predicts model) {rows : List WeatherRow} {best best' : BestRow}
    (h : rows.foldlM (tryRow cfg env hour) best = .ok best') : best' = rows.foldl (pickRow model hour) best := by
  induction rows generalizing best with
  | nil => exact (Except.ok.inj h).symm
  | cons row rows ih =>
      obtain ⟨next, hnext, h⟩ := bind_eq_ok h
      rw [List.foldl_cons, ← tryRow_model hmodel hnext]
      exact ih h

/-- An item that a forecast makes in spite of failed attempts is the one that a model which always answers gives. -/
theorem worstCase_of_forecastHour (hmodel : env.Predicts model) {rows : List WeatherRow} {item : PredictionItem}
    (h : forecastHour cfg zone env hour (rows.filter (fun row => floorToHour row.time = hour)) = .ok item) :
    WorstCase zone model rows hour item := by
  have hhour : ∃ row ∈ rows, floorToHour row.time = hour := by
    by_contra hnone
    have hempty : rows.filter (fun row => floorToHour row.time = hour) = [] := by
      rw [List.filter_eq_nil_iff]
      intro row hrow heq
      exact hnone ⟨row, hrow, by simpa using heq⟩
    rw [hempty] at h
    cases h
  have hcount : 0 < cfg.forecastRetryCount := by
    cases hbucket : rows.filter (fun row => floorToHour row.time = hour) with
    | nil => rw [hbucket] at h; cases h
    | cons first rest =>
        rw [hbucket] at h
        obtain ⟨best, hbest, _⟩ := bind_eq_ok h
        obtain ⟨next, hnext, _⟩ := bind_eq_ok hbest
        obtain ⟨raw, hraw, _⟩ := bind_eq_ok hnext
        exact retry_pos hraw
  obtain ⟨item', hitem', hworst⟩ : ∃ item, forecastHour cfg zone
      { env with predict := fun features _ => .ok (model features) } hour
        (rows.filter (fun row => floorToHour row.time = hour)) = .ok item ∧ WorstCase zone model rows hour item :=
    forecastHour_worst hcount (fun _ _ => rfl) hhour
  cases hbucket : rows.filter (fun row => floorToHour row.time = hour) with
  | nil => rw [hbucket] at h; cases h
  | cons first rest =>
      rw [hbucket] at h hitem'
      obtain ⟨best, hbest, h⟩ := bind_eq_ok h
      obtain ⟨best', hbest', hitem'⟩ := bind_eq_ok hitem'
      have hsame : best' = best := by
        rw [foldlM_tryRow_predicts hmodel hbest]
        exact foldlM_tryRow_predicts (fun _ _ _ hok => (Except.ok.inj hok).symm) hbest'
      subst hsame
      obtain rfl := Except.ok.inj h
      obtain rfl := Except.ok.inj hitem'
      exact hworst

theorem worstCase_of_forecastDocument (hmodel : env.Predicts model) {rows : List WeatherRow}
    (hrows : env.weatherRows = .ok rows) (h : forecastDocument cfg zone env = .ok document) :
    List.Forall₂ (WorstCase zone model rows)
      (sliceTo cfg.predictionHorizonHours (upcomingHours zone env.clock rows)) document.predictions := by
  obtain ⟨version, -, h⟩ := bind_eq_ok h
  obtain ⟨rows', hrows', h⟩ := bind_eq_ok h
  obtain rfl := Except.ok.inj (hrows.symm.trans hrows')
  simp only at h
  split at h
  · cases h
  · split at h
    · cases h
    · obtain ⟨items, hitems, h⟩ := bind_eq_ok h
      obtain rfl := Except.ok.inj h
      rw [targetHours_eq] at hitems
      refine (mapM_eq_ok_iff.mp hitems).imp fun hour item hitem => ?_
      rw [get?_groupByHour] at hitem
      exact worstCase_of_forecastHour hmodel hitem

end Model

/-! ## The document that is served -/

theorem mem_copies {n : Nat} (hn : 0 < n) {items : List PredictionItem} {item : PredictionItem} :
    item ∈ copies n items ↔ item ∈ items := by
  simp [copies, List.mem_flatten, List.mem_replicate, hn.ne']

theorem hourAfter_inj {clock : Int} {i j : ℕ} (h : hourAfter clock i = hourAfter clock j) : i = j := by
  simp only [hourAfter, hourMicros] at h
  omega

theorem lastAt_eq {time : Int} {demand : ℚ}
    (hsome : ∃ item ∈ document.predictions, item.targetTime = time)
    (hall : ∀ item ∈ document.predictions, item.targetTime = time → item.predictedDemand = demand) :
    document.lastAt time = demand := by
  unfold PredictionDocument.lastAt
  cases hlast : (document.itemsAt time).getLast? with
  | none =>
      obtain ⟨item, hitem, htime⟩ := hsome
      have hmem : item ∈ document.itemsAt time := mem_itemsAt.mpr ⟨hitem, htime⟩
      rw [List.getLast?_eq_none_iff.mp hlast] at hmem
      cases hmem
  | some item =>
      obtain ⟨hitem, htime⟩ := mem_itemsAt.mp (List.mem_of_getLast? hlast)
      exact hall item hitem htime

/-- The hour of the forecast that is served `i` hours after its first one: after the last one this is taken as long as
the window reaches, and then the first one. -/
def servedHour (cfg : PredictSettings) (count i : ℕ) : ℕ :=
  if i < count then i
  else if ((i + 1 - count : ℕ) : Int) * 60 ≤ cfg.predictionWindowMinutes then count - 1
  else 0

theorem readLatestDb_demand {windowMinutes : Int} {rows : List PredictionRow}
    (h : readLatestDb windowMinutes rows = .ok (some read)) :
    read.predictedTaxiDemand = (read.predictions.head?.map PredictionItem.predictedDemand).getD 0 := by
  unfold readLatestDb at h
  split at h
  · cases h
  · split at h
    · cases h
    · obtain ⟨items, _, h⟩ := bind_eq_ok h
      obtain rfl := Option.some.inj (Except.ok.inj h)
      rfl

section Served

variable {items : List PredictionItem} {clock : Int} {i : ℕ}

/-- The document serves every item, one or more times, of consecutive hours. -/
structure Serves (read : PredictionDocument) (clock : Int) (items : List PredictionItem) : Prop where
  times : items.map PredictionItem.targetTime = (List.range items.length).map (hourAfter clock)
  nonempty : items ≠ []
  mem : ∀ item, item ∈ read.predictions ↔ item ∈ items
  sorted : read.predictions.Pairwise (fun i j => i.targetTime ≤ j.targetTime)
  demand : read.predictedTaxiDemand = (read.predictions.head?.map PredictionItem.predictedDemand).getD 0

namespace Serves

theorem targetTime (h : Serves read clock items) {item : PredictionItem} (hitem : items[i]? = some item) :
    item.targetTime = hourAfter clock i := by
  obtain ⟨hi, rfl⟩ := List.getElem?_eq_some_iff.mp hitem
  have htimes := congrArg (fun times => times[i]?) h.times
  simpa [hi] using htimes

theorem eq_of_targetTime (h : Serves read clock items) {item item' : PredictionItem} (hitem : items[i]? = some item)
    (hmem : item' ∈ read.predictions) (htime : item'.targetTime = hourAfter clock i) : item' = item := by
  obtain ⟨j, hj⟩ := List.mem_iff_getElem?.mp ((h.mem item').mp hmem)
  obtain rfl : j = i := hourAfter_inj ((h.targetTime hj).symm.trans htime)
  exact Option.some.inj (hj.symm.trans hitem)

theorem mem_keys (h : Serves read clock items) {time : Int} :
    time ∈ (currentTotals read).keys ↔ ∃ i, i < items.length ∧ time = hourAfter clock i := by
  rw [mem_keys_currentTotals]
  constructor
  · rintro ⟨item, hmem, rfl⟩
    obtain ⟨i, hi⟩ := List.mem_iff_getElem?.mp ((h.mem item).mp hmem)
    exact ⟨i, (List.getElem?_eq_some_iff.mp hi).1, h.targetTime hi⟩
  · rintro ⟨i, hi, rfl⟩
    exact ⟨items[i], (h.mem _).mpr (List.getElem_mem hi), h.targetTime (List.getElem?_eq_getElem hi)⟩

theorem lastAt (h : Serves read clock items) {item : PredictionItem} (hitem : items[i]? = some item) :
    read.lastAt (hourAfter clock i) = item.predictedDemand := by
  refine lastAt_eq ⟨item, (h.mem item).mpr (List.mem_of_getElem? hitem), h.targetTime hitem⟩ fun item' hmem htime => ?_
  rw [h.eq_of_targetTime hitem hmem htime]

theorem first (h : Serves read clock items) {item : PredictionItem} (hitem : items[0]? = some item) :
    read.predictedTaxiDemand = item.predictedDemand := by
  have hsorted := h.sorted
  have hread : item ∈ read.predictions := (h.mem item).mpr (List.mem_of_getElem? hitem)
  rw [h.demand]
  cases hpredictions : read.predictions with
  | nil => rw [hpredictions] at hread; cases hread
  | cons head rest =>
      rw [hpredictions] at hsorted hread
      have hhead : head ∈ read.predictions := by rw [hpredictions]; exact List.mem_cons_self
      obtain ⟨j, hj⟩ := List.mem_iff_getElem?.mp ((h.mem head).mp hhead)
      have hle : head.targetTime ≤ item.targetTime := by
        rcases List.mem_cons.mp hread with rfl | hmem
        · exact le_refl _
        · exact List.rel_of_pairwise_cons hsorted hmem
      rw [h.targetTime hj, h.targetTime hitem] at hle
      obtain rfl : j = 0 := by
        simp only [hourAfter, hourMicros] at hle
        omega
      obtain rfl := Option.some.inj (hj.symm.trans hitem)
      rfl

/-- What the scaler takes for the hour, `i` hours after the first one of the forecast. -/
theorem currentDemand (h : Serves read clock items) (hwindow : 0 ≤ cfg.predictionWindowMinutes) {now : Int}
    (hnow : floorToHour now = hourAfter clock i) :
    ∃ item, items[servedHour cfg items.length i]? = some item ∧ currentDemand cfg read now = item.predictedDemand := by
  have hpos : 0 < items.length := List.length_pos_of_ne_nil h.nonempty
  by_cases hi : i < items.length
  · have hitem : items[i]? = some items[i] := List.getElem?_eq_getElem hi
    refine ⟨items[i], by rw [servedHour, if_pos hi, hitem], ?_⟩
    obtain ⟨closest, _, hmin, hzero⟩ := argmin_at_zero (f := fun t : Int => (t - floorToHour now).natAbs)
      (h.mem_keys.mpr ⟨i, hi, rfl⟩) (by simp [hnow])
    obtain rfl : closest = floorToHour now := by omega
    rw [currentDemand_closest hmin, if_neg (by unfold timedeltaMinutes; omega), hnow, h.lastAt hitem]
  · -- the last hour is the closest one
    have hlast : closestTo (floorToHour now) (currentTotals read).keys = some (hourAfter clock (items.length - 1)) := by
      have hkey : hourAfter clock (items.length - 1) ∈ (currentTotals read).keys :=
        h.mem_keys.mpr ⟨items.length - 1, by omega, rfl⟩
      cases hclosest : closestTo (floorToHour now) (currentTotals read).keys with
      | none =>
          unfold closestTo at hclosest
          rw [List.argmin_eq_none] at hclosest
          rw [hclosest] at hkey
          cases hkey
      | some closest =>
          obtain ⟨j, hj, rfl⟩ := h.mem_keys.mp (closestTo_mem hclosest)
          have hle := List.le_of_mem_argmin (f := fun t : Int => (t - floorToHour now).natAbs) hkey hclosest
          rw [hnow] at hle
          simp only [hourAfter, hourMicros] at hle
          have hsame : j = items.length - 1 := by omega
          rw [hsame]
    have hdistance : (hourAfter clock (items.length - 1) - floorToHour now).natAbs =
        (i + 1 - items.length) * 3600000000 := by
      rw [hnow]
      simp only [hourAfter, hourMicros]
      omega
    rw [currentDemand_closest hlast, hdistance, servedHour, if_neg hi]
    by_cases hreach : ((i + 1 - items.length : ℕ) : Int) * 60 ≤ cfg.predictionWindowMinutes
    · have hitem : items[items.length - 1]? = some items[items.length - 1] := List.getElem?_eq_getElem (by omega)
      refine ⟨_, by rw [if_pos hreach, hitem], ?_⟩
      rw [if_neg (by unfold timedeltaMinutes; push_cast; omega), h.lastAt hitem]
    · have hitem : items[0]? = some items[0] := List.getElem?_eq_getElem hpos
      refine ⟨_, by rw [if_neg hreach, hitem], ?_⟩
      rw [if_pos (by unfold timedeltaMinutes; push_cast; omega), h.first hitem]

end Serves

end Served

/-! ## Runs -/

/-- The forecast is made and its rows get into the table, whatever is reported. -/
def ForecastEnv.Commits (cfg : PredictSettings) (zone : Zone) (env : ForecastEnv) : Prop :=
  (∃ document, forecastDocument cfg zone env = .ok document) ∧ env.inserted cfg ≠ 0

/-- The forecast publishes the hours from its current one on. -/
def ForecastEnv.Consecutive (cfg : PredictSettings) (zone : Zone) (env : ForecastEnv) : Prop :=
  ∀ document, forecastDocument cfg zone env = .ok document →
    document.predictions.map PredictionItem.targetTime =
      (List.range document.predictions.length).map (hourAfter env.clock)

/-- Forecasts come in the order of their times. -/
def PredictEvent.InOrder (cfg : PredictSettings) (zone : Zone) (s : PredictState) : PredictEvent → Prop
  | .forecast env => env.Later cfg zone s.store
  | .scaler _ => True

def PredictEvent.Quiet (cfg : PredictSettings) (zone : Zone) : PredictEvent → Prop
  | .forecast env => ¬ env.Commits cfg zone
  | .scaler _ => True

theorem predictions_of_not_commits (h : ¬ env.Commits cfg zone) (s : ForecastStore) :
    (s.step cfg zone env).predictions = s.predictions := by
  cases hdocument : forecastDocument cfg zone env with
  | error exc => rw [step_of_no_document hdocument]
  | ok document =>
      have hins : env.inserted cfg = 0 := by
        by_contra hne
        exact h ⟨⟨document, hdocument⟩, hne⟩
      simpa [hins, copies] using (step_saved hdocument s).2

theorem PredictState.predictions_of_quiet {s : PredictState} {events : List PredictEvent}
    (h : ∀ e ∈ events, e.Quiet cfg zone) :
    (EventRun.run (PredictState.step cfg zone) s events).store.predictions = s.store.predictions := by
  induction events generalizing s with
  | nil => rfl
  | cons e events ih =>
      rw [EventRun.run_cons, ih fun e' he' => h e' (List.mem_cons_of_mem _ he')]
      cases e with
      | forecast env => exact predictions_of_not_commits (h _ List.mem_cons_self) s.store
      | scaler e => cases e <;> rfl

/-- After a forecast that commits, the table serves its items. -/
theorem read_of_commits (hdocument : forecastDocument cfg zone env = .ok document) (hins : env.inserted cfg ≠ 0)
    {s : ForecastStore} (hlater : env.Later cfg zone s) :
    ∃ read, readLatestDb cfg.predictionWindowMinutes (s.step cfg zone env).predictions = .ok (some read) ∧
      read.generatedAt = env.generatedClock ∧
      read.predictions = (copies (env.inserted cfg) document.predictions).mergeSort byTargetTime ∧
      ∀ item, item ∈ read.predictions ↔ item ∈ document.predictions := by
  obtain ⟨htime, hitems⟩ := forecastDocument_eq_ok hdocument
  have hpos : 0 < env.inserted cfg := Nat.pos_of_ne_zero hins
  have hcopies : copies (env.inserted cfg) document.predictions ≠ [] := by
    obtain ⟨item, hitem⟩ := List.exists_mem_of_ne_nil _ hitems
    exact List.ne_nil_of_mem ((mem_copies hpos).mpr hitem)
  have hrows : ∀ row ∈ s.predictions, row.generatedAt < document.generatedAt := by
    rw [htime]
    exact hlater document hdocument
  obtain ⟨read, hread, hgenerated, hpredictions⟩ : ∃ read, readLatestDb cfg.predictionWindowMinutes
      (s.predictions ++ (copies (env.inserted cfg) document.predictions).map document.row) = .ok (some read) ∧
        read.generatedAt = document.generatedAt ∧
          read.predictions = (copies (env.inserted cfg) document.predictions).mergeSort byTargetTime :=
    readLatestDb_append hrows hcopies
  rw [← (step_saved hdocument s).2] at hread
  refine ⟨read, hread, hgenerated.trans htime, hpredictions, fun item => ?_⟩
  rw [hpredictions, List.mem_mergeSort, mem_copies hpos]

/-- The same for a forecast of consecutive hours. -/
theorem serves_of_commits (hdocument : forecastDocument cfg zone env = .ok document) (hins : env.inserted cfg ≠ 0)
    (htimes : env.Consecutive cfg zone) {s : ForecastStore} (hlater : env.Later cfg zone s) :
    ∃ read, readLatestDb cfg.predictionWindowMinutes (s.step cfg zone env).predictions = .ok (some read) ∧
      read.generatedAt = env.generatedClock ∧ Serves read env.clock document.predictions := by
  obtain ⟨-, hitems⟩ := forecastDocument_eq_ok hdocument
  obtain ⟨read, hread, hgenerated, hpredictions, hmem⟩ := read_of_commits hdocument hins hlater
  refine ⟨read, hread, hgenerated, htimes document hdocument, hitems, hmem, ?_, readLatestDb_demand hread⟩
  rw [hpredictions]
  have htrans : ∀ a b c : PredictionItem, byTargetTime a b → byTargetTime b c → byTargetTime a c := by
    intro a b c hab hbc
    simp only [byTargetTime, decide_eq_true_eq] at *
    omega
  have htotal : ∀ a b : PredictionItem, byTargetTime a b || byTargetTime b a := by
    intro a b
    simp only [byTargetTime, Bool.or_eq_true, decide_eq_true_eq]
    omega
  exact (List.pairwise_mergeSort htrans htotal _).imp fun h => by simpa [byTargetTime] using h

theorem TickResult.lastPredictedDemand {w w' : World} {tick : TickEnv} {demand : ℚ} (h : TickResult cfg tick w w')
    (hfresh : tick.freshDemand cfg = some demand) : w'.service.lastPredictedDemand = some demand := by
  cases h with
  | skipped hd => rw [hfresh] at hd; cases hd
  | failed s hdemand _ _ _ => rw [World.withService_service, hdemand, hfresh]; rfl
  | planned document baseline traffic adjusted w' hreach _ happly =>
      rw [happly.service_eq.2]
      rw [hreach.freshDemand_eq] at hfresh
      exact hfresh

/-- The greatest demand that the model has for the rows of the hour, from zero on and in hundredths. -/
def WorstDemand (model : Features → ℚ) (rows : List WeatherRow) (hour : Int) (demand : ℚ) : Prop :=
  ∃ worst, IsGreatest {d | ∃ row ∈ rows, floorToHour row.time = hour ∧ d = demandAt model hour row} worst ∧
    demand = pyRound (max 0 worst) 2

/-- The hours that the forecast publishes. -/
def ForecastEnv.hours (cfg : PredictSettings) (zone : Zone) (env : ForecastEnv) (rows : List WeatherRow) : List Int :=
  sliceTo cfg.predictionHorizonHours (upcomingHours zone env.clock rows)

/-- A tick that finds a fresh document acts on the newest forecast whose rows are in the table, however often they are
and whatever has failed since: on the worst case of the rows of its own hour, and on another hour only if the forecast
does not reach it. -/
theorem scaler_follows_forecast (cfg : PredictSettings) (zone : Zone) (hwindow : 0 ≤ cfg.predictionWindowMinutes)
    (s : PredictState) (before after : List PredictEvent) (env : ForecastEnv) (model : Features → ℚ)
    (rows : List WeatherRow) (hmodel : env.Predicts model) (hrows : env.weatherRows = .ok rows)
    (hcommits : env.Commits cfg zone) (hconsecutive : env.Consecutive cfg zone)
    (hlater : env.Later cfg zone (EventRun.run (PredictState.step cfg zone) s before).store)
    (hquiet : ∀ e ∈ after, e.Quiet cfg zone) (tick : TickEnv) (hreads : ∃ answer, tick.document = .ok answer)
    (hfresh : totalSeconds (tick.ageClock - env.generatedClock) ≤ cfg.predictionMaxAgeSeconds) (i : ℕ)
    (hnow : floorToHour tick.demandClock = hourAfter env.clock i) :
    ∃ hour demand, (env.hours cfg zone rows)[servedHour cfg (env.hours cfg zone rows).length i]? = some hour ∧
      zone.utcOf hour = hourAfter env.clock (servedHour cfg (env.hours cfg zone rows).length i) ∧
      WorstDemand model rows hour demand ∧
      (EventRun.run (PredictState.step cfg zone) s
        (before ++ .forecast env :: (after ++ [.scaler (.tick tick)]))).world.service.lastPredictedDemand =
          some demand := by
  obtain ⟨⟨document, hdocument⟩, hins⟩ := hcommits
  obtain ⟨read, hread, hgenerated, hserves⟩ := serves_of_commits hdocument hins hconsecutive hlater
  have hworst := worstCase_of_forecastDocument hmodel hrows hdocument
  have hlength : document.predictions.length = (env.hours cfg zone rows).length := hworst.length_eq.symm
  obtain ⟨item, hitem, hdemand⟩ := hserves.currentDemand hwindow hnow
  rw [hlength] at hitem
  obtain ⟨hour, hhour, hcase⟩ : ∃ hour, (env.hours cfg zone rows)[servedHour cfg (env.hours cfg zone rows).length i]? =
      some hour ∧ WorstCase zone model rows hour item := by
    obtain ⟨hlt, rfl⟩ := List.getElem?_eq_some_iff.mp hitem
    rw [hlength] at hlt
    exact ⟨_, List.getElem?_eq_getElem hlt, List.forall₂_iff_get.mp hworst |>.2 _ hlt _⟩
  obtain ⟨worst, hgreatest, hvalue, _⟩ := hcase.worst
  refine ⟨hour, item.predictedDemand, hhour, ?_, ⟨worst, hgreatest, hvalue⟩, ?_⟩
  · rw [← hcase.targetTime]
    exact hserves.targetTime hitem
  · rw [EventRun.run_append, EventRun.run_cons, EventRun.run_append, EventRun.run_cons, EventRun.run_nil]
    generalize hstate : EventRun.run (PredictState.step cfg zone)
      ((EventRun.run (PredictState.step cfg zone) s before).step cfg zone (.forecast env)) after = s'
    have hpredictions : s'.store.predictions =
        ((EventRun.run (PredictState.step cfg zone) s before).store.step cfg zone env).predictions := by
      rw [← hstate, PredictState.predictions_of_quiet hquiet]
      rfl
    obtain ⟨answer, hanswer⟩ := hreads
    have hserved : (s'.store.serve cfg tick).document = .ok (some read) := by
      simp only [ForecastStore.serve, hanswer, hpredictions, hread]
      rfl
    refine TickResult.lastPredictedDemand (runScaling_result cfg (s'.store.serve cfg tick) s'.world) ?_
    have hage : ¬ cfg.predictionMaxAgeSeconds <
        totalSeconds ((s'.store.serve cfg tick).ageClock - read.generatedAt) := by
      rw [hgenerated]
      exact not_lt.mpr hfresh
    simp only [TickEnv.freshDemand, hserved]
    rw [if_neg hage, ← hdemand]
    rfl

theorem springForecast_consecutive : (springForecast 0).Consecutive {} newYork := by
  intro document hdocument
  have hrows : (springForecast 0).weatherRows = .ok [⟨springHour, 20, 50, false⟩] := by simp [springForecast]
  have hlabels : HalfHourly newYork (springForecast 0).clock [⟨springHour, 20, 50, false⟩] := by
    unfold HalfHourly
    decide +kernel
  have htimes := targetTimes_forecastDocument hrows hdocument
  have hlength : document.predictions.length =
      (sliceTo 4 (upcomingHours newYork (springForecast 0).clock [⟨springHour, 20, 50, false⟩])).length := by
    simpa using congrArg List.length htimes
  rw [htimes, hlength, show ({} : PredictSettings).predictionHorizonHours = 4 from rfl,
    consecutive_iff newYork_hourly hlabels (prefix_sliceTo _ _)]
  intro i hi hrep
  have hfour : (sliceTo 4 (upcomingHours newYork (springForecast 0).clock [⟨springHour, 20, 50, false⟩])).length ≤ 4 :=
    List.length_take_le _ _
  have hback := (newYork_hourly.repeated_iff _).mp hrep
  have hclock : floorToHour (springForecast 0).clock = 1772953200000000 := by decide +kernel
  simp only [hourAfter, hclock, Zone.wallAt, newYork, hourMicros] at hback
  split_ifs at hback <;> omega

theorem springForecast_commits : (springForecast 0).Commits {} newYork := by
  have hhours : sliceTo 4 (upcomingHours newYork (springForecast 0).clock [⟨springHour, 20, 50, false⟩]) ≠ [] := by
    decide +kernel
  obtain ⟨document, hok, -⟩ := @forecastDocument_worst {} newYork (springForecast 0) _ (fun _ => 10) (some "v1") rfl
    (fun _ _ => rfl) (by simp [springForecast]) hhours
  exact ⟨⟨document, hok⟩, by decide⟩

theorem springForecast_hours : (springForecast 0).hours {} newYork [⟨springHour, 20, 50, false⟩] = [springHour] := by
  have hset : ([(⟨springHour, 20, 50, false⟩ : WeatherRow)].map fun row => floorToHour row.time).toFinset.filter
      (fun h => floorToHour (newYork.wallAt (springForecast 0).clock) ≤ h) = {springHour} := by
    decide +kernel
  rw [ForecastEnv.hours, upcomingHours, hset, Finset.sort_singleton]
  rfl

/-- A tick ten minutes after the forecast. -/
def springTick : TickEnv where
  document := .ok none
  ageClock := (springForecast 0).clock + 600000000
  demandClock := (springForecast 0).clock + 600000000
  trafficBody := .ok none
  cooldownClock := (springForecast 0).clock + 600000000
  patch := fun _ => .applied 0
  appliedClock := (springForecast 0).clock + 600000000
  history := .commits 0

theorem scaler_follows_forecast_spring :
    ∃ demand, WorstDemand (fun _ => 10) [⟨springHour, 20, 50, false⟩] springHour demand ∧
      (EventRun.run (PredictState.step {} newYork) { world := { minReplicaCount := 1 } }
        [.forecast (springForecast 0), .forecast (refusedForecast 0), .scaler .restart,
          .scaler (.tick springTick)]).world.service.lastPredictedDemand = some demand := by
  have hquiet : ∀ e ∈ [PredictEvent.forecast (refusedForecast 0), .scaler .restart], e.Quiet {} newYork := by
    intro e he
    simp only [List.mem_cons, List.not_mem_nil, or_false] at he
    rcases he with rfl | rfl
    · intro hcommits
      exact hcommits.2 (by decide)
    · trivial
  have hlater : (springForecast 0).Later {} newYork {} := by
    intro document _ row hrow
    cases hrow
  obtain ⟨hour, demand, hhour, _, hworst, hlast⟩ := scaler_follows_forecast {} newYork (by decide)
    { world := { minReplicaCount := 1 } } [] [.forecast (refusedForecast 0), .scaler .restart] (springForecast 0)
    (fun _ => 10) [⟨springHour, 20, 50, false⟩] (fun _ _ _ h => (Except.ok.inj h).symm) (by simp [springForecast])
    springForecast_commits springForecast_consecutive hlater hquiet springTick ⟨_, rfl⟩ (by decide +kernel) 0
    (by decide +kernel)
  rw [springForecast_hours] at hhour
  obtain rfl : springHour = hour := Option.some.inj hhour
  exact ⟨demand, hworst, hlast⟩

end Hailcast
