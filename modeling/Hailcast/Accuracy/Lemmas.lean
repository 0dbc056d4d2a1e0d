import Hailcast.Accuracy.Check
import Hailcast.Forecast.PodForecast
import Hailcast.Lib.EventRun

/-!
# Where the demand of a record comes from
-/

namespace Hailcast

variable {cfg : PredictSettings} {nycOffset : Int → Int} {s : AccuracyState} {env : CheckEnv} {entry : AccuracyEntry}

/-- The check puts this entry. -/
def AccuracyState.Writes (cfg : PredictSettings) (nycOffset : Int → Int) (s : AccuracyState) (env : CheckEnv)
    (entry : AccuracyEntry) : Prop :=
  checkAndRecord cfg nycOffset s.newest s.world.service env = .ok (some entry)

/-- Demand and weather of the entry are those of one item of the document, for the entry's hour. -/
def AccuracyEntry.Matches (entry : AccuracyEntry) (newest : Option PredictionDocument) : Prop :=
  ∃ document item, newest = some document ∧ item ∈ document.predictions ∧ item.targetTime = entry.targetTime ∧
    entry.predictedDemand = item.predictedDemand ∧ entry.temperature = item.temperature ∧
    entry.humidity = item.humidity ∧ entry.isRaining = item.isRaining

/-- The last tick with a fresh forecast read the document that is still the newest, in the hour of `clock`, and
this document has exactly one item for the hour. -/
def AccuracyState.Aligned (cfg : PredictSettings) (s : AccuracyState) (clock : Int) : Prop :=
  0 ≤ cfg.predictionWindowMinutes ∧ ∃ document item, s.newest = some document ∧
    s.demandFrom = some (document, floorToHour clock) ∧ document.itemsAt (floorToHour clock) = [item]

/-- The remembered demand is the one that its document gives for its hour. -/
def AccuracyState.Sourced (cfg : PredictSettings) (s : AccuracyState) : Prop :=
  ∀ demand, s.world.service.lastPredictedDemand = some demand →
    ∃ document hour, s.demandFrom = some (document, hour) ∧
      ∀ clock, floorToHour clock = hour → demand = currentDemand cfg document clock

/-! ## The invariant -/

theorem readNewest_eq_ok {readLatest : Option PyError} {newest document : Option PredictionDocument}
    (h : readNewest readLatest newest = .ok document) : document = newest := by
  cases readLatest with
  | none => exact (Except.ok.inj h).symm
  | some exc => cases h

theorem currentDemand_floor (cfg : PredictSettings) (document : PredictionDocument) {clock clock' : Int}
    (h : floorToHour clock = floorToHour clock') :
    currentDemand cfg document clock = currentDemand cfg document clock' := by
  simp only [currentDemand, h]

theorem World.step_tick_demand (cfg : PredictSettings) (w : World) (env : TickEnv) :
    (w.step cfg (.tick env)).service.lastPredictedDemand =
      (env.freshDemand cfg).or w.service.lastPredictedDemand := by
  change (finalWorld (runScaling cfg env w)).service.lastPredictedDemand = _
  generalize finalWorld (runScaling cfg env w) = w', runScaling_result cfg env w = hres
  cases hres with
  | skipped hd => simp [hd]
  | failed s hdemand _ _ _ => exact hdemand
  | planned document baseline traffic adjusted w' hr _ happly =>
      rw [happly.service_eq.2, hr.freshDemand_eq]
      rfl

theorem TickEnv.freshDemand_eq_some {env : TickEnv} {demand : ℚ} (h : env.freshDemand cfg = some demand) :
    ∃ document, env.document = .ok (some document) ∧ demand = currentDemand cfg document env.demandClock := by
  unfold TickEnv.freshDemand at h
  split at h
  · rename_i document hd
    split at h
    · cases h
    · exact ⟨document, hd, (Option.some.inj h).symm⟩
  · cases h

theorem AccuracyState.Sourced.step (h : s.Sourced cfg) (e : AccuracyStep) :
    (s.step cfg nycOffset e).Sourced cfg := by
  cases e with
  | save document => exact h
  | check env =>
      simp only [AccuracyState.step]
      split <;> exact h
  | restart => intro demand hd; cases hd
  | tick env readLatest =>
      intro demand hd
      simp only [AccuracyState.step] at hd ⊢
      rw [World.step_tick_demand] at hd
      cases hf : (s.tickEnv env readLatest).freshDemand cfg with
      | none =>
          rw [hf] at hd
          exact h demand hd
      | some fresh =>
          rw [hf] at hd
          obtain rfl : fresh = demand := Option.some.inj hd
          -- a fresh demand comes from the newest document, at the clock of the tick
          obtain ⟨document, hdoc, rfl⟩ := TickEnv.freshDemand_eq_some hf
          have hnew : s.newest = some document := (readNewest_eq_ok hdoc).symm
          exact ⟨document, floorToHour env.demandClock, by simp [hnew]; rfl,
            fun clock hc => currentDemand_floor cfg document hc.symm⟩

/-! ## An aligned check -/

theorem recordIfNeeded_eq_some {threshold : ℚ} {putItem : Option PyError} {e : AccuracyEntry}
    (h : recordIfNeeded threshold putItem e = .ok (some entry)) : entry = e := by
  unfold recordIfNeeded at h
  simp only at h
  split at h
  · cases h
  · split at h
    · cases h
    · split at h
      · cases h
      · exact (Option.some.inj (Except.ok.inj h)).symm

theorem AccuracyState.Writes.entry_eq (h : s.Writes cfg nycOffset env entry) :
    ∃ predicted, s.world.service.lastPredictedDemand = some predicted ∧
      entry.predictedDemand = predicted ∧ entry.targetTime = floorToHour env.clock ∧
      (entry.localDate = entry.targetTime + nycOffset entry.targetTime ∧
        entry.weekday = weekdaySundayZero entry.localDate) ∧
      entry.temperature = (findWeatherItem cfg s.newest entry.targetTime).bind PredictionItem.temperature ∧
      entry.humidity = (findWeatherItem cfg s.newest entry.targetTime).bind PredictionItem.humidity ∧
      entry.isRaining = (findWeatherItem cfg s.newest entry.targetTime).bind PredictionItem.isRaining := by
  unfold AccuracyState.Writes checkAndRecord at h
  split at h
  · cases h
  · split at h
    · cases h
    · rename_i predicted hp
      obtain ⟨actual, _, h⟩ := bind_eq_ok h
      split at h
      · cases h
      · obtain ⟨document, hdoc, h⟩ := bind_eq_ok h
        obtain ⟨actualDemand, _, h⟩ := bind_eq_ok h
        obtain rfl : document = s.newest := readNewest_eq_ok hdoc
        split at h
        · rw [recordIfNeeded_eq_some h]
          exact ⟨predicted, hp, rfl, rfl, ⟨rfl, rfl⟩, rfl, rfl, rfl⟩
        · cases h
        · cases h

theorem mem_itemsAt {document : PredictionDocument} {item : PredictionItem} {time : Int} :
    item ∈ document.itemsAt time ↔ item ∈ document.predictions ∧ item.targetTime = time := by
  simp [PredictionDocument.itemsAt]

/-- Something at distance zero leaves no other choice for the closest. -/
theorem argmin_at_zero {α : Type} {f : α → Nat} {xs : List α} {x : α} (hx : x ∈ xs) (h : f x = 0) :
    ∃ y ∈ xs, xs.argmin f = some y ∧ f y = 0 := by
  cases hm : xs.argmin f with
  | none => rw [List.argmin_eq_none] at hm; simp [hm] at hx
  | some y =>
      have hle : f y ≤ f x := List.le_of_mem_argmin hx hm
      exact ⟨y, List.argmin_mem hm, rfl, Nat.le_zero.mp (h ▸ hle)⟩

theorem findWeatherItem_unique {document : PredictionDocument} {item : PredictionItem} {time : Int}
    (hw : 0 ≤ cfg.predictionWindowMinutes) (h : document.itemsAt time = [item]) :
    findWeatherItem cfg (some document) time = some item := by
  obtain ⟨hin, htarget⟩ := mem_itemsAt.mp (h ▸ List.mem_singleton_self item : item ∈ document.itemsAt time)
  obtain ⟨closest, hmem, hmin, hzero⟩ := argmin_at_zero (f := fun i : PredictionItem => (i.targetTime - time).natAbs)
    hin (by simp [htarget])
  have hclosest : closest.targetTime = time := by omega
  have hsame : closest ∈ document.itemsAt time := mem_itemsAt.mpr ⟨hmem, hclosest⟩
  obtain rfl : closest = item := by simpa [h] using hsame
  simp only [findWeatherItem, hmin]
  rw [if_neg (by unfold timedeltaMinutes; omega)]

theorem currentDemand_unique {document : PredictionDocument} {item : PredictionItem} {clock : Int}
    (hw : 0 ≤ cfg.predictionWindowMinutes) (h : document.itemsAt (floorToHour clock) = [item]) :
    currentDemand cfg document clock = item.predictedDemand := by
  obtain ⟨hin, htarget⟩ := mem_itemsAt.mp
    (h ▸ List.mem_singleton_self item : item ∈ document.itemsAt (floorToHour clock))
  obtain ⟨closest, _, hmin, hzero⟩ := argmin_at_zero (f := fun t : Int => (t - floorToHour clock).natAbs)
    (mem_keys_currentTotals.mpr ⟨item, hin, htarget⟩) (by simp)
  obtain rfl : closest = floorToHour clock := by omega
  rw [currentDemand_closest hmin, if_neg (by unfold timedeltaMinutes; omega)]
  simp [PredictionDocument.lastAt, h]

theorem AccuracyState.Sourced.matches (h : s.Sourced cfg) (ha : s.Aligned cfg env.clock)
    (hw : s.Writes cfg nycOffset env entry) : entry.Matches s.newest := by
  obtain ⟨predicted, hp, hdemand, htime, _, htemp, hhum, hrain⟩ := hw.entry_eq
  obtain ⟨hwin, document, item, hnew, hfrom, hitem⟩ := ha
  obtain ⟨document', hour, hfrom', hsource⟩ := h predicted hp
  obtain ⟨rfl, rfl⟩ : document = document' ∧ floorToHour env.clock = hour := by
    simpa using hfrom.symm.trans hfrom'
  have hmem : item ∈ document.itemsAt (floorToHour env.clock) := by rw [hitem]; exact List.mem_singleton_self item
  obtain ⟨hin, htarget⟩ := List.mem_filter.mp hmem
  have hfound : findWeatherItem cfg s.newest entry.targetTime = some item := by
    rw [hnew, htime]; exact findWeatherItem_unique hwin hitem
  rw [hfound] at htemp hhum hrain
  refine ⟨document, item, hnew, hin, ?_, ?_, htemp, hhum, hrain⟩
  · rw [htime]; simpa using htarget
  · rw [hdemand, hsource env.clock rfl, currentDemand_unique hwin hitem]

end Hailcast
