import Hailcast.Prediction.Serving
import Hailcast.Schedule.Interval

/-!
# The age of the forecast

The forecast scheduler executes one run after the other, and the scaler ticks in between. How old the newest document is
then follows from the times of the runs. Times are in seconds.
-/

namespace Hailcast

/-- A run of the forecast scheduler, and what the scaler does up to the next one. -/
structure ForecastPeriod where
  run : SchedulerRun
  env : ForecastEnv
  steps : List ScalerStep

structure PredictLoop where
  loop : SchedulerLoop
  service : PredictState

namespace PredictLoop

/-- After the run of the period. -/
def forecast (cfg : PredictSettings) (zone : Zone) (s : PredictLoop) (period : ForecastPeriod) : PredictState :=
  s.service.step cfg zone (.forecast period.env)

/-- After these steps of the scaler too. -/
def scaled (cfg : PredictSettings) (zone : Zone) (s : PredictLoop) (period : ForecastPeriod)
    (steps : List ScalerStep) : PredictState :=
  EventRun.run (PredictState.step cfg zone) (s.forecast cfg zone period) (steps.map .scaler)

def step (scheduler : IntervalScheduler) (cfg : PredictSettings) (zone : Zone) (s : PredictLoop)
    (period : ForecastPeriod) : PredictLoop :=
  ⟨scheduler.step s.loop period.run, s.scaled cfg zone period period.steps⟩

/-- The run takes `longest` at most and makes its document, if it makes one, before it ends; the ticks come between this
run and the next, and their reader does not raise. -/
structure Timed (scheduler : IntervalScheduler) (longest : ℚ) (s : PredictLoop) (period : ForecastPeriod) : Prop where
  short : period.run.duration ≤ longest
  starts : s.loop.clock ≤ totalSeconds period.env.generatedClock
  ends : totalSeconds period.env.generatedClock < s.loop.clock + period.run.duration
  ticks : ∀ tick, .tick tick ∈ period.steps → totalSeconds tick.ageClock ≤ (scheduler.step s.loop period.run).clock ∧
    ∃ answer, tick.document = .ok answer

/-- No row is younger than a run before can have made it. -/
def Dated (scheduler : IntervalScheduler) (longest : ℚ) (s : PredictLoop) : Prop :=
  ∀ row ∈ s.service.store.predictions, totalSeconds row.generatedAt < s.loop.clock - scheduler.interval + longest

variable {scheduler : IntervalScheduler} {longest : ℚ} {cfg : PredictSettings} {zone : Zone} {s : PredictLoop}
  {period : ForecastPeriod} {steps : List ScalerStep}

theorem lt_of_totalSeconds {t t' : Int} (h : totalSeconds t < totalSeconds t') : t < t' := by
  by_contra hle
  exact absurd (totalSeconds_mono (not_lt.mp hle)) (not_le.mpr h)

theorem totalSeconds_sub (t t' : Int) : totalSeconds (t - t') = totalSeconds t - totalSeconds t' := by
  unfold totalSeconds
  push_cast
  ring

theorem predictions_scaled (steps : List ScalerStep) :
    (s.scaled cfg zone period steps).store.predictions = (s.service.store.step cfg zone period.env).predictions := by
  have hquiet : ∀ e ∈ steps.map PredictEvent.scaler, e.Quiet cfg zone := by
    intro e he
    obtain ⟨step, -, rfl⟩ := List.mem_map.mp he
    trivial
  rw [scaled, PredictState.predictions_of_quiet hquiet]
  rfl

/-- A forecast adds rows of its own time only. -/
theorem mem_predictions_step {env : ForecastEnv} {store : ForecastStore} {row : PredictionRow}
    (h : row ∈ (store.step cfg zone env).predictions) :
    row ∈ store.predictions ∨ row.generatedAt = env.generatedClock := by
  cases hdocument : forecastDocument cfg zone env with
  | error exc => exact Or.inl (step_of_no_document hdocument store ▸ h)
  | ok document =>
      rw [(step_saved hdocument store).2] at h
      cases List.mem_append.mp h with
      | inl hold => exact Or.inl hold
      | inr hnew =>
          obtain ⟨item, -, rfl⟩ := List.mem_map.mp hnew
          exact Or.inr (forecastDocument_eq_ok hdocument).1

theorem Dated.step (h : s.Dated scheduler longest) (hlongest : longest ≤ scheduler.interval)
    (ht : s.Timed scheduler longest period) : (s.step scheduler cfg zone period).Dated scheduler longest := by
  intro row hrow
  have hclock : (s.step scheduler cfg zone period).loop.clock = s.loop.clock + scheduler.interval := by
    rw [PredictLoop.step, IntervalScheduler.step_clock, max_eq_right (ht.short.trans hlongest)]
  rw [hclock]
  have hmem : row ∈ (s.service.store.step cfg zone period.env).predictions := by
    rw [← predictions_scaled period.steps]
    exact hrow
  cases mem_predictions_step hmem with
  | inl hold =>
      have hdated := h row hold
      have hinterval := (period.run.duration_nonneg.trans ht.short).trans hlongest
      linarith
  | inr hnew =>
      rw [hnew]
      have hends := ht.ends
      have hshort := ht.short
      linarith

theorem Dated.later (h : s.Dated scheduler longest) (hlongest : longest ≤ scheduler.interval)
    (ht : s.Timed scheduler longest period) : period.env.Later cfg zone s.service.store := by
  intro document _ row hrow
  have hdated := h row hrow
  have hstarts := ht.starts
  exact lt_of_totalSeconds (by linarith)

theorem dated_run (hlongest : longest ≤ scheduler.interval) (h : s.Dated scheduler longest)
    {periods : List ForecastPeriod}
    (hrun : EventRun.Along (step scheduler cfg zone) (Timed scheduler longest) s periods) :
    (EventRun.run (step scheduler cfg zone) s periods).Dated scheduler longest :=
  hrun.invariant (fun _ _ hdated ht => hdated.step hlongest ht) h

/-! ## One tick -/

variable {tick : TickEnv}

theorem serve_document (hreads : ∃ answer, tick.document = .ok answer) (steps : List ScalerStep) :
    ((s.scaled cfg zone period steps).store.serve cfg tick).document =
      readLatestDb cfg.predictionWindowMinutes (s.service.store.step cfg zone period.env).predictions := by
  obtain ⟨answer, hanswer⟩ := hreads
  simp only [ForecastStore.serve, hanswer, predictions_scaled]
  rfl

theorem tick_fresh (hdated : s.Dated scheduler longest) (hlongest : longest ≤ scheduler.interval)
    (ht : s.Timed scheduler longest period) (hage : scheduler.interval ≤ cfg.predictionMaxAgeSeconds)
    (hcommits : period.env.Commits cfg zone) (htick : .tick tick ∈ period.steps) (steps : List ScalerStep) :
    ∃ document read, forecastDocument cfg zone period.env = .ok document ∧
      (∀ item, item ∈ read.predictions ↔ item ∈ document.predictions) ∧
      ((s.scaled cfg zone period steps).store.serve cfg tick).freshDemand cfg =
        some (currentDemand cfg read tick.demandClock) := by
  obtain ⟨⟨document, hdocument⟩, hins⟩ := hcommits
  obtain ⟨hbefore, hreads⟩ := ht.ticks tick htick
  obtain ⟨read, hread, hgenerated, -, hmem⟩ := read_of_commits hdocument hins (hdated.later hlongest ht)
  refine ⟨document, read, hdocument, hmem, ?_⟩
  have hfresh : ¬ cfg.predictionMaxAgeSeconds < totalSeconds (tick.ageClock - read.generatedAt) := by
    rw [IntervalScheduler.step_clock, max_eq_right (ht.short.trans hlongest)] at hbefore
    have hstarts := ht.starts
    rw [hgenerated, totalSeconds_sub]
    linarith
  simp only [TickEnv.freshDemand, serve_document hreads, hread]
  exact if_neg hfresh

theorem tick_stale (hdated : s.Dated scheduler longest) (hfails : ¬ period.env.Commits cfg zone)
    (hlate : s.loop.clock - scheduler.interval + longest + cfg.predictionMaxAgeSeconds ≤ totalSeconds tick.ageClock)
    (hreads : ∃ answer, tick.document = .ok answer) (steps : List ScalerStep) :
    ((s.scaled cfg zone period steps).store.serve cfg tick).freshDemand cfg = none := by
  simp only [TickEnv.freshDemand, serve_document hreads, predictions_of_not_commits hfails]
  cases hread : readLatestDb cfg.predictionWindowMinutes s.service.store.predictions with
  | error exc => rfl
  | ok document? =>
      cases document? with
      | none => rfl
      | some document =>
          obtain ⟨row, hrow, hgenerated⟩ := readLatestDb_mem hread
          have hrow' := hdated row hrow
          have hold : cfg.predictionMaxAgeSeconds < totalSeconds (tick.ageClock - document.generatedAt) := by
            rw [← hgenerated, totalSeconds_sub]
            linarith
          exact if_pos hold

end PredictLoop

/-- A tick that takes no demand leaves the level as it is. -/
theorem TickResult.unchanged {cfg : PredictSettings} {w w' : World} {tick : TickEnv} (h : TickResult cfg tick w w')
    (hstale : tick.freshDemand cfg = none) : w'.minReplicaCount = w.minReplicaCount ∧ w'.patched = w.patched ∧
      w'.service.lastPredictedDemand = w.service.lastPredictedDemand := by
  cases h with
  | skipped hd => exact ⟨rfl, rfl, rfl⟩
  | failed s hdemand _ _ _ =>
      refine ⟨rfl, rfl, ?_⟩
      rw [World.withService_service, hdemand, hstale]
      rfl
  | planned document baseline traffic adjusted w' hreach _ _ =>
      rw [hreach.freshDemand_eq] at hstale
      cases hstale

/-- In every run of the two schedulers whose forecasts end in time: after a forecast that gets into the table, each tick
up to the next one acts on its items; after one that does not, no tick acts or patches once the last forecast is older
than the limit, which with the shipped settings is as soon as the failed run can have taken the longest time. -/
theorem forecast_outage (scheduler : IntervalScheduler) (cfg : PredictSettings) (zone : Zone) {longest : ℚ}
    (hlongest : longest ≤ scheduler.interval) {s : PredictLoop} (hdated : s.Dated scheduler longest)
    {before after : List ForecastPeriod} {period : ForecastPeriod}
    (hrun : EventRun.Along (PredictLoop.step scheduler cfg zone) (PredictLoop.Timed scheduler longest) s
      (before ++ period :: after))
    {earlier later : List ScalerStep} {tick : TickEnv} (hsteps : period.steps = earlier ++ .tick tick :: later)
    {begun : PredictLoop} (hbegun : begun = EventRun.run (PredictLoop.step scheduler cfg zone) s before)
    {found left : PredictState} (hfound : found = begun.scaled cfg zone period earlier)
    (hleft : left = found.step cfg zone (.scaler (.tick tick))) :
    (scheduler.interval ≤ cfg.predictionMaxAgeSeconds → period.env.Commits cfg zone →
      ∃ document read, forecastDocument cfg zone period.env = .ok document ∧
      (∀ item, item ∈ read.predictions ↔ item ∈ document.predictions) ∧
      left.world.service.lastPredictedDemand = some (currentDemand cfg read tick.demandClock)) ∧
    (¬ period.env.Commits cfg zone →
      begun.loop.clock - scheduler.interval + longest + cfg.predictionMaxAgeSeconds ≤ totalSeconds tick.ageClock →
      left.world.minReplicaCount = found.world.minReplicaCount ∧ left.world.patched = found.world.patched ∧
        left.world.service.lastPredictedDemand = found.world.service.lastPredictedDemand) := by
  obtain ⟨hbefore, ht, -⟩ := EventRun.along_append.mp hrun
  have hdated' := PredictLoop.dated_run hlongest hdated hbefore
  rw [← hbegun] at ht hdated'
  have htick : .tick tick ∈ period.steps := by simp [hsteps]
  have hresult : TickResult cfg (found.store.serve cfg tick) found.world left.world := by
    rw [hleft]
    exact runScaling_result cfg (found.store.serve cfg tick) found.world
  subst hfound
  constructor
  · intro hage hcommits
    obtain ⟨document, read, hdocument, hmem, hfresh⟩ :=
      PredictLoop.tick_fresh hdated' hlongest ht hage hcommits htick earlier
    exact ⟨document, read, hdocument, hmem, hresult.lastPredictedDemand hfresh⟩
  · intro hfails hlate
    exact hresult.unchanged (PredictLoop.tick_stale hdated' hfails hlate (ht.ticks tick htick).2 earlier)

def halfMinute : SchedulerRun := ⟨30, none, by decide +kernel⟩

def springPeriod : ForecastPeriod := ⟨halfMinute, springForecast 0, [.tick springTick]⟩

/-- A tick a minute after the next forecast has begun. -/
def outageTick : TickEnv := { springTick with ageClock := (springForecast 4).clock + 60000000 }

def outagePeriod : ForecastPeriod := ⟨halfMinute, refusedForecast 4, [.tick outageTick]⟩

def springLoop : PredictLoop :=
  ⟨⟨{ running := true }, totalSeconds (springForecast 0).clock⟩, { world := { minReplicaCount := 1 } }⟩

theorem springLoop_timed : EventRun.Along (PredictLoop.step (forecastScheduler 14400 180) {} newYork)
    (PredictLoop.Timed (forecastScheduler 14400 180) 30) springLoop [springPeriod, outagePeriod] := by
  refine ⟨⟨by decide +kernel, by decide +kernel, by decide +kernel, ?_⟩,
    ⟨by decide +kernel, by decide +kernel, by decide +kernel, ?_⟩, trivial⟩
  · intro tick htick
    obtain rfl : tick = springTick := by simpa [springPeriod] using htick
    exact ⟨by decide +kernel, none, rfl⟩
  · intro tick htick
    obtain rfl : tick = outageTick := by simpa [outagePeriod] using htick
    exact ⟨by decide +kernel, none, rfl⟩

theorem forecast_outage_spring :
    (∃ document read, forecastDocument {} newYork (springForecast 0) = .ok document ∧
      (∀ item, item ∈ read.predictions ↔ item ∈ document.predictions) ∧
      ((springLoop.scaled {} newYork springPeriod []).step {} newYork
        (.scaler (.tick springTick))).world.service.lastPredictedDemand =
          some (currentDemand {} read springTick.demandClock)) ∧
    (((springLoop.step (forecastScheduler 14400 180) {} newYork springPeriod).scaled {} newYork outagePeriod []).step {}
      newYork (.scaler (.tick outageTick))).world.minReplicaCount =
        ((springLoop.step (forecastScheduler 14400 180) {} newYork springPeriod).scaled {} newYork outagePeriod
          []).world.minReplicaCount := by
  have hdated : springLoop.Dated (forecastScheduler 14400 180) 30 := by
    intro row hrow
    cases hrow
  have hfirst := @forecast_outage (forecastScheduler 14400 180) {} newYork 30 (by decide +kernel) springLoop hdated []
    [outagePeriod] springPeriod springLoop_timed [] [] springTick rfl springLoop rfl _ _ rfl rfl
  have hsecond := @forecast_outage (forecastScheduler 14400 180) {} newYork 30 (by decide +kernel) springLoop hdated
    [springPeriod] [] outagePeriod springLoop_timed [] [] outageTick rfl _ rfl _ _ rfl rfl
  exact ⟨hfirst.1 (by decide +kernel) springForecast_commits,
    (hsecond.2 (fun hcommits => hcommits.2 (by decide)) (by decide +kernel)).1⟩

end Hailcast
