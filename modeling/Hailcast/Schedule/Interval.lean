import Hailcast.Common.Python
import Hailcast.Lib.EventRun

/-!
# IntervalScheduler

Times and durations are in seconds. A loop executes one run after the other until `stop`, so it is given by the list
of the runs that it executes. Sleeps end exactly on time, and `time.time()`, `time.monotonic()` and
`datetime.now(timezone.utc)` advance together.
-/

namespace Hailcast

structure IntervalScheduler where
  interval : ℚ
  alignTo : Option ℚ := none
  alignOffset : ℚ := 0

/-- `AccuracyCheckScheduler(service, interval_seconds, align_offset_seconds)` -/
def accuracyCheckScheduler (intervalSeconds alignOffsetSeconds : ℚ) : IntervalScheduler where
  interval := intervalSeconds
  alignTo := some intervalSeconds
  alignOffset := alignOffsetSeconds

/-- `ForecastScheduler(service, interval_seconds, align_offset_seconds)` -/
def forecastScheduler (intervalSeconds : ℚ) (alignOffsetSeconds : ℚ := 0) : IntervalScheduler where
  interval := intervalSeconds
  alignTo := some intervalSeconds
  alignOffset := alignOffsetSeconds

/-- `WeatherScheduler(service, interval_seconds, align_offset_seconds)` -/
def weatherScheduler (intervalSeconds : ℚ) (alignOffsetSeconds : ℚ := 0) : IntervalScheduler where
  interval := intervalSeconds
  alignTo := some intervalSeconds
  alignOffset := alignOffsetSeconds

/-- What one call of `run_once` takes, and the text of the exception that it raises. -/
structure SchedulerRun where
  duration : ℚ
  error : Option String := none
  duration_nonneg : 0 ≤ duration

structure SchedulerState where
  running : Bool := false
  lastRunAt : Option ℚ := none
  lastSuccessAt : Option ℚ := none
  lastError : Option String := none
  runCount : Nat := 0
  failureCount : Nat := 0
deriving DecidableEq

/-- The loop before one of its runs, which starts at `clock`. -/
structure SchedulerLoop where
  state : SchedulerState
  clock : ℚ
deriving DecidableEq

namespace IntervalScheduler

def secondsUntilNextBoundary (scheduler : IntervalScheduler) (time : ℚ) : Except PyError ℚ :=
  match scheduler.alignTo with
  | none => .ok 0
  | some alignTo =>
      if alignTo = 0 then .error .zeroDivisionError
      else
        let phase := pyMod (time - scheduler.alignOffset) alignTo
        .ok (pyMod (alignTo - phase) alignTo)

/-- `_execute`, begun at `now` -/
def execute (state : SchedulerState) (now : ℚ) (run : SchedulerRun) : SchedulerState :=
  let state := { state with lastRunAt := some now, runCount := state.runCount + 1 }
  match run.error with
  | none => { state with lastSuccessAt := some (now + run.duration), lastError := none }
  | some text => { state with failureCount := state.failureCount + 1, lastError := some text }

/-- `run_loop` up to its first run. -/
def runLoop (scheduler : IntervalScheduler) (state : SchedulerState) (time : ℚ) : Except PyError SchedulerLoop := do
  let delay ← scheduler.secondsUntilNextBoundary time
  return ⟨{ state with running := true }, time + delay⟩

/-- One run, and the sleep of `max(0.0, self._interval - elapsed)` after it. -/
def step (scheduler : IntervalScheduler) (loop : SchedulerLoop) (run : SchedulerRun) : SchedulerLoop :=
  ⟨execute loop.state loop.clock run, loop.clock + run.duration + max 0 (scheduler.interval - run.duration)⟩

/-! ## Alignment -/

def Aligned (scheduler : IntervalScheduler) (time : ℚ) : Prop :=
  ∃ n : Int, time = scheduler.alignOffset + n * scheduler.interval

/-- The run ends within the interval, or after a whole number of them. -/
def KeepsPhase (scheduler : IntervalScheduler) (run : SchedulerRun) : Prop :=
  run.duration ≤ scheduler.interval ∨ ∃ n : Int, run.duration = n * scheduler.interval

variable {scheduler : IntervalScheduler}

/-- The first run starts at the next aligned time. -/
theorem runLoop_aligned (hpos : 0 < scheduler.interval) (halign : scheduler.alignTo = some scheduler.interval)
    (state : SchedulerState) (time : ℚ) :
    ∃ loop, scheduler.runLoop state time = .ok loop ∧ time ≤ loop.clock ∧ loop.clock < time + scheduler.interval ∧
      scheduler.Aligned loop.clock := by
  set phase := pyMod (time - scheduler.alignOffset) scheduler.interval with hphase
  refine ⟨⟨{ state with running := true }, time + pyMod (scheduler.interval - phase) scheduler.interval⟩, ?_, ?_, ?_,
    ?_⟩
  · simp only [runLoop, secondsUntilNextBoundary, halign, hpos.ne', ↓reduceIte]
    rfl
  · exact le_add_of_nonneg_right (pyMod_nonneg _ hpos)
  · have hlt := pyMod_lt (scheduler.interval - phase) hpos
    simp only
    linarith
  · refine ⟨⌊(time - scheduler.alignOffset) / scheduler.interval⌋ + 1 -
      ⌊(scheduler.interval - phase) / scheduler.interval⌋, ?_⟩
    push_cast
    simp only [hphase, pyMod]
    ring

theorem step_clock (loop : SchedulerLoop) (run : SchedulerRun) :
    (scheduler.step loop run).clock = loop.clock + max run.duration scheduler.interval := by
  unfold step
  rcases le_total run.duration scheduler.interval with h | h
  · rw [max_eq_right (by linarith), max_eq_right h]
    ring
  · rw [max_eq_left (by linarith), max_eq_left h]
    ring

/-- A run that overruns its interval shifts every later one by what it overruns. -/
theorem step_aligned_iff {loop : SchedulerLoop} (h : scheduler.Aligned loop.clock) (run : SchedulerRun) :
    scheduler.Aligned (scheduler.step loop run).clock ↔ scheduler.KeepsPhase run := by
  obtain ⟨n, hn⟩ := h
  rw [step_clock]
  rcases le_or_gt run.duration scheduler.interval with hle | hgt
  · rw [max_eq_right hle]
    refine iff_of_true ⟨n + 1, ?_⟩ (Or.inl hle)
    rw [hn]
    push_cast
    ring
  · rw [max_eq_left hgt.le]
    constructor
    · rintro ⟨m, hm⟩
      refine Or.inr ⟨m - n, ?_⟩
      push_cast
      linarith
    · rintro (hle | ⟨m, hm⟩)
      · exact absurd hle (not_le.mpr hgt)
      · refine ⟨n + m, ?_⟩
        push_cast
        linarith

end IntervalScheduler

end Hailcast
