import Hailcast.Schedule.Interval

/-!
# Runs of a scheduler
-/

namespace Hailcast

open IntervalScheduler

/-- An aligned scheduler starts its first run within one period, and each run at an aligned time exactly if every run
before the last one ends within the interval or after a whole number of them. -/
theorem scheduler_keeps_phase_iff (scheduler : IntervalScheduler) (hpos : 0 < scheduler.interval)
    (halign : scheduler.alignTo = some scheduler.interval) (state : SchedulerState) (time : ℚ)
    (runs : List SchedulerRun) :
    ∃ loop, scheduler.runLoop state time = .ok loop ∧ time ≤ loop.clock ∧ loop.clock < time + scheduler.interval ∧
      (EventRun.Along scheduler.step (fun loop _ => scheduler.Aligned loop.clock) loop runs ↔
        ∀ run ∈ runs.dropLast, scheduler.KeepsPhase run) := by
  obtain ⟨loop, hloop, hge, hlt, haligned⟩ := runLoop_aligned hpos halign state time
  refine ⟨loop, hloop, hge, hlt, ?_⟩
  rw [EventRun.along_iff_dropLast (I := fun loop : SchedulerLoop => scheduler.Aligned loop.clock)
    (fun _ run h => step_aligned_iff h run) haligned]
  exact ⟨EventRun.Along.forall, EventRun.along_of_forall⟩

theorem seconds_nonneg (seconds : ℕ) : (0 : ℚ) ≤ seconds := Nat.cast_nonneg seconds

def runOf (seconds : ℕ) (error : Option String := none) : SchedulerRun := ⟨seconds, error, seconds_nonneg seconds⟩

/-- The accuracy check, with a run of half a minute between two others. -/
theorem scheduler_keeps_phase_accuracy :
    ∃ loop, (accuracyCheckScheduler 3600 3540).runLoop {} 100 = .ok loop ∧
      EventRun.Along (accuracyCheckScheduler 3600 3540).step
        (fun loop _ => (accuracyCheckScheduler 3600 3540).Aligned loop.clock) loop
        [runOf 30, runOf 30 (some "timeout"), runOf 30] := by
  obtain ⟨loop, hloop, _, _, hiff⟩ := scheduler_keeps_phase_iff (accuracyCheckScheduler 3600 3540)
    (by norm_num [accuracyCheckScheduler]) rfl {} 100 [runOf 30, runOf 30 (some "timeout"), runOf 30]
  refine ⟨loop, hloop, hiff.mpr fun run hrun => Or.inl ?_⟩
  simp only [List.dropLast, List.mem_cons, List.not_mem_nil, or_false] at hrun
  rcases hrun with rfl | rfl <;> norm_num [accuracyCheckScheduler, runOf]

/-- The accuracy check started at 00:59, with a run of an hour and a minute: the next one starts at 02:00. -/
theorem scheduler_loses_phase :
    ∃ loop, (accuracyCheckScheduler 3600 3540).runLoop {} 3540 = .ok loop ∧
      ((accuracyCheckScheduler 3600 3540).step loop (runOf 3660)).clock = 7200 ∧
      ¬ EventRun.Along (accuracyCheckScheduler 3600 3540).step
        (fun loop _ => (accuracyCheckScheduler 3600 3540).Aligned loop.clock) loop
        [runOf 3660, runOf 30] := by
  refine ⟨⟨{ running := true }, 3540⟩, by decide +kernel, by decide +kernel, fun h => ?_⟩
  obtain ⟨n, hn⟩ := h.2.1
  rw [step_clock, show max (runOf 3660).duration (accuracyCheckScheduler 3600 3540).interval = 3660 by decide +kernel]
    at hn
  have hn' : (7200 : ℚ) = 3540 + n * 3600 := by
    rw [← show (3540 : ℚ) + 3660 = 7200 by norm_num]
    exact hn
  have hint : (7200 : Int) = 3540 + n * 3600 := by exact_mod_cast hn'
  omega

end Hailcast
