import Hailcast.Lib.TimedRun
import Hailcast.Simulator.Lemmas

/-!
# The uptime of the generator

`_run_started_monotonic` and `_accumulated_runtime` are a clock that moves while the generator is marked as running,
through failed launches too, and that a reset puts back.
-/

namespace Hailcast

namespace SimulatorState

/-- `uptime_seconds`, in microseconds. -/
def uptime (s : SimulatorState) (monotonic : Int) : Int :=
  match s.runStartedMonotonic with
  | some started => s.accumulatedRuntime + (monotonic - started)
  | none => s.accumulatedRuntime

theorem uptimeSeconds_eq (s : SimulatorState) (monotonic : Int) :
    s.uptimeSeconds monotonic = totalSeconds (s.uptime monotonic) := by
  cases h : s.runStartedMonotonic <;> simp only [uptimeSeconds, uptime, h]

/-- The generator is marked as running exactly while the start of its run is set. -/
def Timed (s : SimulatorState) : Prop := s.running = s.runStartedMonotonic.isSome

theorem Timed.uptime_move {s : SimulatorState} (h : s.Timed) (t t' : Int) :
    s.uptime t' = s.uptime t + if s.running then t' - t else 0 := by
  rw [h]
  cases hs : s.runStartedMonotonic with
  | none => simp [uptime, hs]
  | some started =>
      simp only [uptime, hs, Option.isSome_some, if_true]
      omega

theorem uptime_markStopped {s : SimulatorState} (monotonic : Int) :
    (s.markStopped monotonic).uptime monotonic = s.uptime monotonic := by
  cases hs : s.runStartedMonotonic <;> simp [uptime, markStopped, hs]

theorem Timed.uptime_markStarted {s : SimulatorState} (h : s.Timed) (hrun : s.running = false) (uuid : String)
    (now monotonic : Int) : (s.markStarted uuid now monotonic).uptime monotonic = s.uptime monotonic := by
  have hnone : s.runStartedMonotonic = none := by simpa [Timed, hrun] using h.symm
  simp [uptime, markStarted, hnone]

end SimulatorState

namespace SimulatorService

variable {settings : SimulatorSettings} {s : SimulatorService}

theorem timed_step (h : s.state.Timed) (e : ControlOp × ControlEnv) : (s.step settings e).state.Timed := by
  obtain ⟨op, env⟩ := e
  generalize s.step settings (op, env) = s', step_result settings s op env = hres
  cases hres with
  | kept hop hrun hsame => exact h
  | idle hop hrun => exact h
  | stopped hop hrun => rfl
  | started currentRps hop hrun hlaunch => rfl
  | startFailed hop hrun hlaunch => exact h
  | restarted currentRps hop hrun hne hpos hlaunch => exact h
  | restartFailed hop hrun hne hpos hlaunch => exact h
  | reset hop => rfl

def isReset (e : ControlOp × ControlEnv) : Bool := e.1 = .reset

theorem uptime_step_kept (h : s.state.Timed) {op : ControlOp} (hop : op ≠ .reset) (env : ControlEnv) :
    (s.step settings (op, env)).state.uptime env.monotonic = s.state.uptime env.monotonic := by
  generalize s.step settings (op, env) = s', step_result settings s op env = hres
  cases hres with
  | kept _ hrun hsame => rfl
  | idle _ hrun => rfl
  | stopped _ hrun => exact SimulatorState.uptime_markStopped env.monotonic
  | started currentRps _ hrun hlaunch => exact h.uptime_markStarted hrun env.uuid env.now env.monotonic
  | startFailed _ hrun hlaunch => rfl
  | restarted currentRps _ hrun hne hpos hlaunch => rfl
  | restartFailed _ hrun hne hpos hlaunch => rfl
  | reset hreset => exact absurd hreset hop

/-- An operation neither adds to the uptime nor takes from it, but for a reset. -/
theorem uptime_step (h : s.state.Timed) (e : ControlOp × ControlEnv) :
    (s.step settings e).state.uptime e.2.monotonic =
      if isReset e then 0 else s.state.uptime e.2.monotonic := by
  obtain ⟨op, env⟩ := e
  by_cases hop : op = .reset
  · subst hop
    rw [step_reset]
    rfl
  · simp only [isReset, hop, decide_false, Bool.false_eq_true, if_false]
    exact uptime_step_kept h hop env

/-- The time of an operation. -/
def monotonicOf (e : ControlOp × ControlEnv) : Int := e.2.monotonic

theorem uptime_clock (settings : SimulatorSettings) :
    TimedRun.Clock (step settings) monotonicOf (fun s => s.state.running) isReset (fun s => s.state.Timed)
      (fun s => s.state.uptime) where
  keep _ e h := timed_step h e
  move _ h t t' := h.uptime_move t t'
  event _ e h := uptime_step h e

/-- The microseconds from `start` to `now` in which the generator is marked as running, from the last reset on. -/
noncomputable def runningTime (settings : SimulatorSettings) (ops : List (ControlOp × ControlEnv)) (start now : Int) :
    Nat :=
  TimedRun.counted (step settings) monotonicOf (fun s => s.state.running) isReset {} ops start now

/-- At any time the status shows how long the generator has been marked as running since the last reset. -/
theorem simulator_uptime (settings : SimulatorSettings) (ops : List (ControlOp × ControlEnv)) (start now : Int)
    (hsorted : TimedRun.Ordered monotonicOf ops) (hstart : ∀ e ∈ ops, start ≤ monotonicOf e)
    (hnow : ∀ e ∈ ops, monotonicOf e ≤ now) (hle : start ≤ now) :
    ((EventRun.run (step settings) {} ops).state.snapshot now).uptimeSeconds =
      pyRound (totalSeconds (runningTime settings ops start now)) 1 := by
  have hclock : (EventRun.run (step settings) {} ops).state.uptime now = runningTime settings ops start now :=
    (uptime_clock settings).reading_eq rfl rfl (fun _ => rfl) hsorted hstart hnow hle
  rw [SimulatorState.snapshot, SimulatorState.uptimeSeconds_eq, hclock]

/-- Started at second 1, its restart failed at second 2, stopped at second 4, started again at second 5. -/
theorem simulator_uptime_with_failure :
    let ops : List (ControlOp × ControlEnv) :=
      [(.start, { monotonic := 1000000 }), (.increase, { popen := some "not found", monotonic := 2000000 }),
        (.stop, { monotonic := 4000000 }), (.start, { monotonic := 5000000 })]
    ((EventRun.run (step {}) {} ops).state.snapshot 6500000).uptimeSeconds =
      pyRound (totalSeconds (runningTime {} ops 0 6500000)) 1 :=
  simulator_uptime {} _ 0 6500000 (by decide) (by decide) (by decide) (by decide)

end SimulatorService

end Hailcast
