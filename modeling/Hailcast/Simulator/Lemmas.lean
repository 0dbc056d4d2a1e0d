import Mathlib.Algebra.BigOperators.Group.List.Basic
import Hailcast.Lib.EventRun
import Hailcast.Lib.Retry
import Hailcast.Simulator.Relay

/-!
# What one control operation can do
-/

namespace Hailcast

/-- The settings of the rate are floats. -/
structure SimulatorSettings.Floats (settings : SimulatorSettings) : Prop where
  step_float : FloatFormat.binary64.Represents settings.trafficStep
  min_float : FloatFormat.binary64.Represents settings.minTps
  max_float : FloatFormat.binary64.Represents settings.maxTps

structure SimulatorSettings.Positive (settings : SimulatorSettings) : Prop extends settings.Floats where
  step_pos : 0 < settings.trafficStep
  max_pos : 0 < settings.maxTps
  min_zero : settings.minTps = 0

namespace SimulatorService

open Retry (bind_run)

variable {settings : SimulatorSettings} {env : ControlEnv} {s s' : SimulatorService} {op : ControlOp}

/-! ## Running the operations -/

def setTps (s : SimulatorService) (tps : ℚ) : SimulatorService :=
  { s with state := { s.state with currentTps := tps } }

def halted (s : SimulatorService) (env : ControlEnv) : SimulatorService :=
  ⟨s.state.markStopped env.monotonic, ⟨none⟩⟩

def launched (settings : SimulatorSettings) (s : SimulatorService) (targetRps currentRps : ℚ) : SimulatorService :=
  { s with runner := ⟨some ⟨settings.relayUrl, shownRate targetRps, shownRate currentRps, false⟩⟩ }

def started (s : SimulatorService) (env : ControlEnv) : SimulatorService :=
  { s with state := s.state.markStarted env.uuid env.now env.monotonic }

def stranded (s : SimulatorService) : SimulatorService := { s with runner := ⟨none⟩ }

@[simp] theorem setTps_self (s : SimulatorService) : s.setTps s.state.currentTps = s := rfl

@[simp] theorem setTps_running (s : SimulatorService) (tps : ℚ) : (s.setTps tps).state.running = s.state.running := rfl

@[simp] theorem setTps_currentTps (s : SimulatorService) (tps : ℚ) : (s.setTps tps).state.currentTps = tps := rfl

theorem get_run (s : SimulatorService) : (get : SimulatorM SimulatorService) s = .ok s s := rfl

theorem adjust_run (settings : SimulatorSettings) (delta : ℚ) (s : SimulatorService) :
    modifyState (fun state => state.adjustTps settings delta) s =
      .ok () (s.setTps (SimulatorState.adjusted settings s.state.currentTps delta)) := rfl

theorem snapshot_run (env : ControlEnv) (s : SimulatorService) :
    snapshot env s = .ok (s.state.snapshot env.monotonic) s := rfl

theorem runnerStart_run (settings : SimulatorSettings) (env : ControlEnv) (tps currentTps : ℚ) (s : SimulatorService) :
    K6Runner.start settings env tps currentTps s =
      match env.popen with
      | some cause => .error ⟨settings.k6Binary, cause⟩ s.stranded
      | none => .ok () (s.launched settings tps currentTps) := by
  unfold K6Runner.start
  cases env.popen <;> rfl

theorem startK6_run (settings : SimulatorSettings) (env : ControlEnv) (tps currentTps : ℚ) (s : SimulatorService) :
    startK6 settings env tps currentTps s =
      match env.popen with
      | some cause => .error ⟨settings.k6Binary, cause⟩ s.stranded
      | none => .ok () ((s.launched settings tps currentTps).started env) := by
  unfold startK6
  rw [bind_run, runnerStart_run]
  cases env.popen <;> rfl

theorem stopK6_run (env : ControlEnv) (s : SimulatorService) :
    stopK6 env s = .ok () (if s.state.running then s.halted env else s) := by
  unfold stopK6
  rw [bind_run, get_run]
  cases h : s.state.running <;> simp only [h] <;> rfl

/-! ## The outcomes of an operation -/

def wanted (settings : SimulatorSettings) (s : SimulatorService) : ControlOp → ℚ
  | .start =>
      if s.state.running = false ∧ s.state.currentTps ≤ 0 then
        SimulatorState.adjusted settings s.state.currentTps settings.trafficStep
      else s.state.currentTps
  | .increase => SimulatorState.adjusted settings s.state.currentTps settings.trafficStep
  | .decrease => SimulatorState.adjusted settings s.state.currentTps (-settings.trafficStep)
  | _ => s.state.currentTps

def ControlOp.ChangesRate (op : ControlOp) : Prop := op = .increase ∨ op = .decrease

@[simp] theorem not_changesRate_stop : ¬ ControlOp.stop.ChangesRate := by simp [ControlOp.ChangesRate]

@[simp] theorem not_changesRate_reset : ¬ ControlOp.reset.ChangesRate := by simp [ControlOp.ChangesRate]

inductive ControlResult (settings : SimulatorSettings) (env : ControlEnv) (s : SimulatorService) (op : ControlOp) :
    SimulatorService → Prop where
  | kept (hop : op = .start ∨ op.ChangesRate) (hrun : s.state.running = true)
      (hsame : wanted settings s op = s.state.currentTps) : ControlResult settings env s op s
  | idle (hop : op = .stop ∨ op.ChangesRate ∧ wanted settings s op ≤ 0) (hrun : s.state.running = false) :
      ControlResult settings env s op (s.setTps (wanted settings s op))
  | stopped (hop : op = .stop ∨ op.ChangesRate ∧ wanted settings s op ≤ 0) (hrun : s.state.running = true) :
      ControlResult settings env s op ((s.setTps (wanted settings s op)).halted env)
  | started (currentRps : ℚ) (hop : op = .start ∨ op.ChangesRate ∧ 0 < wanted settings s op)
      (hrun : s.state.running = false) (hlaunch : env.popen = none) :
      ControlResult settings env s op
        (((s.setTps (wanted settings s op)).launched settings (wanted settings s op) currentRps).started env)
  | startFailed (hop : op = .start ∨ op.ChangesRate ∧ 0 < wanted settings s op) (hrun : s.state.running = false)
      (hlaunch : env.popen ≠ none) : ControlResult settings env s op (s.setTps (wanted settings s op)).stranded
  | restarted (currentRps : ℚ) (hop : op.ChangesRate) (hrun : s.state.running = true)
      (hne : wanted settings s op ≠ s.state.currentTps) (hpos : 0 < wanted settings s op) (hlaunch : env.popen = none) :
      ControlResult settings env s op
        ((s.setTps (wanted settings s op)).launched settings (wanted settings s op) currentRps)
  | restartFailed (hop : op.ChangesRate) (hrun : s.state.running = true)
      (hne : wanted settings s op ≠ s.state.currentTps) (hpos : 0 < wanted settings s op) (hlaunch : env.popen ≠ none) :
      ControlResult settings env s op (s.setTps (wanted settings s op)).stranded
  | reset (hop : op = .reset) :
      ControlResult settings env s op ⟨{}, if s.state.running then ⟨none⟩ else s.runner⟩

def final {α : Type} : EStateM.Result AppError SimulatorService α → SimulatorService
  | .ok _ s => s
  | .error _ s => s

/-- An answer after an operation does not change the service. -/
theorem final_bind_snapshot (env : ControlEnv) (x : SimulatorM Unit) (s : SimulatorService) :
    final ((do x; snapshot env) s) = final (x s) := by
  rw [bind_run]
  cases x s <;> rfl

theorem applyRate_run (settings : SimulatorSettings) (env : ControlEnv) (tps currentTps : ℚ) (s : SimulatorService) :
    applyRate settings env tps currentTps s =
      if tps ≤ 0 then stopK6 env s
      else if s.state.running then K6Runner.start settings env tps currentTps s
      else startK6 settings env tps currentTps s := by
  by_cases hpos : tps ≤ 0
  · simp [applyRate, hpos]
  · cases hrun : s.state.running <;> simp [applyRate, hpos, hrun, bind_run, get_run]

theorem final_changeRate (settings : SimulatorSettings) (env : ControlEnv) (delta : ℚ) (s : SimulatorService) :
    ∃ currentTps, final (changeRate settings env delta s) =
      if SimulatorState.adjusted settings s.state.currentTps delta = s.state.currentTps ∧
          s.state.running = true then s
      else
        final (applyRate settings env (SimulatorState.adjusted settings s.state.currentTps delta) currentTps
          (s.setTps (SimulatorState.adjusted settings s.state.currentTps delta))) := by
  refine ⟨if s.state.running then s.state.currentTps else 0, ?_⟩
  unfold changeRate
  simp only [bind_run, get_run, adjust_run]
  split
  · rename_i hchange
    have hkeep : ¬ (SimulatorState.adjusted settings s.state.currentTps delta = s.state.currentTps ∧
        s.state.running = true) := by
      rintro ⟨hsame, hrun⟩
      simp [hsame, hrun] at hchange
    rw [if_neg hkeep, ← final_bind_snapshot env]
    simp only [setTps_currentTps, bind_run]
  · rename_i hkeep
    simp only [setTps_currentTps, not_or, not_not, Bool.not_eq_eq_eq_not, Bool.not_true, Bool.not_eq_false] at hkeep
    rw [if_pos hkeep, hkeep.1, setTps_self, snapshot_run]
    rfl

theorem applyRate_result (hop : op.ChangesRate)
    (hrun : wanted settings s op = s.state.currentTps → s.state.running = false) (currentTps : ℚ) :
    ControlResult settings env s op
      (final (applyRate settings env (wanted settings s op) currentTps (s.setTps (wanted settings s op)))) := by
  rw [applyRate_run]
  have hsame : (s.setTps (wanted settings s op)).state.running = s.state.running := rfl
  split
  · rename_i hle
    rw [stopK6_run, hsame]
    cases hr : s.state.running with
    | true => exact .stopped (Or.inr ⟨hop, hle⟩) hr
    | false => exact .idle (Or.inr ⟨hop, hle⟩) hr
  · rename_i hle
    have hpos := not_le.mp hle
    rw [hsame]
    cases hr : s.state.running with
    | true =>
        have hne : wanted settings s op ≠ s.state.currentTps := fun he => by simp [hrun he] at hr
        rw [if_pos rfl, runnerStart_run]
        cases hl : env.popen with
        | none => exact .restarted currentTps hop hr hne hpos hl
        | some cause => exact .restartFailed hop hr hne hpos (by simp [hl])
    | false =>
        rw [if_neg (by simp), startK6_run]
        cases hl : env.popen with
        | none => exact .started currentTps (Or.inr ⟨hop, hpos⟩) hr hl
        | some cause => exact .startFailed (Or.inr ⟨hop, hpos⟩) hr (by simp [hl])

theorem changeRate_result (hop : op.ChangesRate) {delta : ℚ}
    (hdelta : wanted settings s op = SimulatorState.adjusted settings s.state.currentTps delta) :
    ControlResult settings env s op (final (changeRate settings env delta s)) := by
  obtain ⟨currentTps, he⟩ := final_changeRate settings env delta s
  rw [he, ← hdelta]
  split
  · rename_i hkeep
    exact .kept (Or.inr hop) hkeep.2 hkeep.1
  · rename_i hkeep
    refine applyRate_result hop (fun hsame => ?_) currentTps
    cases hr : s.state.running with
    | true => exact absurd ⟨hsame, hr⟩ hkeep
    | false => rfl

theorem start_result (settings : SimulatorSettings) (env : ControlEnv) (s : SimulatorService) :
    ControlResult settings env s .start (final (start settings env s)) := by
  cases hrun : s.state.running with
  | true =>
      have hs : start settings env s = .ok (s.state.snapshot env.monotonic) s := by
        simp [start, bind_run, get_run, hrun, snapshot_run]
      rw [hs]
      exact .kept (Or.inl rfl) hrun (by simp [wanted, hrun])
  | false =>
      have hs : final (start settings env s) =
          final (startK6 settings env (wanted settings s .start) 0 (s.setTps (wanted settings s .start))) := by
        rw [← final_bind_snapshot env]
        unfold start
        by_cases hpos : s.state.currentTps ≤ 0 <;> simp [bind_run, get_run, hrun, wanted, hpos, adjust_run]
      rw [hs, startK6_run]
      cases hl : env.popen with
      | none => exact .started 0 (Or.inl rfl) hrun hl
      | some cause => exact .startFailed (Or.inl rfl) hrun (by simp [hl])

theorem step_eq_final (settings : SimulatorSettings) (s : SimulatorService) (op : ControlOp) (env : ControlEnv) :
    step settings s (op, env) = final (control settings env op s) := by
  unfold step
  cases control settings env op s <;> rfl

theorem step_reset (settings : SimulatorSettings) (s : SimulatorService) (env : ControlEnv) :
    s.step settings (.reset, env) = ⟨{}, if s.state.running then ⟨none⟩ else s.runner⟩ := by
  rw [step_eq_final]
  change final (reset env s) = _
  unfold reset
  rw [bind_run, stopK6_run]
  cases s.state.running <;> rfl

theorem step_result (settings : SimulatorSettings) (s : SimulatorService) (op : ControlOp) (env : ControlEnv) :
    ControlResult settings env s op (step settings s (op, env)) := by
  cases op with
  | start =>
      rw [step_eq_final]
      exact start_result settings env s
  | increase =>
      rw [step_eq_final]
      exact changeRate_result (Or.inl rfl) rfl
  | decrease =>
      rw [step_eq_final]
      exact changeRate_result (Or.inr rfl) rfl
  | stop =>
      rw [step_eq_final]
      change ControlResult settings env s .stop (final (stop env s))
      unfold stop
      rw [final_bind_snapshot, stopK6_run]
      cases hrun : s.state.running with
      | true => exact .stopped (Or.inl rfl) hrun
      | false => exact .idle (Or.inl rfl) hrun
  | reset =>
      rw [step_reset]
      exact .reset rfl

/-! ## The process and the flag -/

/-- `running` is true exactly when there is a live process. -/
def Consistent (s : SimulatorService) : Prop := s.state.running = s.runner.isAlive

/-- The operation changes the rate of the running generator, and the new process cannot be launched. -/
def Strands (settings : SimulatorSettings) (s : SimulatorService) (e : ControlOp × ControlEnv) : Prop :=
  e.1.ChangesRate ∧ s.state.running = true ∧ wanted settings s e.1 ≠ s.state.currentTps ∧
    0 < wanted settings s e.1 ∧ e.2.popen ≠ none

theorem Consistent.step_iff (h : s.Consistent) (e : ControlOp × ControlEnv) :
    (s.step settings e).Consistent ↔ ¬ s.Strands settings e := by
  obtain ⟨op, env⟩ := e
  generalize s.step settings (op, env) = s', step_result settings s op env = hres
  cases hres with
  | kept hop hrun hsame => simp [Strands, hsame, h]
  | idle hop hrun => simp [Strands, hrun]; exact h
  | stopped hop hrun =>
      have hno : ¬ s.Strands settings (op, env) := by
        rintro ⟨hch, _, _, hpos, _⟩
        rcases hop with rfl | ⟨_, hle⟩
        · simp at hch
        · exact absurd hpos (not_lt.mpr hle)
      simp only [hno, not_false_iff, iff_true]
      rfl
  | started currentRps hop hrun hlaunch => simp [Strands, hrun]; rfl
  | startFailed hop hrun hlaunch => simp [Strands, hrun]; exact hrun
  | restarted currentRps hop hrun hne hpos hlaunch => simp [Strands, hlaunch]; exact hrun
  | restartFailed hop hrun hne hpos hlaunch =>
      have hyes : s.Strands settings (op, env) := ⟨hop, hrun, hne, hpos, hlaunch⟩
      simp only [hyes, not_true_eq_false, iff_false]
      intro hc
      exact absurd (hrun.symm.trans hc) Bool.noConfusion
  | reset hop =>
      have hno : ¬ s.Strands settings (op, env) := by
        rintro ⟨hch, _⟩
        simp [hop] at hch
      simp only [hno, not_false_iff, iff_true]
      cases hrun : s.state.running with
      | true => rfl
      | false => exact hrun.symm.trans h

/-! ## The rate -/

/-- The live process was launched with the stored rate, which is in its range; the task and the run clock are set
exactly while the generator runs. -/
structure Steady (settings : SimulatorSettings) (s : SimulatorService) : Prop where
  live : s.state.running = true → ∃ process, s.runner.process = some process ∧ process.exited = false ∧
    process.targetRps = s.state.currentTps ∧ 0 < s.state.currentTps ∧ s.state.currentTps ≤ settings.maxTps ∧
    s.state.taskId.isSome ∧ s.state.runStartedMonotonic.isSome
  quiet : s.state.running = false →
    s.runner.isAlive = false ∧ s.state.taskId = none ∧ s.state.runStartedMonotonic = none

structure Regular (settings : SimulatorSettings) (s : SimulatorService) : Prop extends s.Steady settings where
  tps_nonneg : 0 ≤ s.state.currentTps
  tps_le : s.state.currentTps ≤ settings.maxTps

/-- The operation is one that launches a process, if the launch succeeds. -/
def Launching (settings : SimulatorSettings) (s : SimulatorService) (op : ControlOp) : Prop :=
  (op = .start ∨ op.ChangesRate) ∧ 0 < wanted settings s op ∧
    (s.state.running = false ∨ wanted settings s op ≠ s.state.currentTps)

/-- If the operation launches a process, the text of the rate reads as the rate. -/
def ShowsRate (settings : SimulatorSettings) (s : SimulatorService) (e : ControlOp × ControlEnv) : Prop :=
  s.Launching settings e.1 → shownRate (wanted settings s e.1) = wanted settings s e.1

section

variable (hset : settings.Positive)
include hset

theorem adjusted_range (tps delta : ℚ) :
    0 ≤ SimulatorState.adjusted settings tps delta ∧ SimulatorState.adjusted settings tps delta ≤ settings.maxTps := by
  rw [SimulatorState.adjusted, SimulatorState.clampTps, hset.min_zero]
  exact ⟨le_max_left _ _, max_le hset.max_pos.le (min_le_left _ _)⟩

theorem wanted_range (h : s.Regular settings) (op : ControlOp) :
    0 ≤ wanted settings s op ∧ wanted settings s op ≤ settings.maxTps := by
  cases op with
  | start =>
      simp only [wanted]
      split
      · exact adjusted_range hset _ _
      · exact ⟨h.tps_nonneg, h.tps_le⟩
  | increase => exact adjusted_range hset _ _
  | decrease => exact adjusted_range hset _ _
  | stop => exact ⟨h.tps_nonneg, h.tps_le⟩
  | reset => exact ⟨h.tps_nonneg, h.tps_le⟩

theorem raised_pos (h : s.Regular settings) :
    0 < SimulatorState.adjusted settings s.state.currentTps settings.trafficStep := by
  have hstep : settings.trafficStep ≤
      FloatFormat.binary64.round (s.state.currentTps + settings.trafficStep) := by
    rw [← FloatFormat.round_eq_self_iff.mpr hset.step_float]
    apply FloatFormat.round_mono
    rw [FloatFormat.round_eq_self_iff.mpr hset.step_float]
    exact le_add_of_nonneg_left h.tps_nonneg
  rw [SimulatorState.adjusted, SimulatorState.clampTps, hset.min_zero]
  exact lt_max_of_lt_right (lt_min hset.max_pos (hset.step_pos.trans_le hstep))

theorem started_pos (h : s.Regular settings) (hop : op = .start ∨ op.ChangesRate ∧ 0 < wanted settings s op)
    (hrun : s.state.running = false) : 0 < wanted settings s op := by
  rcases hop with rfl | ⟨_, hpos⟩
  · simp only [wanted, hrun, true_and]
    split
    · exact raised_pos hset h
    · rename_i hle
      exact not_le.mp hle
  · exact hpos

/-- An operation whose process is shown its rate keeps the state regular. -/
theorem Regular.step (h : s.Regular settings) {e : ControlOp × ControlEnv} (hlaunch : e.2.popen = none)
    (hshown : s.ShowsRate settings e) : (s.step settings e).Regular settings := by
  obtain ⟨op, env⟩ := e
  obtain ⟨hnonneg, hle⟩ := wanted_range hset h op
  generalize s.step settings (op, env) = s', step_result settings s op env = hres
  cases hres with
  | kept hop hrun hsame => exact h
  | idle hop hrun => exact ⟨⟨fun hr => absurd (hrun.symm.trans hr) Bool.noConfusion, h.quiet⟩, hnonneg, hle⟩
  | stopped hop hrun => exact ⟨⟨fun hr => (nomatch hr), fun _ => ⟨rfl, rfl, rfl⟩⟩, hnonneg, hle⟩
  | started currentRps hop hrun _ =>
      have hpos := started_pos hset h hop hrun
      have hrate := hshown ⟨hop.imp_right And.left, hpos, Or.inl hrun⟩
      exact ⟨⟨fun _ => ⟨_, rfl, rfl, hrate, hpos, hle, rfl, rfl⟩, fun hr => (nomatch hr)⟩, hnonneg, hle⟩
  | startFailed _ _ hfail => exact absurd hlaunch hfail
  | restarted currentRps hop hrun hne hpos _ =>
      obtain ⟨_, _, _, _, _, _, htask, hclock⟩ := h.live hrun
      have hrate := hshown ⟨Or.inr hop, hpos, Or.inr hne⟩
      refine ⟨⟨fun _ => ⟨_, rfl, rfl, hrate, hpos, hle, htask, hclock⟩, fun hr => ?_⟩, hnonneg, hle⟩
      exact absurd (hrun.symm.trans hr) Bool.noConfusion
  | restartFailed _ _ _ _ hfail => exact absurd hlaunch hfail
  | reset hop =>
      refine ⟨⟨fun hr => (nomatch hr), fun _ => ⟨?_, rfl, rfl⟩⟩, le_refl 0, hset.max_pos.le⟩
      cases hrun : s.state.running with
      | true => rfl
      | false => exact (h.quiet hrun).1

theorem increase_running (h : s.Regular settings) {env : ControlEnv} (hlaunch : env.popen = none) :
    (s.step settings (.increase, env)).state.running = true := by
  have hpos : 0 < wanted settings s .increase := raised_pos hset h
  generalize s.step settings (.increase, env) = s', step_result settings s .increase env = hres
  cases hres with
  | kept hop hrun hsame => exact hrun
  | idle hop hrun =>
      rcases hop with hop | ⟨_, hle⟩
      · cases hop
      · exact absurd hpos (not_lt.mpr hle)
  | stopped hop hrun =>
      rcases hop with hop | ⟨_, hle⟩
      · cases hop
      · exact absurd hpos (not_lt.mpr hle)
  | started currentRps hop hrun _ => rfl
  | startFailed _ _ hfail => exact absurd hlaunch hfail
  | restarted currentRps hop hrun hne _ _ => exact hrun
  | restartFailed _ _ _ _ hfail => exact absurd hlaunch hfail
  | reset hop => cases hop

end

/-- A launched process that runs at the stored rate was shown it. -/
theorem Steady.showsRate {e : ControlOp × ControlEnv} (hlaunch : e.2.popen = none)
    (h : (s.step settings e).Steady settings) : s.ShowsRate settings e := by
  obtain ⟨op, env⟩ := e
  rintro ⟨hop, hpos, hnew⟩
  generalize s.step settings (op, env) = s', step_result settings s op env = hres at h
  cases hres with
  | kept _ hrun hsame => exact absurd hnew (by simp [hrun, hsame])
  | idle hquiet hrun =>
      rcases hquiet with rfl | ⟨_, hle⟩
      · simp at hop
      · exact absurd hpos (not_lt.mpr hle)
  | stopped hquiet hrun =>
      rcases hquiet with rfl | ⟨_, hle⟩
      · simp at hop
      · exact absurd hpos (not_lt.mpr hle)
  | started currentRps _ hrun _ =>
      obtain ⟨process, hprocess, _, hrate, _⟩ := h.live rfl
      obtain rfl := Option.some.inj hprocess
      exact hrate
  | startFailed _ _ hfail => exact absurd hlaunch hfail
  | restarted currentRps _ hrun hne _ _ =>
      obtain ⟨process, hprocess, _, hrate, _⟩ := h.live hrun
      obtain rfl := Option.some.inj hprocess
      exact hrate
  | restartFailed _ _ _ _ hfail => exact absurd hlaunch hfail
  | reset hreset => simp [hreset] at hop

/-! ## Whole rates below a million -/

/-- A whole number of at most six digits. -/
def SixDigits (tps : ℚ) : Prop := ∃ n : Int, tps = n ∧ 0 ≤ n ∧ n < 1000000

theorem shownRate_sixDigits {tps : ℚ} (h : SixDigits tps) : shownRate tps = tps := by
  obtain ⟨n, rfl, hnonneg, hlt⟩ := h
  have habs : |(n : ℚ)| < 1000000 := by
    rw [abs_of_nonneg (by exact_mod_cast hnonneg)]
    exact_mod_cast hlt
  have hgeneral : FloatFormat.general.Represents n :=
    FloatFormat.represents_intCast (k := 6) (by decide) (habs.trans_le (by decide +kernel)) (by decide)
  have hbinary : FloatFormat.binary64.Represents n :=
    FloatFormat.represents_intCast (k := 20) (by decide) (habs.trans_le (by decide +kernel)) (by decide)
  rw [shownRate, FloatFormat.round_eq_self_iff.mpr hgeneral, FloatFormat.round_eq_self_iff.mpr hbinary]

/-- Whole settings keep the rate whole. -/
theorem adjusted_sixDigits (hmin : settings.minTps = 0) (hmax : SixDigits settings.maxTps) {tps delta : ℚ} {n m : Int}
    (htps : tps = n) (hdelta : delta = m) (hsum : |((n + m : Int) : ℚ)| < 2 ^ (53 : Int)) :
    SixDigits (SimulatorState.adjusted settings tps delta) := by
  obtain ⟨top, htop, htop_nonneg, htop_lt⟩ := hmax
  have hround : FloatFormat.binary64.round (tps + delta) = ((n + m : Int) : ℚ) := by
    rw [htps, hdelta, ← Int.cast_add]
    exact FloatFormat.round_eq_self_iff.mpr (FloatFormat.represents_intCast (by decide) hsum (by decide))
  refine ⟨max 0 (min top (n + m)), ?_, le_max_left _ _, ?_⟩
  · rw [SimulatorState.adjusted, SimulatorState.clampTps, hmin, htop, hround]
    push_cast
    rfl
  · omega

theorem wanted_sixDigits (hmin : settings.minTps = 0) (hmax : SixDigits settings.maxTps)
    (hstep : SixDigits settings.trafficStep) (h : SixDigits s.state.currentTps) (op : ControlOp) :
    SixDigits (wanted settings s op) := by
  obtain ⟨n, hn, hn_nonneg, hn_lt⟩ := h
  obtain ⟨m, hm, hm_nonneg, hm_lt⟩ := hstep
  have hrange : ∀ k : Int, -1000000 < k → k < 2000000 → |(k : ℚ)| < 2 ^ (53 : Int) := by
    intro k hlow hhigh
    have hint : |k| < 2 ^ 53 := abs_lt.mpr ⟨by omega, by omega⟩
    exact_mod_cast hint
  have hraised : SixDigits (SimulatorState.adjusted settings s.state.currentTps settings.trafficStep) :=
    adjusted_sixDigits hmin hmax hn hm (hrange _ (by omega) (by omega))
  cases op with
  | start =>
      simp only [wanted]
      split
      · exact hraised
      · exact ⟨n, hn, hn_nonneg, hn_lt⟩
  | increase => exact hraised
  | decrease =>
      have hlowered : -settings.trafficStep = ((-m : Int) : ℚ) := by rw [hm, Int.cast_neg]
      exact adjusted_sixDigits hmin hmax hn hlowered (hrange _ (by omega) (by omega))
  | stop => exact ⟨n, hn, hn_nonneg, hn_lt⟩
  | reset => exact ⟨n, hn, hn_nonneg, hn_lt⟩

/-- With a whole step and maximum below a million every launched rate is shown by its text. -/
theorem along_showsRate (hmin : settings.minTps = 0) (hmax : SixDigits settings.maxTps)
    (hstep : SixDigits settings.trafficStep) (ops : List (ControlOp × ControlEnv)) :
    EventRun.Along (SimulatorService.step settings) (fun s e => s.ShowsRate settings e) {} ops := by
  have hkeep : ∀ (s : SimulatorService) (e : ControlOp × ControlEnv), SixDigits s.state.currentTps →
      SixDigits (s.step settings e).state.currentTps := by
    rintro s ⟨op, env⟩ h
    have hwanted := wanted_sixDigits hmin hmax hstep h op
    generalize s.step settings (op, env) = s', step_result settings s op env = hres
    cases hres with
    | kept => exact h
    | reset => exact ⟨0, Int.cast_zero.symm, le_refl 0, by decide⟩
    | _ => exact hwanted
  have hzero : SixDigits (({} : SimulatorService).state.currentTps) := ⟨0, Int.cast_zero.symm, le_refl 0, by decide⟩
  exact EventRun.Along.imp (P := fun _ _ => True) (I := fun s => SixDigits s.state.currentTps)
    (fun s e h _ => hkeep s e h) (fun s e h _ _ => shownRate_sixDigits (wanted_sixDigits hmin hmax hstep h e.1))
    hzero (EventRun.along_of_forall (R := fun _ => True) (fun _ _ => trivial))

/-! ## The offered rate -/

/-- The target rate of the live k6 process, zero if there is none. -/
def offeredRate (s : SimulatorService) : ℚ :=
  match s.runner.process with
  | some process => if process.exited then 0 else process.targetRps
  | none => 0

def SimulatorEvent.Launches : SimulatorEvent → Prop
  | .control _ env => env.popen = none
  | .k6Exits => True

/-- A live process belongs to a running generator and offers the stored rate, as its text shows it. -/
structure Offering (settings : SimulatorSettings) (s : SimulatorService) : Prop where
  live : s.runner.isAlive = true → s.state.running = true ∧ s.offeredRate = shownRate s.state.currentTps
  clamped : s.state.running = true ∨ s.state.currentTps ≠ 0 →
    SimulatorState.clampTps settings s.state.currentTps = s.state.currentTps
  float : FloatFormat.binary64.Represents s.state.currentTps

theorem shownRate_mono : Monotone shownRate := FloatFormat.binary64.round_mono.comp FloatFormat.general.round_mono

@[simp] theorem shownRate_zero : shownRate 0 = 0 := by
  simp [shownRate]

theorem shownRate_nonneg {rate : ℚ} (h : 0 ≤ rate) : 0 ≤ shownRate rate := by
  have hmono := shownRate_mono h
  rwa [shownRate_zero] at hmono

theorem offeredRate_dead (h : s.runner.isAlive = false) : s.offeredRate = 0 := by
  unfold offeredRate
  unfold K6Runner.isAlive at h
  split at h
  · simp_all
  · simp_all

theorem clampTps_clampTps (settings : SimulatorSettings) (tps : ℚ) :
    SimulatorState.clampTps settings (SimulatorState.clampTps settings tps) = SimulatorState.clampTps settings tps := by
  unfold SimulatorState.clampTps
  rcases le_total settings.minTps settings.maxTps with h | h
  · rw [min_eq_right (max_le h (min_le_left _ _)), max_eq_right (le_max_left _ _)]
  · rw [max_eq_left ((min_le_left _ _).trans h), max_eq_left ((min_le_left _ _).trans h)]

theorem adjusted_clamped (settings : SimulatorSettings) (tps delta : ℚ) :
    SimulatorState.clampTps settings (SimulatorState.adjusted settings tps delta) =
      SimulatorState.adjusted settings tps delta := clampTps_clampTps settings _

theorem adjusted_float (hfloat : settings.Floats) (tps delta : ℚ) :
    FloatFormat.binary64.Represents (SimulatorState.adjusted settings tps delta) := by
  unfold SimulatorState.adjusted SimulatorState.clampTps
  generalize hsum : FloatFormat.binary64.round (tps + delta) = sum
  rcases max_choice settings.minTps (min settings.maxTps sum) with h | h <;> rw [h]
  · exact hfloat.min_float
  · rcases min_choice settings.maxTps sum with h | h <;> rw [h]
    · exact hfloat.max_float
    · exact hsum ▸ FloatFormat.represents_round _ _

theorem clampTps_mono (settings : SimulatorSettings) {a b : ℚ} (h : a ≤ b) :
    SimulatorState.clampTps settings a ≤ SimulatorState.clampTps settings b :=
  max_le_max_left _ (min_le_min_left _ h)

theorem Offering.wanted_clamped (h : s.Offering settings)
    (hused : s.state.running = true ∨ wanted settings s op ≠ 0) :
    SimulatorState.clampTps settings (wanted settings s op) = wanted settings s op := by
  cases op with
  | start =>
      simp only [wanted] at hused ⊢
      split
      · exact adjusted_clamped settings _ _
      · rename_i hkept
        rw [if_neg hkept] at hused
        exact h.clamped hused
  | increase => exact adjusted_clamped settings _ _
  | decrease => exact adjusted_clamped settings _ _
  | stop => exact h.clamped hused
  | reset => exact h.clamped hused

theorem Offering.wanted_float (h : s.Offering settings) (hfloat : settings.Floats) (op : ControlOp) :
    FloatFormat.binary64.Represents (wanted settings s op) := by
  cases op with
  | start =>
      simp only [wanted]
      split
      · exact adjusted_float hfloat _ _
      · exact h.float
  | increase => exact adjusted_float hfloat _ _
  | decrease => exact adjusted_float hfloat _ _
  | stop => exact h.float
  | reset => exact h.float

theorem Offering.start : Offering settings {} :=
  ⟨fun hr => (nomatch hr), fun hused => by simp at hused, FloatFormat.represents_zero _⟩

theorem Offering.step (h : s.Offering settings) (hfloat : settings.Floats) (hlaunch : env.popen = none) :
    (s.step settings (op, env)).Offering settings := by
  have hwanted := h.wanted_float hfloat op
  generalize s.step settings (op, env) = s', step_result settings s op env = hres
  cases hres with
  | kept hop hrun hsame => exact h
  | idle hop hrun =>
      exact ⟨fun hr => absurd (hrun.symm.trans (h.live hr).1) Bool.noConfusion, fun hused => h.wanted_clamped hused,
        hwanted⟩
  | stopped hop hrun => exact ⟨fun hr => (nomatch hr), fun _ => h.wanted_clamped (Or.inl hrun), hwanted⟩
  | started currentRps hop hrun _ =>
      refine ⟨fun _ => ⟨rfl, rfl⟩, fun _ => ?_, hwanted⟩
      rcases hop with rfl | ⟨_, hpos⟩
      · by_cases hzero : s.state.currentTps ≤ 0
        · have hraised : wanted settings s .start =
              SimulatorState.adjusted settings s.state.currentTps settings.trafficStep := by simp [wanted, hrun, hzero]
          change SimulatorState.clampTps settings (wanted settings s .start) = wanted settings s .start
          rw [hraised]
          exact adjusted_clamped settings _ _
        · have hsame : wanted settings s .start = s.state.currentTps := by simp [wanted, hzero]
          change SimulatorState.clampTps settings (wanted settings s .start) = wanted settings s .start
          rw [hsame]
          exact h.clamped (Or.inr (not_le.mp hzero).ne')
      · exact h.wanted_clamped (Or.inr hpos.ne')
  | startFailed _ _ hfail => exact absurd hlaunch hfail
  | restarted currentRps hop hrun hne hpos _ =>
      exact ⟨fun _ => ⟨hrun, rfl⟩, fun _ => h.wanted_clamped (Or.inl hrun), hwanted⟩
  | restartFailed _ _ _ _ hfail => exact absurd hlaunch hfail
  | reset hop =>
      refine ⟨fun hr => ?_, fun hused => ?_, FloatFormat.represents_zero _⟩
      · cases hrun : s.state.running with
        | true => simp [hrun, K6Runner.isAlive] at hr
        | false =>
            rw [hrun] at hr
            exact absurd (hrun.symm.trans (h.live hr).1) Bool.noConfusion
      · rcases hused with hr | hne
        · cases hr
        · exact absurd rfl hne

theorem exitK6_dead (s : SimulatorService) : s.exitK6.runner.isAlive = false := by
  unfold exitK6 K6Runner.isAlive
  cases s.runner.process <;> rfl

theorem Offering.react (h : s.Offering settings) (hfloat : settings.Floats) {e : SimulatorEvent}
    (hlaunch : e.Launches) : (s.react settings e).Offering settings := by
  cases e with
  | control op env => exact h.step hfloat hlaunch
  | k6Exits =>
      refine ⟨fun hr => ?_, h.clamped, h.float⟩
      exact absurd ((exitK6_dead s).symm.trans hr) Bool.noConfusion

/-- A rate in its range stays where it is or rises by a step that is not negative. -/
theorem Offering.le_raised (h : s.Offering settings) (hstep : 0 ≤ settings.trafficStep)
    (hrun : s.state.running = true) :
    s.state.currentTps ≤ SimulatorState.adjusted settings s.state.currentTps settings.trafficStep := by
  have hsum : s.state.currentTps ≤ FloatFormat.binary64.round (s.state.currentTps + settings.trafficStep) := by
    have hmono := FloatFormat.binary64.round_mono (le_add_of_nonneg_right hstep : s.state.currentTps ≤ _)
    rwa [FloatFormat.round_eq_self_iff.mpr h.float] at hmono
  calc s.state.currentTps
    _ = SimulatorState.clampTps settings s.state.currentTps := (h.clamped (Or.inl hrun)).symm
    _ ≤ SimulatorState.adjusted settings s.state.currentTps settings.trafficStep := clampTps_mono settings hsum

theorem Offering.lowered_le (h : s.Offering settings) (hstep : 0 ≤ settings.trafficStep)
    (hrun : s.state.running = true) :
    SimulatorState.adjusted settings s.state.currentTps (-settings.trafficStep) ≤ s.state.currentTps := by
  have hsum : FloatFormat.binary64.round (s.state.currentTps + -settings.trafficStep) ≤ s.state.currentTps := by
    have hmono := FloatFormat.binary64.round_mono
      (add_le_of_nonpos_right (neg_nonpos.mpr hstep) : _ ≤ s.state.currentTps)
    rwa [FloatFormat.round_eq_self_iff.mpr h.float] at hmono
  calc SimulatorState.adjusted settings s.state.currentTps (-settings.trafficStep)
    _ ≤ SimulatorState.clampTps settings s.state.currentTps := clampTps_mono settings hsum
    _ = s.state.currentTps := h.clamped (Or.inl hrun)

theorem Offering.increase_le (h : s.Offering settings) (hstep : 0 ≤ settings.trafficStep) (hlaunch : env.popen = none) :
    s.offeredRate ≤ (s.step settings (.increase, env)).offeredRate := by
  have hmax : s.offeredRate ≤ max 0 (shownRate (wanted settings s .increase)) := by
    cases hlive : s.runner.isAlive with
    | true =>
        obtain ⟨hrun, hrate⟩ := h.live hlive
        exact le_max_of_le_right (hrate.trans_le (shownRate_mono (h.le_raised hstep hrun)))
    | false => exact le_max_of_le_left (offeredRate_dead hlive).le
  generalize s.step settings (.increase, env) = s', step_result settings s .increase env = hres
  have hshown : 0 < wanted settings s .increase → max 0 (shownRate (wanted settings s .increase)) =
      shownRate (wanted settings s .increase) := fun hpos =>
    max_eq_right (shownRate_nonneg hpos.le)
  cases hres with
  | kept hop hrun hsame => exact le_refl _
  | idle hop hrun => exact le_refl _
  | stopped hop hrun =>
      rcases hop with hop | ⟨_, hle⟩
      · cases hop
      · exact hmax.trans_eq (max_eq_left (shownRate_zero ▸ shownRate_mono hle))
  | started currentRps hop hrun _ =>
      rcases hop with hop | ⟨_, hpos⟩
      · cases hop
      · exact hmax.trans_eq (hshown hpos)
  | startFailed _ _ hfail => exact absurd hlaunch hfail
  | restarted currentRps hop hrun hne hpos _ => exact hmax.trans_eq (hshown hpos)
  | restartFailed _ _ _ _ hfail => exact absurd hlaunch hfail
  | reset hop => cases hop

theorem clampTps_nonneg (hmin : 0 ≤ settings.minTps) (tps : ℚ) : 0 ≤ SimulatorState.clampTps settings tps :=
  hmin.trans (le_max_left _ _)

theorem Offering.decrease_live (h : s.Offering settings) (hstep : 0 ≤ settings.trafficStep)
    (hmin : 0 ≤ settings.minTps) (hlaunch : env.popen = none) (hlive : s.runner.isAlive = true) :
    (s.step settings (.decrease, env)).offeredRate ≤ s.offeredRate := by
  obtain ⟨hrun, hrate⟩ := h.live hlive
  have hkeep := h.clamped (Or.inl hrun)
  have hlowered := h.lowered_le hstep hrun
  generalize s.step settings (.decrease, env) = s', step_result settings s .decrease env = hres
  cases hres with
  | kept hop _ hsame => exact le_refl _
  | idle hop hquiet => exact absurd (hrun.symm.trans hquiet) Bool.noConfusion
  | stopped hop _ =>
      rw [hrate, ← hkeep]
      exact shownRate_nonneg (clampTps_nonneg hmin _)
  | started currentRps hop hquiet _ => exact absurd (hrun.symm.trans hquiet) Bool.noConfusion
  | startFailed _ _ hfail => exact absurd hlaunch hfail
  | restarted currentRps hop _ hne hpos _ =>
      rw [hrate]
      exact shownRate_mono hlowered
  | restartFailed _ _ _ _ hfail => exact absurd hlaunch hfail
  | reset hop => cases hop

/-- Without a live process, a decrease launches one at what is left of the stored rate. -/
theorem decrease_dead (hmin : 0 ≤ settings.minTps) (hlaunch : env.popen = none) (hdead : s.runner.isAlive = false) :
    (s.step settings (.decrease, env)).offeredRate =
      if s.state.running = true ∧ wanted settings s .decrease = s.state.currentTps then 0
      else shownRate (wanted settings s .decrease) := by
  have hzero := offeredRate_dead hdead
  have hnonneg : 0 ≤ wanted settings s .decrease := clampTps_nonneg hmin _
  generalize s.step settings (.decrease, env) = s', step_result settings s .decrease env = hres
  cases hres with
  | kept hop hrun hsame => rw [if_pos ⟨hrun, hsame⟩, hzero]
  | idle hop hrun =>
      rcases hop with hop | ⟨_, hle⟩
      · cases hop
      · rw [if_neg (by simp [hrun]), le_antisymm hle hnonneg, shownRate_zero]
        exact hzero
  | stopped hop hrun =>
      rcases hop with hop | ⟨_, hle⟩
      · cases hop
      · rw [le_antisymm hle hnonneg, shownRate_zero, ite_self]
        rfl
  | started currentRps hop hrun _ =>
      rw [if_neg (by simp [hrun])]
      rfl
  | startFailed _ _ hfail => exact absurd hlaunch hfail
  | restarted currentRps hop hrun hne hpos _ =>
      rw [if_neg fun hsame => hne hsame.2]
      rfl
  | restartFailed _ _ _ _ hfail => exact absurd hlaunch hfail
  | reset hop => cases hop

/-! ## The counters -/

theorem step_counters (settings : SimulatorSettings) (s : SimulatorService) (env : ControlEnv) (hop : op ≠ .reset) :
    (s.step settings (op, env)).state.counters = s.state.counters := by
  generalize s.step settings (op, env) = s', step_result settings s op env = hres
  cases hres with
  | reset hr => exact absurd hr hop
  | _ => rfl

theorem step_reset_counters (settings : SimulatorSettings) (s : SimulatorService) (env : ControlEnv) :
    (s.step settings (.reset, env)).state.counters = (0, 0, 0, 0) := by
  rw [step_reset]
  rfl

end SimulatorService

namespace RelayState

variable {settings : SimulatorSettings} {s : RelayState}

/-- Every call in flight has been counted as generated and not yet as a success or a failure. -/
structure Counted (s : RelayState) : Prop where
  answered : s.service.state.successCount + s.service.state.failCount + s.inFlight ≤
    s.service.state.generatedRequestCount
  queued : s.service.state.queuePublishCount ≤ s.service.state.successCount

/-- The counters are cleared while a call is in flight. -/
def ClearsInFlight (s : RelayState) : RelayEvent → Prop
  | .control op _ => op = .reset ∧ 0 < s.inFlight
  | _ => False

instance (s : RelayState) : DecidablePred s.ClearsInFlight
  | .control _ _ => inferInstanceAs (Decidable (_ ∧ _))
  | .relayCall _ => .isFalse id
  | .relayAnswer _ => .isFalse id
  | .burst _ => .isFalse id
  | .burstCall _ _ => .isFalse id
  | .burstAnswer _ _ => .isFalse id

theorem Counted.start : Counted {} := ⟨le_refl 0, le_refl 0⟩

theorem Counted.ordered (h : s.Counted) : s.service.state.CountersOrdered :=
  ⟨le_trans (Nat.le_add_right _ _) h.answered, h.queued⟩

theorem Counted.keep (h : s.Counted) {s' : RelayState}
    (hcounters : s'.service.state.counters = s.service.state.counters) (hin : s'.inFlight = s.inFlight) :
    s'.Counted := by
  obtain ⟨hanswered, hqueued⟩ := h
  simp only [SimulatorState.counters, Prod.mk.injEq] at hcounters
  exact ⟨by omega, by omega⟩

theorem Counted.cleared {s' : RelayState} (hcounters : s'.service.state.counters = (0, 0, 0, 0))
    (hin : s'.inFlight = 0) : s'.Counted := by
  simp only [SimulatorState.counters, Prod.mk.injEq] at hcounters
  exact ⟨by omega, by omega⟩

/-- A call leaves the semaphore with the counter raised, so the counted calls rise with those in flight. -/
theorem Counted.call (h : s.Counted) {s' : RelayState} {now : Int} (hs : s'.service = s.service.relayCall now)
    (hin : s'.inFlight = s.inFlight + 1) : s'.Counted := by
  obtain ⟨hanswered, hqueued⟩ := h
  refine ⟨?_, ?_⟩
  · rw [hs, hin]
    simp only [SimulatorService.relayCall, SimulatorState.recordGenerated]
    omega
  · rw [hs]
    exact hqueued

theorem Counted.answer (h : s.Counted) {s' : RelayState} {reply : RelayReply}
    (hs : s'.service = (s.service.relayAnswer reply).2) (hin : s'.inFlight + 1 = s.inFlight) : s'.Counted := by
  obtain ⟨hanswered, hqueued⟩ := h
  cases reply with
  | failed =>
      simp only [SimulatorService.relayAnswer] at hs
      refine ⟨?_, ?_⟩ <;> rw [hs] <;> simp only [SimulatorState.recordFail] <;> omega
  | answered status content =>
      simp only [SimulatorService.relayAnswer] at hs
      split at hs
      · refine ⟨?_, ?_⟩ <;> rw [hs] <;> simp only [SimulatorState.recordSuccess, if_true] <;> omega
      · split at hs
        · refine ⟨?_, ?_⟩ <;> rw [hs] <;> simp [SimulatorState.recordSuccess] <;> omega
        · refine ⟨?_, ?_⟩ <;> rw [hs] <;> simp only [SimulatorState.recordFail] <;> omega

theorem sum_set_add {calls : List Nat} {i n : Nat} (h : calls[i]? = some n) (m : Nat) :
    (calls.set i m).sum + n = calls.sum + m := by
  induction calls generalizing i with
  | nil => simp at h
  | cons call calls ih =>
      cases i with
      | zero =>
          have hcall : call = n := by simpa using h
          simp [hcall]
          omega
      | succ i =>
          have hrest := ih (i := i) (by simpa using h)
          simp only [List.set_cons_succ, List.sum_cons]
          omega

theorem inFlight_set {bursts : List BurstTask} {task : Nat} {burst : BurstTask} (h : bursts[task]? = some burst)
    (burst' : BurstTask) :
    ((bursts.set task burst').map BurstTask.inFlight).sum + burst.inFlight =
      (bursts.map BurstTask.inFlight).sum + burst'.inFlight := by
  rw [List.map_set]
  exact sum_set_add (by simp [h]) _

theorem Counted.step (h : s.Counted) {e : RelayEvent} (he : ¬ s.ClearsInFlight e) : (s.step settings e).Counted := by
  cases e with
  | control op env =>
      by_cases hop : op = .reset
      · subst hop
        have hnone : s.inFlight = 0 := by
          by_contra hsome
          exact he ⟨rfl, Nat.pos_of_ne_zero hsome⟩
        exact .cleared (SimulatorService.step_reset_counters settings s.service env) hnone
      · exact h.keep (SimulatorService.step_counters settings s.service env hop) rfl
  | relayCall now =>
      refine h.call rfl ?_
      simp only [RelayState.step, inFlight]
      omega
  | relayAnswer reply =>
      simp only [RelayState.step]
      split
      · refine h.answer rfl ?_
        simp only [inFlight]
        omega
      · exact h
  | burst count =>
      simp only [RelayState.step]
      split
      · exact h
      · exact h.keep rfl (by simp [inFlight])
  | burstCall task now =>
      simp only [RelayState.step]
      cases hb : s.bursts[task]? with
      | none => exact h
      | some burst =>
          dsimp only
          split
          · refine h.call rfl ?_
            have hset := inFlight_set hb ⟨burst.waiting - 1, burst.inFlight + 1⟩
            simp only [inFlight] at hset ⊢
            omega
          · exact h
  | burstAnswer task reply =>
      simp only [RelayState.step]
      cases hb : s.bursts[task]? with
      | none => exact h
      | some burst =>
          dsimp only
          split
          · refine h.answer rfl ?_
            have hset := inFlight_set hb ⟨burst.waiting, burst.inFlight - 1⟩
            simp only [inFlight] at hset ⊢
            omega
          · exact h

end RelayState

end Hailcast
