import Hailcast.Lib.EventRun
import Hailcast.Simulator.Lemmas
import Hailcast.Simulator.Relay

/-!
# Runs of the simulator

The flag against the process, the rate that the process was launched with, and the counters of the calls.
-/

namespace Hailcast

open SimulatorService

variable {settings : SimulatorSettings}

/-! ## The flag and the process -/

/-- After every operation of a run the flag agrees with the process exactly when no operation strands the
generator. -/
theorem simulator_running_iff_alive (settings : SimulatorSettings) (ops : List (ControlOp × ControlEnv)) :
    (∀ pre post, ops = pre ++ post → (EventRun.run (SimulatorService.step settings) {} pre).Consistent) ↔
      EventRun.Along (SimulatorService.step settings) (fun s e => ¬ s.Strands settings e) {} ops :=
  (EventRun.along_iff_invariant (I := Consistent) (fun _ e h => Consistent.step_iff h e)
    (show Consistent {} from rfl)).symm

/-- The second increase of the rate cannot launch its process: the first one is gone, and the flag is still set. -/
theorem simulator_stranded_by_increase :
    ¬ (EventRun.run (SimulatorService.step {}) {}
      [(.increase, {}), (.increase, { popen := some "No such file or directory" })]).Consistent := by
  unfold Consistent
  decide +kernel

/-! ## The rate -/

/-- After these operations the live process runs at the stored rate, and a last increase has left the generator
running. -/
def SimulatorService.RateKept (settings : SimulatorSettings) (ops : List (ControlOp × ControlEnv)) : Prop :=
  (EventRun.run (SimulatorService.step settings) {} ops).Steady settings ∧
    ∀ pre env, ops = pre ++ [(.increase, env)] →
      (EventRun.run (SimulatorService.step settings) {} ops).state.running = true

/-- Where every launch succeeds, the live process runs at the stored rate after every operation exactly if the six
digits of the text of each rate that is launched read as the rate. -/
theorem simulator_rate_kept_iff (settings : SimulatorSettings) (hset : settings.Positive)
    (ops : List (ControlOp × ControlEnv)) (hlaunch : ∀ e ∈ ops, e.2.popen = none) :
    (∀ pre post, ops = pre ++ post → SimulatorService.RateKept settings pre) ↔
      EventRun.Along (SimulatorService.step settings) (fun s e => s.ShowsRate settings e) {} ops := by
  have hstart : SimulatorService.Regular settings {} :=
    ⟨⟨fun hr => (nomatch hr), fun _ => ⟨rfl, rfl, rfl⟩⟩, le_refl 0, hset.max_pos.le⟩
  have hsteady : EventRun.Along (SimulatorService.step settings) (fun s e => s.ShowsRate settings e) {} ops ↔
      ∀ pre post, ops = pre ++ post → (EventRun.run (SimulatorService.step settings) {} pre).Steady settings :=
    EventRun.Along.iff_all (I := Regular settings) (fun _ _ h he => h.step hset he)
      (fun _ _ _ he hs => hs.showsRate he) (fun _ h => h.toSteady) hstart (EventRun.along_of_forall hlaunch)
  rw [hsteady]
  constructor
  · exact fun h pre post hsplit => (h pre post hsplit).1
  · intro h pre post hsplit
    refine ⟨h pre post hsplit, ?_⟩
    rintro before env rfl
    -- the increase finds a regular state
    have hshown := (EventRun.along_append.mp (hsplit ▸ hsteady.mpr h)).1
    have hquiet : EventRun.Along (SimulatorService.step settings) (fun _ e => e.2.popen = none) {}
        (before ++ [(.increase, env)]) :=
      EventRun.along_of_forall fun e he => hlaunch e (hsplit ▸ List.mem_append_left post he)
    have hboth := hquiet.and hshown
    obtain ⟨hbefore, hlast, _⟩ := EventRun.along_append.mp hboth
    have hregular := EventRun.Along.invariant (I := Regular settings)
      (fun _ _ h he => h.step hset he.1 he.2) hstart hbefore
    rw [EventRun.run_append]
    exact increase_running hset hregular hlast.1

theorem shipped_positive : SimulatorSettings.Positive {} where
  step_float := FloatFormat.round_eq_self_iff.mp (by decide +kernel)
  min_float := FloatFormat.represents_zero _
  max_float := FloatFormat.round_eq_self_iff.mp (by decide +kernel)
  step_pos := by norm_num
  max_pos := by norm_num
  min_zero := rfl

/-- Two increases, a stop and an increase, at rates of 500 and 600. -/
def restartAtMaximum : List (ControlOp × ControlEnv) := [(.increase, {}), (.increase, {}), (.stop, {}), (.increase, {})]

/-- With the shipped settings: two increases reach the maximum, and the one after the stop starts again there. -/
theorem simulator_rate_kept_at_maximum : SimulatorService.RateKept {} restartAtMaximum := by
  have hshown : EventRun.Along (SimulatorService.step {}) (fun s e => s.ShowsRate {} e) {} restartAtMaximum :=
    along_showsRate rfl ⟨600, rfl, by decide, by decide⟩ ⟨500, rfl, by decide, by decide⟩ restartAtMaximum
  exact (simulator_rate_kept_iff {} shipped_positive restartAtMaximum (by simp [restartAtMaximum])).mpr hshown
    restartAtMaximum [] (List.append_nil _).symm

/-- A step and a maximum of seven digits. -/
def sevenDigits : SimulatorSettings where
  trafficStep := 1234567
  maxTps := 1234567

theorem sevenDigits_positive : sevenDigits.Positive where
  step_float := FloatFormat.round_eq_self_iff.mp (by decide +kernel)
  min_float := FloatFormat.represents_zero _
  max_float := FloatFormat.round_eq_self_iff.mp (by decide +kernel)
  step_pos := by norm_num [sevenDigits]
  max_pos := by norm_num [sevenDigits]
  min_zero := rfl

/-- The first increase launches k6 at 1.23457e+06, and the rate of the generator is 1234567. -/
theorem simulator_rate_shortened :
    sevenDigits.Positive ∧ (∀ e ∈ [(ControlOp.increase, ({} : ControlEnv))], e.2.popen = none) ∧
      ¬ SimulatorService.RateKept sevenDigits [(.increase, {})] := by
  refine ⟨sevenDigits_positive, by simp, ?_⟩
  rintro ⟨hsteady, _⟩
  obtain ⟨process, hprocess, _, hrate, _⟩ := hsteady.live (by decide +kernel)
  have htarget : (EventRun.run (SimulatorService.step sevenDigits) {} [(.increase, {})]).runner.process.map
      K6Process.targetRps = some 1234570 := by decide +kernel
  rw [hprocess] at htarget
  have hstored : (EventRun.run (SimulatorService.step sevenDigits) {} [(.increase, {})]).state.currentTps =
      1234567 := by decide +kernel
  rw [hstored] at hrate
  rw [Option.map_some, hrate] at htarget
  exact absurd htarget (by decide +kernel)

/-- As long as every launch succeeds, an increase never lowers the offered rate and a decrease never raises the one of
a live process; without a live process it launches one at what is left of the stored rate. -/
theorem simulator_rate_direction (settings : SimulatorSettings) (hfloat : settings.Floats)
    (hstep : 0 ≤ settings.trafficStep) (hmin : 0 ≤ settings.minTps) (events : List SimulatorEvent)
    (hlaunch : ∀ e ∈ events, e.Launches) (s : SimulatorService)
    (hs : s = EventRun.run (SimulatorService.react settings) {} events) (env : ControlEnv) (henv : env.popen = none) :
    s.offeredRate ≤ (s.step settings (.increase, env)).offeredRate ∧
      (s.runner.isAlive = true → (s.step settings (.decrease, env)).offeredRate ≤ s.offeredRate) ∧
      (s.runner.isAlive = false → (s.step settings (.decrease, env)).offeredRate =
        if s.state.running = true ∧
            SimulatorState.adjusted settings s.state.currentTps (-settings.trafficStep) = s.state.currentTps then 0
        else shownRate (SimulatorState.adjusted settings s.state.currentTps (-settings.trafficStep))) := by
  have h : s.Offering settings := hs ▸ EventRun.Along.invariant (P := fun _ e => e.Launches)
    (fun _ _ h he => h.react hfloat he) Offering.start (EventRun.along_of_forall hlaunch)
  exact ⟨h.increase_le hstep henv, h.decrease_live hstep hmin henv, decrease_dead hmin henv⟩

/-- With the shipped settings, at the maximum of 600. -/
theorem simulator_rate_direction_at_maximum :
    ((EventRun.run (SimulatorService.react {}) {} [.control .increase {}, .control .increase {}]).step {}
      (.decrease, {})).offeredRate ≤ 600 :=
  ((simulator_rate_direction {} shipped_positive.toFloats (by norm_num) (le_refl 0)
    [.control .increase {}, .control .increase {}] (by simp [SimulatorEvent.Launches]) _ rfl {} rfl).2.1
    (by decide +kernel)).trans (by decide +kernel)

/-- Stopped at the maximum of 600, and then decreased: k6 runs at 100. -/
theorem simulator_decrease_starts :
    ¬ ((EventRun.run (SimulatorService.react {}) {}
          [.control .increase {}, .control .increase {}, .control .stop {}]).step {} (.decrease, {})).offeredRate ≤
      (EventRun.run (SimulatorService.react {}) {}
        [.control .increase {}, .control .increase {}, .control .stop {}]).offeredRate := by
  decide +kernel

/-! ## The counters -/

/-- As long as no reset finds a call in flight, the answers never outnumber the calls in any reachable state. -/
theorem relay_counters_ordered (settings : SimulatorSettings) (es : List RelayEvent)
    (hclear : EventRun.Along (RelayState.step settings) (fun s e => ¬ s.ClearsInFlight e) {} es) :
    (EventRun.run (RelayState.step settings) {} es).service.state.CountersOrdered :=
  (EventRun.Along.invariant (fun _ _ h he => h.step he) RelayState.Counted.start hclear).ordered

/-- A reset with nothing in flight, between a call of a burst and a relayed call. -/
theorem relay_counters_ordered_over_reset :
    (EventRun.run (RelayState.step {}) {}
      [.burst 1, .burstCall 0 0, .burstAnswer 0 (.answered 202 ""), .control .reset {}, .relayCall 1,
        .relayAnswer .failed]).service.state.CountersOrdered :=
  relay_counters_ordered {} _ (by decide +kernel)

/-- A reset between the request of k6 and the answer of call-api. -/
theorem relay_success_without_call :
    ¬ (EventRun.run (RelayState.step {}) {}
      [.relayCall 0, .control .reset {}, .relayAnswer (.answered 202 "")]).service.state.CountersOrdered := by
  unfold SimulatorState.CountersOrdered
  decide +kernel

end Hailcast
