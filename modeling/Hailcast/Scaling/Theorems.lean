import Hailcast.Scaling.Lemmas.Bounds
import Hailcast.Scaling.Lemmas.Cooldown
import Hailcast.Scaling.Lemmas.Events
import Hailcast.Scaling.Lemmas.Hysteresis
import Hailcast.Scaling.Lemmas.Overload
import Mathlib.Tactic.IntervalCases

/-!
# Runs of the scaler

What holds of `patch_min_replicas`, of the cooldown, of the reactive hold and of the event table over every run of
ticks, status calls and restarts.
-/

namespace Hailcast

/-- A tick at `time` in which everything answers, with a forecast of `demand` and a reading of `traffic`. -/
def quietTick (time : Int) (demand traffic : ℚ) : TickEnv where
  document := .ok (some ⟨time, "v1", 60, 1, demand, []⟩)
  ageClock := time
  demandClock := time
  trafficBody := .ok (some (.obj [("hourly_requests", .num traffic)]))
  cooldownClock := time
  patch := fun _ => .applied time
  appliedClock := time
  history := .commits time

theorem quietTick_reaches (time : Int) (traffic : ℚ) :
    ∃ document baseline, (quietTick time 0 traffic).Reaches {} document baseline (.num traffic) ∧
      currentDemand {} document time = 0 := by
  refine ⟨⟨time, "v1", 60, 1, 0, []⟩, ⟨1, .noDemand, ⟨0, .noDemand, none⟩⟩, ⟨rfl, ?_, rfl, ?_, rfl⟩, rfl⟩
  · simp [quietTick, totalSeconds]
  · exact ⟨1, le_refl 1, by decide, rfl⟩

theorem quietTick_patchesSucceed (time : Int) (demand traffic : ℚ) :
    (quietTick time demand traffic).PatchesSucceed := fun _ => ⟨time, rfl⟩

theorem quietTick_inOrder {now time : Int} (h : now ≤ time) (demand traffic : ℚ) :
    ScalerStep.InOrder now (.tick (quietTick time demand traffic)) := by
  simp [ScalerStep.InOrder, quietTick, h]

theorem quietTick_reliable (time : Int) (demand traffic : ℚ) :
    ScalerStep.Reliable (.tick (quietTick time demand traffic)) := by
  simp [ScalerStep.Reliable, quietTick]

theorem quietTick_faultFree (time : Int) (traffic : ℚ) :
    ScalerStep.FaultFree 0 traffic (.tick (quietTick time 0 traffic)) :=
  ⟨_, rfl, quietTick_reaches time traffic, rfl, quietTick_patchesSucceed time 0 traffic, time, rfl⟩

/-! ## Bounds -/

/-- From a start within the bounds, as long as no tick overshoots every patched value is in the bounds; with a
reactive step that is not negative, only then. -/
theorem scaler_patches_in_bounds (cfg : PredictSettings) (live : Int) (history : List ScalingEvent)
    (hlive : cfg.InBounds live) (steps : List ScalerStep) :
    (EventRun.Along (World.step cfg) (fun w e => ¬ w.Overshoots cfg e) (World.start live history) steps →
      ∀ r ∈ (EventRun.run (World.step cfg) (World.start live history) steps).patched, cfg.InBounds r) ∧
    (0 ≤ cfg.scalingReactiveStep →
      (∀ r ∈ (EventRun.run (World.step cfg) (World.start live history) steps).patched, cfg.InBounds r) →
      EventRun.Along (World.step cfg) (fun w e => ¬ w.Overshoots cfg e) (World.start live history) steps) := by
  have hstart := World.Bounded.start hlive history
  refine ⟨fun hno => ?_, fun hstep hp => hstart.along_of_patched hstep hp⟩
  exact (EventRun.Along.invariant (I := World.Bounded cfg) (fun _ _ h hn => h.step hn) hstart hno).patched

/-- Three replicas, raised to four by a forecast of 1200 and held there. -/
theorem scaler_patches_in_bounds_three :
    EventRun.Along (World.step {}) (fun w e => ¬ w.Overshoots {} e) (World.start 3 [])
      [.tick (quietTick 0 1200 800), .tick (quietTick 10 1200 1000)] :=
  (scaler_patches_in_bounds {} 3 [] (by decide) _).2 (by decide) (by decide +kernel)

/-- A raise at ten replicas, with a utilization of 0.8, patches an eleventh. -/
theorem scaler_patches_eleven :
    ({} : PredictSettings).InBounds 10 ∧
      (EventRun.run (World.step {}) (World.start 10 []) [.tick (quietTick 0 0 4000)]).patched = [11] ∧
      ¬ ({} : PredictSettings).InBounds 11 := by
  refine ⟨by decide, ?_, by decide⟩
  decide +kernel

/-! ## Cooldown -/

/-- A step that lowers the live value does so a cooldown after every earlier change, whatever restarts and
status calls there were. -/
theorem scaler_lowering_waits (cfg : PredictSettings) (live : Int) (history : List ScalingEvent) (now : Int)
    (steps : List ScalerStep) (e : ScalerStep)
    (horder : EventRun.Along ScalerStep.ends ScalerStep.InOrder now (steps ++ [e]))
    (hrel : ∀ f ∈ steps ++ [e], f.Reliable) :
    (EventRun.run (World.step cfg) (World.start live history) steps).Spaced cfg
      (EventRun.run (World.step cfg) (World.start live history) (steps ++ [e])) := by
  have hstart : (World.start live history).Accounted now :=
    ⟨by simp [World.start], by simp [World.start], by simp [World.start]⟩
  obtain ⟨hsteps, he, _⟩ := EventRun.along_append.mp horder
  have hrun := hstart.run cfg hsteps (fun f hf => hrel f (by simp [hf]))
  rw [EventRun.run_append]
  exact (hrun.step he (hrel e (by simp))).2

/-- Raised at time 0 and, after a restart, lowered 300 seconds later. -/
theorem scaler_lowering_waits_restart :
    (EventRun.run (World.step {}) (World.start 3 []) [.tick (quietTick 0 1200 1000), .restart]).Spaced {}
      (EventRun.run (World.step {}) (World.start 3 [])
        [.tick (quietTick 0 1200 1000), .restart, .tick (quietTick 300000000 0 700)]) := by
  refine scaler_lowering_waits {} 3 [] 0 [.tick (quietTick 0 1200 1000), .restart] (.tick (quietTick 300000000 0 700))
    ⟨quietTick_inOrder (le_refl 0) _ _, trivial, quietTick_inOrder (by decide) _ _, trivial⟩ ?_
  intro f hf
  simp only [List.cons_append, List.nil_append, List.mem_cons, List.not_mem_nil, or_false] at hf
  rcases hf with rfl | rfl | rfl
  · exact quietTick_reliable _ _ _
  · trivial
  · exact quietTick_reliable _ _ _

/-! ## Hysteresis -/

/-- After a reactive raise to `r` the live value stays at `r` or above until a tick observes a low utilization or
no traffic, or the process restarts; forecasts, failures and cooldowns in between do not matter. -/
theorem scaler_hold_is_floor (cfg : PredictSettings) (w : World) (env : TickEnv) (r : Int)
    (hraise : w.RaisesTo cfg env r) (hpatch : env.PatchesSucceed) (steps : List ScalerStep)
    (hno : EventRun.Along (World.step cfg) (fun w e => ¬ w.Releases cfg e) (w.step cfg (.tick env)) steps) :
    r ≤ (EventRun.run (World.step cfg) (w.step cfg (.tick env)) steps).minReplicaCount :=
  (EventRun.Along.invariant (I := World.Holding r) (fun _ _ h hn => h.step hn) (hraise.holding hpatch) hno).live

/-- Raised from three to four, and kept there by the next tick although the forecast asks for one. -/
theorem scaler_hold_is_floor_four :
    4 ≤ (EventRun.run (World.step {}) ((World.start 3 []).step {} (.tick (quietTick 0 0 1300)))
      [.tick (quietTick 300000000 0 1300)]).minReplicaCount := by
  refine scaler_hold_is_floor {} (World.start 3 []) (quietTick 0 0 1300) 4 ?_ (quietTick_patchesSucceed _ _ _) _
    ⟨?_, trivial⟩
  · obtain ⟨document, baseline, hr, _⟩ := quietTick_reaches 0 1300
    exact ⟨document, baseline, _, .fin (1300 / 1500), hr, by simp, by decide +kernel, Or.inl rfl, by decide +kernel,
      by decide⟩
  · rintro ⟨document, baseline, traffic, hr, h⟩
    obtain ⟨_, _, hr', _⟩ := quietTick_reaches 300000000 1300
    obtain ⟨_, _, rfl⟩ := hr.unique hr'
    rcases h with h | ⟨u, hu, hlow⟩
    · cases h
    · have hlive : ((World.start 3 []).step {} (.tick (quietTick 0 0 1300))).minReplicaCount = 4 := by
        decide +kernel
      rw [hlive] at hu
      obtain ⟨q, rfl, hq⟩ := utilization_shipped (by decide) hu
      have : q ≤ 2 / 5 := hlow
      norm_num at hq
      linarith

/-! ## Flapping -/

/-- Tick `k` of a run at intervals of one cooldown, with no demand and 400 calls. -/
def cooledTick (k : Nat) : ScalerStep := .tick (quietTick (k * 300000000) 0 400)

/-- With the shipped settings a fault-free run with constant demand and traffic never lowers after a raise,
unless the demand is 0 and the traffic 400. -/
theorem scaler_no_flapping_iff (live : Int) (hlive : 1 ≤ live ∧ live ≤ 10) (demand traffic : ℚ) :
    (∀ steps : List ScalerStep, (∀ e ∈ steps, e.FaultFree demand traffic) →
      (World.start live []).NoFlap {} steps) ↔ ¬ (demand = 0 ∧ traffic = 400) := by
  constructor
  · rintro h ⟨rfl, rfl⟩
    obtain ⟨hmin, hmax⟩ := hlive
    -- the reading lowers the live value to one, from where it goes up to two and down again
    have hquiet : ∀ e ∈ (List.range (live - 1).toNat).map cooledTick ++
        cooledTick (live - 1).toNat :: ([] ++ cooledTick live.toNat :: []), e.FaultFree 0 400 := by
      intro e he
      simp only [List.nil_append, List.mem_append, List.mem_map, List.mem_cons, List.not_mem_nil, or_false] at he
      rcases he with ⟨k, _, rfl⟩ | rfl | rfl <;> exact quietTick_faultFree _ _
    have hflap := h _ hquiet _ _ _ _ _ rfl
    interval_cases live <;> exact absurd (hflap (by decide +kernel)) (by decide +kernel)
  · intro hne steps hf
    have hstart : (World.start live []).Levelled (shippedBaseline demand) traffic :=
      ⟨hlive.1, by simp [World.start]⟩
    exact hstart.noFlap hne hf

/-- With a demand of 0 and 2000 calls five replicas are raised to six, and not lowered again. -/
theorem scaler_no_flapping_of_five :
    (World.start 5 []).NoFlap {} [.tick (quietTick 0 0 2000), .tick (quietTick 300000000 0 2000)] := by
  refine (scaler_no_flapping_iff 5 (by decide) 0 2000).mpr (by norm_num) _ fun e he => ?_
  simp only [List.mem_cons, List.not_mem_nil, or_false] at he
  rcases he with rfl | rfl <;> exact quietTick_faultFree _ _

/-- One replica, a forecast of 0 and 400 calls: raised to two at a utilization of 0.8, which brings it to 0.4,
and lowered to one again. -/
theorem scaler_flaps_at_four_hundred :
    (∀ e ∈ [cooledTick 0, cooledTick 1], e.FaultFree 0 400) ∧
      ¬ (World.start 1 []).NoFlap {} [cooledTick 0, cooledTick 1] := by
  refine ⟨fun e he => ?_, fun h => ?_⟩
  · simp only [List.mem_cons, List.not_mem_nil, or_false] at he
    rcases he with rfl | rfl <;> exact quietTick_faultFree _ _
  · exact absurd (h [] (cooledTick 0) [] (cooledTick 1) [] rfl (by decide +kernel)) (by decide +kernel)

/-! ## Overload and the baseline -/

/-- Along every run, an overloaded tick adds replicas exactly if no held level keeps it from doing so. -/
theorem scaler_overload_raises_iff (cfg : PredictSettings) (live : Int) (history : List ScalingEvent)
    (steps : List ScalerStep) :
    EventRun.Along (World.step cfg) (fun w e => w.OverloadRaises cfg e ↔ w.HoldYields cfg e) (World.start live history)
      steps :=
  EventRun.along_iff_prefix.mpr fun _ e _ _ => World.overloadRaises_iff cfg _ e

/-- Three replicas, raised to four by 1300 calls and held there. -/
def heldFour : World := (World.start 3 []).step {} (.tick (quietTick 0 0 1300))

theorem heldFour_overloaded : heldFour.Overloaded {} (quietTick 60000000 0 2000) 1 (.fin 1) := by
  obtain ⟨document, baseline, hr, hdemand⟩ := quietTick_reaches 60000000 2000
  obtain ⟨_, hb⟩ := decide_shipped hr.decided
  have hclock : (quietTick 60000000 0 2000).demandClock = 60000000 := rfl
  have hlive : heldFour.minReplicaCount = 4 := by decide +kernel
  rw [hclock, hdemand] at hb
  refine ⟨⟨document, baseline, .num 2000, hr, hb.trans (by simp [shippedBaseline]), by simp, ?_⟩, by decide +kernel,
    rfl, quietTick_patchesSucceed _ _ _⟩
  rw [hlive]
  decide +kernel

/-- At a utilization of 1 the held four replicas stay four. -/
theorem scaler_overload_not_raised :
    heldFour.Overloaded {} (quietTick 60000000 0 2000) 1 (.fin 1) ∧
      ¬ heldFour.OverloadRaises {} (.tick (quietTick 60000000 0 2000)) := by
  refine ⟨heldFour_overloaded, fun h => ?_⟩
  exact absurd (h 1 (.fin 1) heldFour_overloaded) (by decide +kernel)

/-- What the reactive layer returns is at least the baseline exactly if it is no raise that ends below it. -/
theorem reactive_covers_baseline_iff (cfg : PredictSettings) (traffic : Json) (hold : Option Int)
    (note : Option DecisionNote) (baseline current : Int) :
    (∀ adjusted, applyReactiveAdjustment cfg traffic hold note baseline current = .ok adjusted →
      baseline ≤ adjusted.desired) ↔ ¬ cfg.Undercuts traffic hold baseline current := by
  constructor
  · intro h hunder
    obtain ⟨_, u, hu, _⟩ := id hunder
    obtain ⟨adjusted, hadj⟩ := applyReactiveAdjustment_isOk baseline hold note hu
    exact (applyReactiveAdjustment_result hadj).baseline_le_iff.mp (h adjusted hadj) hunder
  · intro hno adjusted hadj
    exact (applyReactiveAdjustment_result hadj).baseline_le_iff.mpr hno

/-- Two replicas, a baseline of eight and 900 calls: raised to three. -/
theorem reactive_below_baseline :
    ∃ adjusted, applyReactiveAdjustment {} (.num 900) none none 8 2 = .ok adjusted ∧ ¬ 8 ≤ adjusted.desired := by
  refine ⟨⟨3, some (.reactiveUp (.fin (9 / 10))), some 3⟩, ?_, by decide⟩
  have hu : utilization {} (.num 900) 2 = .ok (.fin (9 / 10)) := by decide +kernel
  have hhigh : (ExtRat.fin (9 / 10)).AtLeast ({} : PredictSettings).scalingWatermarkHigh := by decide +kernel
  simp only [applyReactiveAdjustment, hu, bind, Except.bind, adjustReleased, if_pos hhigh]
  rfl

/-! ## The decision -/

/-- `decide` returns for every demand, in the bounds and monotonically; below the maximum the pods besides the
buffer carry the demand, and above the minimum one pod fewer would not. -/
theorem decide_monotone_and_tight (e : ScalingDecisionEngine) (hpod : 0 < e.demandPerPod) (hbuffer : 0 ≤ e.buffer)
    (hmin : 1 ≤ e.min) (hmax : e.min ≤ e.max) :
    (∀ signals, ∃ d, e.decide signals = .ok d ∧ e.min ≤ d.desiredReplicas ∧ d.desiredReplicas ≤ e.max ∧
      (0 < signals.predictedDemand →
        (d.desiredReplicas < e.max →
          signals.predictedDemand ≤ ((d.desiredReplicas - e.buffer : Int) : ℚ) * e.demandPerPod) ∧
        (e.min < d.desiredReplicas →
          ((d.desiredReplicas - e.buffer - 1 : Int) : ℚ) * e.demandPerPod < signals.predictedDemand))) ∧
    ∀ signals signals' d d', signals.predictedDemand ≤ signals'.predictedDemand → e.decide signals = .ok d →
      e.decide signals' = .ok d' → d.desiredReplicas ≤ d'.desiredReplicas := by
  constructor
  · intro signals
    obtain ⟨d, hd, hr⟩ := ScalingDecisionEngine.decide_eq_clamp hpod hmin signals
    obtain ⟨hge, hle⟩ := ScalingDecisionEngine.decide_mem hmax hd
    refine ⟨d, hd, hge, hle, fun hpos => ⟨fun hlt => ?_, fun hgt => ?_⟩⟩
    · rw [hr] at hlt ⊢
      exact (ScalingDecisionEngine.unclamped_le_iff hpod hpos _).mp (ScalingDecisionEngine.le_clamp hlt)
    · rw [hr] at hgt ⊢
      have hfew := ScalingDecisionEngine.clamp_le hgt
      by_contra hcarry
      have hcarry' := (ScalingDecisionEngine.unclamped_le_iff hpod hpos
        (e.clamp (e.unclamped signals.predictedDemand) - 1)).mpr
        (by rw [sub_right_comm]; exact not_lt.mp hcarry)
      omega
  · intro signals signals' d d' hle hd hd'
    obtain ⟨c, hc, hr⟩ := ScalingDecisionEngine.decide_eq_clamp hpod hmin signals
    obtain ⟨c', hc', hr'⟩ := ScalingDecisionEngine.decide_eq_clamp hpod hmin signals'
    obtain rfl : c = d := by simpa [hc] using hd
    obtain rfl : c' = d' := by simpa [hc'] using hd'
    rw [hr, hr']
    exact ScalingDecisionEngine.clamp_mono (ScalingDecisionEngine.unclamped_mono hpod hbuffer hle)

/-- The shipped engine at a demand of 1200. -/
theorem decide_monotone_and_tight_shipped :
    ∃ (signals : ScalingSignals) (d : ScalingDecision), signals.predictedDemand = 1200 ∧
      ({} : PredictSettings).engine.decide signals = .ok d ∧ 1 ≤ d.desiredReplicas ∧ d.desiredReplicas ≤ 10 := by
  obtain ⟨d, hd, hge, hle, _⟩ := (decide_monotone_and_tight ({} : PredictSettings).engine (by decide) (by decide)
    (by decide) (by decide)).1 ⟨1200, by norm_num⟩
  exact ⟨_, d, rfl, hd, hge, hle⟩

/-! ## The event table -/

/-- A tick writes a row exactly when it changes the live value, unless it loses a change; as long as no tick does,
replaying the table gives the live value. -/
theorem scaler_rows_are_changes (cfg : PredictSettings) :
    (∀ (w : World) (env : TickEnv), w.RowIffChanged (w.step cfg (.tick env)) ↔ ¬ w.LosesRow cfg env) ∧
      ∀ (start live : Int) (history : List ScalingEvent) (steps : List ScalerStep), Replays start history live →
        EventRun.Along (World.step cfg) (fun w e => ¬ w.LosesStep cfg e) (World.start live history) steps →
        Replays start (EventRun.run (World.step cfg) (World.start live history) steps).scalingHistory
          (EventRun.run (World.step cfg) (World.start live history) steps).minReplicaCount := by
  refine ⟨fun w env => World.rowIffChanged_iff cfg env w, fun start live history steps hstart hkept => ?_⟩
  exact EventRun.Along.invariant (I := fun w => Replays start w.scalingHistory w.minReplicaCount)
    (fun _ _ h he => h.step he) hstart hkept

theorem quietTick_keepsChange (time : Int) (demand traffic : ℚ) : ¬ (quietTick time demand traffic).LosesChange {} := by
  rintro (⟨_, exc, hfail⟩ | ⟨hno, _⟩)
  · cases hfail
  · exact hno ⟨1, by decide, time, rfl⟩

/-- Raised from three to four, and after a restart lowered to three again. -/
theorem scaler_rows_are_changes_twice :
    Replays 3
      (EventRun.run (World.step {}) (World.start 3 [])
        [.tick (quietTick 0 1200 1000), .restart, .tick (quietTick 300000000 0 700)]).scalingHistory
      (EventRun.run (World.step {}) (World.start 3 [])
        [.tick (quietTick 0 1200 1000), .restart, .tick (quietTick 300000000 0 700)]).minReplicaCount := by
  refine (scaler_rows_are_changes {}).2 3 3 [] _ rfl ⟨?_, id, ?_, trivial⟩
  · rintro ⟨_, _, _, _, _, _, _, hlost⟩
    exact quietTick_keepsChange _ _ _ hlost
  · rintro ⟨_, _, _, _, _, _, _, hlost⟩
    exact quietTick_keepsChange _ _ _ hlost

/-- The raise from three to four takes effect, and the insert of its row fails. -/
theorem scaler_change_without_row :
    ¬ (World.start 3 []).RowIffChanged
      ((World.start 3 []).step {} (.tick { quietTick 0 1200 1000 with history := .fails .sqlAlchemyError })) :=
  World.not_rowIffChanged (by decide +kernel) (List.eq_nil_of_length_eq_zero (by decide +kernel))

end Hailcast
