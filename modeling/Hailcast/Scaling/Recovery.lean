import Hailcast.Scaling.Theorems

/-!
# Recovery from an undercut

A raise of the reactive layer can end below the forecast. It does so for one tick only: what is held after it yields to
the forecast of the next.
-/

namespace Hailcast

variable {cfg : PredictSettings} {env : TickEnv} {w w' : World} {baseline : Int}

/-- A tick in which everything answers, with a forecast of `baseline` replicas. -/
structure TickEnv.Asks (cfg : PredictSettings) (baseline : Int) (env : TickEnv) : Prop where
  reaches : ∃ document decision traffic, env.Reaches cfg document decision traffic ∧
    decision.desiredReplicas = baseline ∧ (traffic = .null ∨ ∃ n, traffic = .num n)
  patches : env.PatchesSucceed

/-- There are enough replicas for the forecast, or a level is held and the next tick will not raise. -/
def World.Recovers (baseline : Int) (w : World) : Prop :=
  baseline ≤ w.minReplicaCount ∨ w.service.reactiveHoldReplicas ≠ none

theorem TickEnv.Asks.adjusted (h : env.Asks cfg baseline) (w : World) :
    ∃ traffic note adjusted, AdjustResult cfg traffic w.service.reactiveHoldReplicas note baseline w.minReplicaCount
        adjusted ∧
      (w.step cfg (.tick env)).service.reactiveHoldReplicas = adjusted.hold ∧
      ((w.step cfg (.tick env)).minReplicaCount = adjusted.desired ∨
        (adjusted.desired < w.minReplicaCount ∧
          (w.step cfg (.tick env)).minReplicaCount = w.minReplicaCount)) := by
  obtain ⟨document, decision, traffic, hreach, rfl, htraffic⟩ := h.reaches
  have hadj : ∃ adjusted, w.adjustment cfg decision traffic = .ok adjusted := by
    rcases htraffic with rfl | ⟨n, rfl⟩
    · exact ⟨_, rfl⟩
    · obtain ⟨u, hu⟩ := utilization_num_isOk cfg n w.minReplicaCount
      exact applyReactiveAdjustment_isOk _ _ _ hu
  obtain ⟨adjusted, hadj⟩ := hadj
  have happly := hreach.result hadj
  exact ⟨traffic, _, adjusted, applyReactiveAdjustment_result hadj, happly.service_eq.1,
    happly.live_of_succeed rfl hreach.reads.count_pos h.patches⟩

/-- Only a raise leaves less than the forecast, and it is held. -/
theorem TickEnv.Asks.recovers (h : env.Asks cfg baseline) (w : World) :
    (w.step cfg (.tick env)).Recovers baseline := by
  obtain ⟨traffic, note, adjusted, hadj, hhold, hlive⟩ := h.adjusted w
  cases hadj with
  | noTraffic _ =>
      left
      rcases hlive with hl | ⟨hlt, hl⟩
      · exact hl.ge
      · exact hl ▸ hlt.le
  | held held u _ _ _ _ =>
      right
      rw [hhold]
      exact Option.some_ne_none held
  | raised u _ _ _ _ =>
      right
      rw [hhold]
      exact Option.some_ne_none _
  | lowered u _ _ _ _ _ =>
      left
      rcases hlive with hl | ⟨hlt, hl⟩
      · exact hl ▸ le_max_left _ _
      · exact hl ▸ (le_max_left _ _).trans hlt.le
  | released u _ _ _ _ _ =>
      left
      rcases hlive with hl | ⟨hlt, hl⟩
      · exact hl.ge
      · exact hl ▸ hlt.le

theorem TickEnv.Asks.covers {before : Int} (hmarks : cfg.scalingWatermarkLow < cfg.scalingWatermarkHigh)
    (hstep : 0 ≤ cfg.scalingReactiveStep) (h : env.Asks cfg baseline) (hw : w.Recovers before) :
    min before baseline ≤ (w.step cfg (.tick env)).minReplicaCount := by
  obtain ⟨traffic, note, adjusted, hadj, _, hlive⟩ := h.adjusted w
  cases hadj with
  | noTraffic _ => rcases hlive with hl | ⟨hlt, hl⟩ <;> dsimp only at * <;> omega
  | held held u _ _ _ _ => rcases hlive with hl | ⟨hlt, hl⟩ <;> dsimp only at * <;> omega
  | lowered u _ _ _ _ _ => rcases hlive with hl | ⟨hlt, hl⟩ <;> dsimp only at * <;> omega
  | released u _ _ _ _ _ => rcases hlive with hl | ⟨hlt, hl⟩ <;> dsimp only at * <;> omega
  | raised u _ _ hfree hhigh =>
      -- without a hold the replicas were enough, and with one the utilization cannot be low and high
      have hnone : w.service.reactiveHoldReplicas = none :=
        hfree.resolve_right fun hlow => absurd hmarks (not_lt.mpr (ExtRat.le_of_atMost_atLeast hlow hhigh))
      have henough := hw.resolve_right fun hne => hne hnone
      rcases hlive with hl | ⟨hlt, hl⟩ <;> dsimp only at * <;> omega

/-- A status call or a preview. -/
def ScalerStep.Status : ScalerStep → Prop
  | .cooldownStatus _ _ => True
  | .preview _ => True
  | _ => False

theorem World.Recovers.status {calls : List ScalerStep} (hcalls : ∀ e ∈ calls, e.Status) (h : w.Recovers baseline) :
    (EventRun.run (World.step cfg) w calls).Recovers baseline := by
  refine EventRun.Along.invariant (fun w e hw he => ?_) h (EventRun.along_of_forall hcalls)
  cases e with
  | tick env => cases he
  | restart => cases he
  | preview env =>
      rw [World.step_preview]
      exact hw
  | cooldownStatus query clock =>
      rcases World.step_cooldownStatus cfg w query clock with hs | hs
      · rw [hs]
        exact hw
      · rw [hs]
        exact hw

/-- After any two ticks in which everything answers there are as many replicas as both forecasts ask for, whatever the
traffic was, what was held before, and how many replicas there were. -/
theorem scaler_covers_forecast (cfg : PredictSettings)
    (hmarks : cfg.scalingWatermarkLow < cfg.scalingWatermarkHigh) (hstep : 0 ≤ cfg.scalingReactiveStep) (w : World)
    (before : List ScalerStep) (env env' : TickEnv) (calls : List ScalerStep) (hcalls : ∀ e ∈ calls, e.Status)
    (baseline baseline' : Int) (henv : env.Asks cfg baseline) (henv' : env'.Asks cfg baseline') :
    min baseline baseline' ≤
      (EventRun.run (World.step cfg) w (before ++ .tick env :: (calls ++ [.tick env']))).minReplicaCount := by
  rw [EventRun.run_append, EventRun.run_cons, EventRun.run_append, EventRun.run_cons, EventRun.run_nil]
  exact henv'.covers hmarks hstep ((henv.recovers _).status hcalls)

theorem quietTick_asks (time : Int) (traffic : ℚ) : (quietTick time 0 traffic).Asks {} 1 := by
  obtain ⟨document, baseline, hreach, hdemand⟩ := quietTick_reaches time traffic
  refine ⟨⟨document, baseline, _, hreach, ?_, .inr ⟨traffic, rfl⟩⟩, quietTick_patchesSucceed time 0 traffic⟩
  have hdecided := hreach.decided
  have hclock : (quietTick time 0 traffic).demandClock = time := rfl
  rw [hclock, hdemand] at hdecided
  rw [(decide_shipped hdecided).2]
  decide

theorem scaler_covers_forecast_status :
    1 ≤ (EventRun.run (World.step {}) (World.start 0 []) [.tick (quietTick 0 0 2000), .cooldownStatus none 1,
      .tick (quietTick 60000000 0 0)]).minReplicaCount :=
  scaler_covers_forecast {} (by norm_num) (by decide) (World.start 0 []) [] (quietTick 0 0 2000)
    (quietTick 60000000 0 0) [.cooldownStatus none 1] (by simp [ScalerStep.Status]) 1 1 (quietTick_asks _ _)
    (quietTick_asks _ _)

end Hailcast
