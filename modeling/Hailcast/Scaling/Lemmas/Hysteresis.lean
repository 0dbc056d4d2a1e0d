import Hailcast.Lib.EventRun
import Hailcast.Scaling.Step

/-!
# Hold and release

What a reactive raise remembers, and what the remembered level does to the live value: it is a floor until a
tick observes a low utilization, and with the shipped settings it keeps the service from flapping.
-/

namespace Hailcast

variable {cfg : PredictSettings} {env : TickEnv} {w w' : World} {r : Int}

/-! ## The floor of a hold -/

/-- A reactive raise to `r` is remembered, and the live value has not fallen below it. -/
structure World.Holding (r : Int) (w : World) : Prop where
  hold : ∃ held, w.service.reactiveHoldReplicas = some held ∧ r ≤ held
  live : r ≤ w.minReplicaCount

/-- The tick raises the live value reactively, to `r`. -/
def World.RaisesTo (cfg : PredictSettings) (w : World) (env : TickEnv) (r : Int) : Prop :=
  ∃ document baseline traffic u, env.Reaches cfg document baseline traffic ∧ traffic ≠ .null ∧
    utilization cfg traffic w.minReplicaCount = .ok u ∧
    (w.service.reactiveHoldReplicas = none ∨ u.AtMost cfg.scalingWatermarkLow) ∧ u.AtLeast cfg.scalingWatermarkHigh ∧
    r = w.minReplicaCount + cfg.scalingReactiveStep

/-- The tick observes a utilization at or below the low watermark or finds no traffic reading, or the process
restarts. -/
def World.Releases (cfg : PredictSettings) (w : World) : ScalerStep → Prop
  | .tick env => ∃ document baseline traffic, env.Reaches cfg document baseline traffic ∧
      (traffic = .null ∨
        ∃ u, utilization cfg traffic w.minReplicaCount = .ok u ∧ u.AtMost cfg.scalingWatermarkLow)
  | .cooldownStatus _ _ => False
  | .preview _ => False
  | .restart => True

theorem World.RaisesTo.adjustment (h : w.RaisesTo cfg env r) :
    ∃ document baseline traffic u, env.Reaches cfg document baseline traffic ∧
      utilization cfg traffic w.minReplicaCount = .ok u ∧ u.AtLeast cfg.scalingWatermarkHigh ∧
      w.adjustment cfg baseline traffic = .ok ⟨r, some (.reactiveUp u), some r⟩ := by
  obtain ⟨document, baseline, traffic, u, hr, ht, hu, hfree, hhigh, rfl⟩ := h
  obtain ⟨adjusted, hadj⟩ := applyReactiveAdjustment_isOk baseline.desiredReplicas
    w.service.reactiveHoldReplicas (some (.rule baseline.matchedRule)) hu
  refine ⟨document, baseline, traffic, u, hr, hu, hhigh, ?_⟩
  have hsame : ∀ {u'}, utilization cfg traffic w.minReplicaCount = .ok u' → u = u' :=
    fun hu' => Except.ok.inj (hu.symm.trans hu')
  rw [World.adjustment, hadj]
  cases applyReactiveAdjustment_result hadj with
  | noTraffic h => exact absurd h ht
  | held held u' _ hu' hhold hlow =>
      rcases hfree with hf | hf
      · simp [hf] at hhold
      · exact absurd (hsame hu' ▸ hf) hlow
  | raised u' _ hu' _ _ => rw [hsame hu']
  | lowered u' _ hu' hhigh' _ _ => exact absurd (hsame hu' ▸ hhigh) hhigh'
  | released u' _ hu' _ hhigh' _ => exact absurd (hsame hu' ▸ hhigh) hhigh'

/-- A reactive raise whose patch succeeds is remembered. -/
theorem World.RaisesTo.holding (h : w.RaisesTo cfg env r) (hs : env.PatchesSucceed) :
    (w.step cfg (.tick env)).Holding r := by
  obtain ⟨document, baseline, traffic, u, hr, _, _, hadj⟩ := h.adjustment
  have happly := hr.result hadj
  refine ⟨⟨r, by rw [happly.service_eq.1]; rfl, le_refl r⟩, ?_⟩
  rcases happly.live_of_succeed rfl hr.reads.count_pos hs with hl | ⟨hlt, hl⟩
  · rw [hl]; exact le_refl r
  · rw [hl]; exact le_of_lt hlt

/-- Every step that does not release the hold keeps the floor. -/
theorem World.Holding.step (h : w.Holding r) {e : ScalerStep} (hno : ¬ w.Releases cfg e) :
    (w.step cfg e).Holding r := by
  obtain ⟨held, hhold, hle⟩ := h.hold
  cases e with
  | tick env =>
      change (finalWorld (runScaling cfg env w)).Holding r
      generalize finalWorld (runScaling cfg env w) = w', runScaling_result cfg env w = hres
      cases hres with
      | skipped _ => exact h
      | failed s _ _ hhold' _ => exact ⟨⟨held, by rw [← hhold, ← hhold']; rfl, hle⟩, h.live⟩
      | planned document baseline traffic adjusted w' hr hadj happly =>
          have hlow : ∀ {u}, utilization cfg traffic w.minReplicaCount = .ok u → ¬ u.AtMost cfg.scalingWatermarkLow :=
            fun hu hle => hno ⟨document, baseline, traffic, hr, Or.inr ⟨_, hu, hle⟩⟩
          have hnone : w.service.reactiveHoldReplicas ≠ none := by simp [hhold]
          have hkeep : adjusted.hold = some held ∧ r ≤ adjusted.desired := by
            cases applyReactiveAdjustment_result hadj with
            | noTraffic ht => exact absurd ⟨document, baseline, traffic, hr, Or.inl ht⟩ hno
            | held held' u _ _ hhold' _ =>
                obtain rfl : held = held' := Option.some.inj (hhold.symm.trans hhold')
                exact ⟨rfl, hle.trans (le_max_left _ _)⟩
            | raised u _ hu hfree _ => exact absurd (hfree.resolve_left hnone) (hlow hu)
            | lowered u _ hu _ hl _ => exact absurd hl (hlow hu)
            | released u _ hu hfree _ _ => exact absurd (hfree.resolve_left hnone) (hlow hu)
          refine ⟨⟨held, by rw [happly.service_eq.1]; exact hkeep.1, hle⟩, ?_⟩
          rcases happly.live with hl | hl
          · rw [hl]; exact h.live
          · rw [hl]; exact hkeep.2
  | cooldownStatus query clock =>
      rcases World.step_cooldownStatus cfg w query clock with he | he
      · rw [he]; exact h
      · rw [he]; exact ⟨h.hold, h.live⟩
  | preview env => rw [World.step_preview]; exact h
  | restart => exact absurd trivial hno

/-! ## The shipped settings -/

/-- A tick in which nothing fails, with the demand `demand` of the current hour and the reading `traffic`. -/
structure TickEnv.FaultFree (cfg : PredictSettings) (demand traffic : ℚ) (env : TickEnv) : Prop where
  reaches : ∃ document baseline, env.Reaches cfg document baseline (.num traffic) ∧
    currentDemand cfg document env.demandClock = demand
  lastEvent : env.lastEvent = none
  patches : env.PatchesSucceed
  history : ∃ createdAt, env.history = .commits createdAt

/-- The replicas that the engine gives the demand with the shipped settings. -/
def shippedBaseline (demand : ℚ) : Int := if demand ≤ 0 then 1 else max 1 (min 10 (⌈demand / 500⌉ + 1))

theorem shippedBaseline_pos (demand : ℚ) : 1 ≤ shippedBaseline demand := by
  unfold shippedBaseline
  split <;> omega

theorem two_le_shippedBaseline {demand : ℚ} (h : 0 < demand) : 2 ≤ shippedBaseline demand := by
  have hceil : 0 < ⌈demand / 500⌉ := Int.ceil_pos.mpr (by linarith)
  unfold shippedBaseline
  rw [if_neg (not_le.mpr h)]
  omega

theorem decide_shipped {demand : ℚ} {baseline : ScalingDecision}
    (h : (ScalingSignals.ofDemand demand >>= ({} : PredictSettings).engine.decide) = .ok baseline) :
    0 ≤ demand ∧ baseline.desiredReplicas = shippedBaseline demand := by
  cases hs : ScalingSignals.ofDemand demand with
  | error exc => rw [hs] at h; cases h
  | ok signals =>
      rw [hs] at h
      have hsignals : 0 ≤ demand ∧ signals.predictedDemand = demand := by
        unfold ScalingSignals.ofDemand at hs
        split at hs
        · rename_i hd
          cases hs
          exact ⟨hd, rfl⟩
        · cases hs
      obtain ⟨desired, hm, hd, _⟩ := ScalingDecisionEngine.decide_eq_ok h
      refine ⟨hsignals.1, ?_⟩
      rw [hd, shippedBaseline]
      rw [hsignals.2] at hm
      unfold ScalingDecisionEngine.matchRule at hm
      split at hm
      · rename_i hzero
        obtain ⟨rfl, _⟩ := Prod.mk.inj (Except.ok.inj hm)
        rw [if_pos hzero]
        rfl
      · rename_i hpos
        rw [if_neg (by norm_num [PredictSettings.engine])] at hm
        obtain ⟨rfl, _⟩ := Prod.mk.inj (Except.ok.inj hm)
        rw [if_neg hpos]
        rfl

theorem utilization_shipped {traffic : ℚ} {current : Int} {u : ExtRat} (hc : 1 ≤ current)
    (h : utilization {} (.num traffic) current = .ok u) :
    ∃ q, u = .fin q ∧ traffic = q * (500 * current) := by
  have hcq : (1 : ℚ) ≤ current := by exact_mod_cast hc
  have hpos : (0 : ℚ) < current * ({} : PredictSettings).scalingDemandPerPod := by
    simp only
    linarith
  rw [utilization_num hpos] at h
  refine ⟨_, (Except.ok.inj h).symm, ?_⟩
  simp only
  field_simp

/-- One fault-free tick, in terms of the adjustment that it makes. -/
theorem TickEnv.FaultFree.result {demand traffic : ℚ} (h : env.FaultFree {} demand traffic) (w : World) :
    0 ≤ demand ∧ ∃ note adjusted, AdjustResult {} (.num traffic) w.service.reactiveHoldReplicas note
        (shippedBaseline demand) w.minReplicaCount adjusted ∧
      (w.step {} (.tick env)).service.reactiveHoldReplicas = adjusted.hold ∧
      ((w.step {} (.tick env)).minReplicaCount = adjusted.desired ∨
        (adjusted.desired < w.minReplicaCount ∧
          (w.step {} (.tick env)).minReplicaCount = w.minReplicaCount)) := by
  obtain ⟨document, baseline, hr, rfl⟩ := h.reaches
  obtain ⟨hd, hb⟩ := decide_shipped hr.decided
  obtain ⟨u, hu⟩ := utilization_num_isOk {} traffic w.minReplicaCount
  obtain ⟨adjusted, hadj⟩ := applyReactiveAdjustment_isOk baseline.desiredReplicas
    w.service.reactiveHoldReplicas (some (.rule baseline.matchedRule)) hu
  have happly := hr.result hadj
  refine ⟨hd, _, adjusted, hb ▸ applyReactiveAdjustment_result hadj, happly.service_eq.1, ?_⟩
  exact happly.live_of_succeed rfl hr.reads.count_pos h.patches

/-- Whenever a level is held, it is the one that keeps the utilization above the low watermark. -/
structure World.Levelled (baseline : Int) (traffic : ℚ) (w : World) : Prop where
  live : 1 ≤ w.minReplicaCount
  hold : ∀ held, w.service.reactiveHoldReplicas = some held →
    w.minReplicaCount ≤ max held baseline ∧ (baseline < held → 200 * (held : ℚ) < traffic)

/-- Nothing is left that could lower the live value. -/
structure World.Settled (baseline : Int) (traffic : ℚ) (w : World) : Prop extends w.Levelled baseline traffic where
  free : w.service.reactiveHoldReplicas = none → w.minReplicaCount ≤ baseline

/-- What a fault-free tick does: a raise settles the service, and a settled service does not lower. -/
structure World.Advances (baseline : Int) (traffic : ℚ) (w w' : World) : Prop where
  levelled : w'.Levelled baseline traffic
  settles : w.minReplicaCount < w'.minReplicaCount → w'.Settled baseline traffic
  keeps : w.Settled baseline traffic → w'.Settled baseline traffic ∧ w.minReplicaCount ≤ w'.minReplicaCount

/-! ## One fault-free tick, by what it adjusts -/

namespace World.Levelled

variable {b : Int} {traffic u : ℚ}

theorem held {held : Int} (h : w.Levelled b traffic) (hhold : w.service.reactiveHoldReplicas = some held)
    (hhold' : w'.service.reactiveHoldReplicas = some held)
    (hlive : w'.minReplicaCount = max held b ∨
      (max held b < w.minReplicaCount ∧ w'.minReplicaCount = w.minReplicaCount)) : w.Advances b traffic w' := by
  have hc := h.live
  obtain ⟨hle, hpos⟩ := h.hold held hhold
  have hl : w'.minReplicaCount = max held b := hlive.resolve_right fun hlt => absurd hle (not_le.mpr hlt.1)
  have hlev : w'.Levelled b traffic := by
    refine ⟨by omega, fun held' he => ?_⟩
    obtain rfl : held = held' := Option.some.inj (hhold'.symm.trans he)
    exact ⟨hl.le, hpos⟩
  have hset : w'.Settled b traffic := ⟨hlev, fun hn => by simp [hhold'] at hn⟩
  exact ⟨hlev, fun _ => hset, fun _ => ⟨hset, hl ▸ hle⟩⟩

/-- The traffic that raises is above the low watermark of the new level, except from one replica to two. -/
theorem raised (h : w.Levelled b traffic) (hne : b < 2 → traffic ≠ 400) (hu : traffic = u * (500 * w.minReplicaCount))
    (hhigh : 4 / 5 ≤ u) (hhold' : w'.service.reactiveHoldReplicas = some (w.minReplicaCount + 1))
    (hl : w'.minReplicaCount = w.minReplicaCount + 1) : w.Advances b traffic w' := by
  have hc := h.live
  have hcq : (1 : ℚ) ≤ w.minReplicaCount := by exact_mod_cast hc
  have htraffic : 400 * (w.minReplicaCount : ℚ) ≤ traffic := by nlinarith
  have hlev : w'.Levelled b traffic := by
    refine ⟨by omega, fun held he => ?_⟩
    obtain rfl : w.minReplicaCount + 1 = held := Option.some.inj (hhold'.symm.trans he)
    refine ⟨by omega, fun hlt => ?_⟩
    push_cast
    rcases eq_or_lt_of_le hc with hone | htwo
    · have hne' := hne (by omega)
      rw [← hone] at htraffic ⊢
      norm_num at htraffic ⊢
      exact lt_of_le_of_ne htraffic (Ne.symm hne')
    · have htwo' : (2 : ℚ) ≤ w.minReplicaCount := by exact_mod_cast htwo
      linarith
  have hset : w'.Settled b traffic := ⟨hlev, fun hn => by simp [hhold'] at hn⟩
  exact ⟨hlev, fun _ => hset, fun _ => ⟨hset, by omega⟩⟩

theorem lowered (h : w.Levelled b traffic) (hb : 1 ≤ b) (hu : traffic = u * (500 * w.minReplicaCount))
    (hlow : u ≤ 2 / 5) (hlt : b < w.minReplicaCount) (hhold' : w'.service.reactiveHoldReplicas = none)
    (hlive : w'.minReplicaCount = max b (w.minReplicaCount - 1) ∨ w'.minReplicaCount = w.minReplicaCount) :
    w.Advances b traffic w' := by
  have hcq : (1 : ℚ) ≤ w.minReplicaCount := by exact_mod_cast h.live
  have hlev : w'.Levelled b traffic := ⟨by omega, fun held he => by simp [hhold'] at he⟩
  refine ⟨hlev, fun hr => by omega, fun hs => ?_⟩
  -- a settled service with more replicas than the baseline holds a level that the utilization exceeds
  rcases hhold : w.service.reactiveHoldReplicas with _ | held
  · exact absurd (hs.free hhold) (not_le.mpr hlt)
  · obtain ⟨hle, hpos⟩ := h.hold held hhold
    have hheld : w.minReplicaCount ≤ held := by omega
    have htraffic := hpos (lt_of_lt_of_le hlt hheld)
    have hheldq : (w.minReplicaCount : ℚ) ≤ held := by exact_mod_cast hheld
    nlinarith

theorem released (h : w.Levelled b traffic) (hb : 1 ≤ b)
    (hle : w.service.reactiveHoldReplicas = none ∨ w.minReplicaCount ≤ b)
    (hhold' : w'.service.reactiveHoldReplicas = none)
    (hlive : w'.minReplicaCount = b ∨ (b < w.minReplicaCount ∧ w'.minReplicaCount = w.minReplicaCount)) :
    w.Advances b traffic w' := by
  have hc := h.live
  have hlev : w'.Levelled b traffic := ⟨by omega, fun held he => by simp [hhold'] at he⟩
  have hset : w'.minReplicaCount = b → w'.Settled b traffic := fun hl => ⟨hlev, fun _ => hl.le⟩
  refine ⟨hlev, fun hr => hset (by omega), fun hs => ?_⟩
  have hle := hle.elim hs.free id
  have hl : w'.minReplicaCount = b := hlive.resolve_right fun hlt => absurd hle (not_le.mpr hlt.1)
  exact ⟨hset hl, hl ▸ hle⟩

/-- The case left out is a raise from one replica to two at the traffic that two replicas bring to the low
watermark. -/
theorem step {demand : ℚ} (hne : ¬ (demand = 0 ∧ traffic = 400)) (h : w.Levelled (shippedBaseline demand) traffic)
    (hf : env.FaultFree {} demand traffic) : w.Advances (shippedBaseline demand) traffic (w.step {} (.tick env)) := by
  obtain ⟨hd, note, adjusted, hadj, hhold', hlive⟩ := hf.result w
  have hb := shippedBaseline_pos demand
  have hne' : shippedBaseline demand < 2 → traffic ≠ 400 := by
    intro hlt htraffic
    have hzero : demand ≤ 0 := not_lt.mp fun hpos => absurd (two_le_shippedBaseline hpos) (not_le.mpr hlt)
    exact hne ⟨le_antisymm hzero hd, htraffic⟩
  generalize w.step {} (.tick env) = w' at *
  cases hadj with
  | noTraffic ht => cases ht
  | held held u _ hu hhold hlow => exact h.held hhold hhold' hlive
  | raised u _ hu hfree hhigh =>
      have hl : w'.minReplicaCount = w.minReplicaCount + 1 := hlive.resolve_right fun hlt => by simp at hlt
      obtain ⟨q, rfl, htraffic⟩ := utilization_shipped h.live hu
      exact h.raised hne' htraffic hhigh hhold' hl
  | lowered u _ hu hhigh hlow hlt =>
      obtain ⟨q, rfl, htraffic⟩ := utilization_shipped h.live hu
      exact h.lowered hb htraffic hlow hlt hhold' (hlive.imp_right And.right)
  | released u _ hu hfree hhigh hlow =>
      refine h.released hb ?_ hhold' hlive
      rcases hlow with hlow | hlow
      · exact Or.inl (hfree.resolve_right hlow)
      · exact Or.inr hlow

end World.Levelled

/-! ## Flapping -/

/-- Once a step has raised the live value, no later step lowers it. -/
def World.NoFlap (cfg : PredictSettings) (w : World) (es : List ScalerStep) : Prop :=
  ∀ pre e mid e' post, es = pre ++ e :: (mid ++ e' :: post) →
    (EventRun.run (World.step cfg) w pre).minReplicaCount <
      (EventRun.run (World.step cfg) w (pre ++ [e])).minReplicaCount →
    (EventRun.run (World.step cfg) w (pre ++ e :: mid)).minReplicaCount ≤
      (EventRun.run (World.step cfg) w (pre ++ e :: (mid ++ [e']))).minReplicaCount

def ScalerStep.FaultFree (demand traffic : ℚ) (e : ScalerStep) : Prop :=
  ∃ env, e = .tick env ∧ env.FaultFree {} demand traffic

theorem World.Levelled.noFlap {demand traffic : ℚ} (hne : ¬ (demand = 0 ∧ traffic = 400))
    (h : w.Levelled (shippedBaseline demand) traffic) {es : List ScalerStep}
    (hf : ∀ e ∈ es, e.FaultFree demand traffic) : w.NoFlap {} es := by
  rintro pre e mid e' post rfl hraise
  have hrun : ∀ {P : World → Prop} {w : World} {es : List ScalerStep},
      (∀ w e, P w → ScalerStep.FaultFree demand traffic e → P (w.step {} e)) → P w →
      (∀ e ∈ es, e.FaultFree demand traffic) → P (EventRun.run (World.step {}) w es) :=
    fun hP hw hes => EventRun.Along.invariant hP hw (EventRun.along_of_forall hes)
  -- up to the raise
  have hpre : (EventRun.run (World.step {}) w pre).Levelled (shippedBaseline demand) traffic := by
    refine hrun ?_ h (fun e he => hf e (by simp [he]))
    rintro w _ hw ⟨env, rfl, henv⟩
    exact (hw.step hne henv).levelled
  -- the raise
  obtain ⟨env, rfl, henv⟩ := hf e (by simp)
  rw [EventRun.run_append, EventRun.run_cons, EventRun.run_nil] at hraise
  have hset := (hpre.step hne henv).settles hraise
  -- what comes after it
  have hmid : (EventRun.run (World.step {}) w (pre ++ .tick env :: mid)).Settled
      (shippedBaseline demand) traffic := by
    rw [EventRun.run_append, EventRun.run_cons]
    refine hrun ?_ hset (fun e he => hf e (by simp [he]))
    rintro w _ hw ⟨env', rfl, henv'⟩
    exact ((hw.toLevelled.step hne henv').keeps hw).1
  obtain ⟨env', rfl, henv'⟩ := hf e' (by simp)
  have hlast := ((hmid.toLevelled.step hne henv').keeps hmid).2
  have hsnoc : pre ++ .tick env :: (mid ++ [.tick env']) = (pre ++ .tick env :: mid) ++ [.tick env'] := by simp
  rw [hsnoc, EventRun.run_append (World.step {}) w (pre ++ .tick env :: mid)]
  exact hlast

end Hailcast
