import Hailcast.Scaling.Step

/-!
# Overload and the forecast baseline

When an overloaded tick adds replicas, and when the reactive layer leaves the baseline of the forecast covered.
-/

namespace Hailcast

variable {cfg : PredictSettings} {env : TickEnv} {w : World}

/-! ## The baseline -/

/-- The adjustment is a reactive raise that ends below the baseline. -/
def PredictSettings.Undercuts (cfg : PredictSettings) (traffic : Json) (hold : Option Int) (baseline current : Int) :
    Prop :=
  traffic ≠ .null ∧ ∃ u, utilization cfg traffic current = .ok u ∧ u.AtLeast cfg.scalingWatermarkHigh ∧
    (hold = none ∨ u.AtMost cfg.scalingWatermarkLow) ∧ current + cfg.scalingReactiveStep < baseline

theorem AdjustResult.baseline_le_iff {traffic : Json} {hold : Option Int} {note : Option DecisionNote}
    {baseline current : Int} {adjusted : Adjustment}
    (h : AdjustResult cfg traffic hold note baseline current adjusted) :
    baseline ≤ adjusted.desired ↔ ¬ cfg.Undercuts traffic hold baseline current := by
  cases h with
  | noTraffic ht => exact iff_of_true (le_refl _) fun hu => hu.1 ht
  | held held u _ hu hhold hlow =>
      refine iff_of_true (le_max_right _ _) ?_
      rintro ⟨_, u', hu', _, hfree, _⟩
      obtain rfl := Except.ok.inj (hu.symm.trans hu')
      rcases hfree with hnone | hle
      · rw [hnone] at hhold
        cases hhold
      · exact absurd hle hlow
  | raised u ht hu hfree hhigh =>
      constructor
      · rintro hle ⟨_, _, _, _, _, hlt⟩
        exact absurd hle (not_le.mpr hlt)
      · intro hno
        by_contra hlt
        exact hno ⟨ht, u, hu, hhigh, hfree, not_le.mp hlt⟩
  | lowered u _ hu hhigh _ _ =>
      refine iff_of_true (le_max_left _ _) ?_
      rintro ⟨_, u', hu', hhigh', _⟩
      obtain rfl := Except.ok.inj (hu.symm.trans hu')
      exact absurd hhigh' hhigh
  | released u _ hu _ hhigh _ =>
      refine iff_of_true (le_refl _) ?_
      rintro ⟨_, u', hu', hhigh', _⟩
      obtain rfl := Except.ok.inj (hu.symm.trans hu')
      exact absurd hhigh' hhigh

/-! ## Overload -/

/-- An overloaded tick that gets to the reactive layer, and in which the query and the patches succeed. -/
structure World.Overloaded (cfg : PredictSettings) (w : World) (env : TickEnv) (baseline : Int) (u : ExtRat) : Prop where
  reaches : ∃ document decision traffic, env.Reaches cfg document decision traffic ∧
    decision.desiredReplicas = baseline ∧ traffic ≠ .null ∧ utilization cfg traffic w.minReplicaCount = .ok u
  high : u.AtLeast cfg.scalingWatermarkHigh
  query : env.lastEvent = none
  patches : env.PatchesSucceed

/-- One step above the live value, at most the maximum. -/
def World.overloadTarget (cfg : PredictSettings) (w : World) : Int :=
  min cfg.scalingMaxReplicas (w.minReplicaCount + cfg.scalingReactiveStep)

/-- An overloaded tick adds replicas. -/
def World.OverloadRaises (cfg : PredictSettings) (w : World) : ScalerStep → Prop
  | .tick env => ∀ baseline u, w.Overloaded cfg env baseline u →
      w.overloadTarget cfg ≤ (w.step cfg (.tick env)).minReplicaCount
  | _ => True

/-- A level that is held does not keep an overloaded tick below the target: it or the baseline reaches the target, or
the live value does, and waits for the cooldown. -/
def World.HoldYields (cfg : PredictSettings) (w : World) : ScalerStep → Prop
  | .tick env => ∀ baseline u, w.Overloaded cfg env baseline u →
      ∀ held, w.service.reactiveHoldReplicas = some held → ¬ u.AtMost cfg.scalingWatermarkLow →
        w.overloadTarget cfg ≤ max held baseline ∨
          (max held baseline < w.minReplicaCount ∧ w.overloadTarget cfg ≤ w.minReplicaCount ∧
            0 < cfg.remainingAt w.lastKnown env.cooldownClock)
  | _ => True

/-- An overloaded tick raises by a step, unless a level is held. -/
theorem World.Overloaded.adjusted {baseline : Int} {u : ExtRat} (h : w.Overloaded cfg env baseline u) :
    ∃ document decision traffic adjusted, env.Reaches cfg document decision traffic ∧
      w.adjustment cfg decision traffic = .ok adjusted ∧
      ((∃ held, w.service.reactiveHoldReplicas = some held ∧ ¬ u.AtMost cfg.scalingWatermarkLow ∧
          adjusted.desired = max held baseline) ∨
        ((w.service.reactiveHoldReplicas = none ∨ u.AtMost cfg.scalingWatermarkLow) ∧
          adjusted.desired = w.minReplicaCount + cfg.scalingReactiveStep)) := by
  obtain ⟨document, decision, traffic, hr, hb, ht, hu⟩ := h.reaches
  obtain ⟨adjusted, hadj⟩ := applyReactiveAdjustment_isOk decision.desiredReplicas
    w.service.reactiveHoldReplicas (some (.rule decision.matchedRule)) hu
  refine ⟨document, decision, traffic, adjusted, hr, hadj, ?_⟩
  have hsame : ∀ {u'}, utilization cfg traffic w.minReplicaCount = .ok u' → u = u' :=
    fun hu' => Except.ok.inj (hu.symm.trans hu')
  cases applyReactiveAdjustment_result hadj with
  | noTraffic hnull => exact absurd hnull ht
  | held held u' _ hu' hhold hlow => exact Or.inl ⟨held, hhold, hsame hu' ▸ hlow, by rw [hb]⟩
  | raised u' _ hu' hfree _ => exact Or.inr ⟨hsame hu' ▸ hfree, rfl⟩
  | lowered u' _ hu' hhigh _ _ => exact absurd (hsame hu' ▸ h.high) hhigh
  | released u' _ hu' _ hhigh _ => exact absurd (hsame hu' ▸ h.high) hhigh

theorem World.overloadRaises_iff (cfg : PredictSettings) (w : World) (e : ScalerStep) :
    w.OverloadRaises cfg e ↔ w.HoldYields cfg e := by
  cases e with
  | tick env =>
      refine forall_congr' fun baseline => forall_congr' fun u => forall_congr' fun hover => ?_
      obtain ⟨document, decision, traffic, adjusted, hr, hadj, hdesired⟩ := hover.adjusted
      have happly := hr.result hadj
      have hlive := happly.live_of_answers rfl hr.reads.count_pos hover.patches hover.query
      have hplan : (w.plan cfg env document adjusted).desired = adjusted.desired := rfl
      have hknown :
          (w.withService (w.service.planned (currentDemand cfg document env.demandClock) adjusted)).lastKnown =
            w.lastKnown := rfl
      have hcurrent : (w.withService
          (w.service.planned (currentDemand cfg document env.demandClock) adjusted)).minReplicaCount =
            w.minReplicaCount := rfl
      rw [hplan, hknown, hcurrent] at hlive
      rcases hdesired with ⟨held, hhold, hlow, hmax⟩ | ⟨hfree, hstep⟩
      · -- the level is held
        rw [hmax] at hlive
        constructor
        · intro htarget held' hhold' _
          obtain rfl : held = held' := Option.some.inj (hhold.symm.trans hhold')
          rcases hlive with hl | ⟨hlt, hcool, hl⟩
          · exact Or.inl (hl ▸ htarget)
          · exact Or.inr ⟨hlt, hl ▸ htarget, hcool⟩
        · intro hyields
          rcases hyields held hhold hlow with hle | ⟨hlt, hle, hcool⟩
          · rcases hlive with hl | ⟨hlt, _, hl⟩
            · rw [hl]
              exact hle
            · rw [hl]
              exact hle.trans hlt.le
          · have hwait := happly.live_of_waiting rfl (by rw [hplan, hmax, hcurrent]; exact hlt)
              (by rw [hknown]; exact hcool)
            rw [hwait]
            exact hle
      · -- the tick raises by a step
        rw [hstep] at hlive
        have htarget : w.overloadTarget cfg ≤ w.minReplicaCount + cfg.scalingReactiveStep := min_le_right _ _
        refine iff_of_true ?_ fun held hhold hlow => ?_
        · rcases hlive with hl | ⟨hlt, _, hl⟩
          · rw [hl]
            exact htarget
          · rw [hl]
            exact htarget.trans hlt.le
        · rcases hfree with hnone | hle
          · rw [hnone] at hhold
            cases hhold
          · exact absurd hle hlow
  | _ => exact Iff.rfl

end Hailcast
