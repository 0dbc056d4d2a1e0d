import Hailcast.Lib.EventRun
import Hailcast.Scaling.Step

/-!
# The replica bounds

The forecast baseline is clamped and the reactive layer is not: the live value stays in the bounds exactly as
long as no tick overshoots them.
-/

namespace Hailcast

variable {cfg : PredictSettings} {env : TickEnv} {w w' : World}

def PredictSettings.InBounds (cfg : PredictSettings) (r : Int) : Prop :=
  cfg.scalingMinReplicas ≤ r ∧ r ≤ cfg.scalingMaxReplicas

instance (cfg : PredictSettings) (r : Int) : Decidable (cfg.InBounds r) :=
  inferInstanceAs (Decidable (_ ∧ _))

def World.start (live : Int) (history : List ScalingEvent) : World where
  minReplicaCount := live
  scalingHistory := history

structure World.Bounded (cfg : PredictSettings) (w : World) : Prop where
  live : cfg.InBounds w.minReplicaCount
  hold : ∀ held, w.service.reactiveHoldReplicas = some held → held ≤ cfg.scalingMaxReplicas
  patched : ∀ r ∈ w.patched, cfg.InBounds r

/-- A reactive raise from the live value leaves the bounds, or a step-down by a negative step does. -/
def World.LeavesBounds (cfg : PredictSettings) (w : World) (baseline : ScalingDecision) (u : ExtRat) : Prop :=
  (u.AtLeast cfg.scalingWatermarkHigh ∧
      (w.service.reactiveHoldReplicas = none ∨ u.AtMost cfg.scalingWatermarkLow) ∧
      ¬ cfg.InBounds (w.minReplicaCount + cfg.scalingReactiveStep)) ∨
  (¬ u.AtLeast cfg.scalingWatermarkHigh ∧ u.AtMost cfg.scalingWatermarkLow ∧ baseline.desiredReplicas < w.minReplicaCount ∧
      cfg.scalingMaxReplicas < w.minReplicaCount - cfg.scalingReactiveStep)

def World.Overshoots (cfg : PredictSettings) (w : World) : ScalerStep → Prop
  | .tick env => ∃ document baseline traffic u, env.Reaches cfg document baseline traffic ∧ traffic ≠ .null ∧
      utilization cfg traffic w.minReplicaCount = .ok u ∧ w.LeavesBounds cfg baseline u
  | .cooldownStatus _ _ => False
  | .preview _ => False
  | .restart => False

namespace World.Bounded

theorem bounds_le (h : w.Bounded cfg) : cfg.scalingMinReplicas ≤ cfg.scalingMaxReplicas :=
  h.live.1.trans h.live.2

theorem baseline_mem (h : w.Bounded cfg) {document : PredictionDocument} {baseline : ScalingDecision}
    {traffic : Json} (hr : env.Reaches cfg document baseline traffic) : cfg.InBounds baseline.desiredReplicas := by
  obtain ⟨signals, hdecided⟩ := hr.decides
  exact ScalingDecisionEngine.decide_mem h.bounds_le hdecided

theorem adjustment_mem (h : w.Bounded cfg) {document : PredictionDocument} {baseline : ScalingDecision}
    {traffic : Json} {adjusted : Adjustment} (hr : env.Reaches cfg document baseline traffic)
    (hadj : w.adjustment cfg baseline traffic = .ok adjusted) (hno : ¬ w.Overshoots cfg (.tick env)) :
    cfg.InBounds adjusted.desired ∧ ∀ held, adjusted.hold = some held → held ≤ cfg.scalingMaxReplicas := by
  obtain ⟨hb₁, hb₂⟩ := h.baseline_mem hr
  have hleave : ∀ u, traffic ≠ .null → utilization cfg traffic w.minReplicaCount = .ok u →
      ¬ w.LeavesBounds cfg baseline u :=
    fun u ht hu hl => hno ⟨document, baseline, traffic, u, hr, ht, hu, hl⟩
  cases applyReactiveAdjustment_result hadj with
  | noTraffic _ => exact ⟨⟨hb₁, hb₂⟩, by simp⟩
  | held held u _ _ hhold _ =>
      have hh := h.hold held hhold
      refine ⟨⟨?_, ?_⟩, fun held' he => ?_⟩
      · exact hb₁.trans (le_max_right _ _)
      · exact max_le hh hb₂
      · obtain rfl : held = held' := by simpa using he
        exact hh
  | raised u ht hu hfree hhigh =>
      have hin : cfg.InBounds (w.minReplicaCount + cfg.scalingReactiveStep) := by
        by_contra hn
        exact hleave u ht hu (Or.inl ⟨hhigh, hfree, hn⟩)
      refine ⟨hin, fun held' he => ?_⟩
      obtain rfl : w.minReplicaCount + cfg.scalingReactiveStep = held' := by simpa using he
      exact hin.2
  | lowered u ht hu hhigh hlow hlt =>
      have hle : w.minReplicaCount - cfg.scalingReactiveStep ≤ cfg.scalingMaxReplicas := by
        by_contra hn
        exact hleave u ht hu (Or.inr ⟨hhigh, hlow, hlt, not_le.mp hn⟩)
      exact ⟨⟨hb₁.trans (le_max_left _ _), max_le hb₂ hle⟩, by simp⟩
  | released _ _ _ _ _ _ => exact ⟨⟨hb₁, hb₂⟩, by simp⟩

theorem step (h : w.Bounded cfg) {e : ScalerStep} (hno : ¬ w.Overshoots cfg e) :
    (w.step cfg e).Bounded cfg := by
  cases e with
  | tick env =>
      change (finalWorld (runScaling cfg env w)).Bounded cfg
      generalize finalWorld (runScaling cfg env w) = w', runScaling_result cfg env w = hres
      cases hres with
      | skipped _ => exact h
      | failed s _ _ hhold _ => exact ⟨h.live, fun held he => h.hold held (hhold ▸ he), h.patched⟩
      | planned document baseline traffic adjusted w' hr hadj happly =>
          obtain ⟨hdesired, hhold⟩ := h.adjustment_mem hr hadj hno
          refine ⟨?_, fun held he => hhold held ?_, fun r hmem => ?_⟩
          · rcases happly.live with hl | hl
            · rw [hl]; exact h.live
            · rw [hl]; exact hdesired
          · rwa [happly.service_eq.1] at he
          · rcases happly.mem_patched r hmem with hr | rfl
            · exact h.patched r hr
            · exact hdesired
  | cooldownStatus query clock =>
      rcases World.step_cooldownStatus cfg w query clock with he | he
      · rw [he]; exact h
      · rw [he]; exact ⟨h.live, h.hold, h.patched⟩
  | preview env => rw [World.step_preview]; exact h
  | restart => exact ⟨h.live, by simp [World.step], h.patched⟩

/-- A tick that overshoots patches a value out of the bounds. -/
theorem overshoot (h : w.Bounded cfg) (hstep : 0 ≤ cfg.scalingReactiveStep) (ho : w.Overshoots cfg (.tick env)) :
    ∃ r ∈ (w.step cfg (.tick env)).patched, ¬ cfg.InBounds r := by
  obtain ⟨document, baseline, traffic, u, hr, ht, hu, hleave⟩ := ho
  obtain ⟨adjusted, hadj⟩ := applyReactiveAdjustment_isOk baseline.desiredReplicas
    w.service.reactiveHoldReplicas (some (.rule baseline.matchedRule)) hu
  obtain ⟨hlive₁, hlive₂⟩ := h.live
  -- a step that is not negative leaves the bounds upwards, by a raise
  have hraise : u.AtLeast cfg.scalingWatermarkHigh ∧
      (w.service.reactiveHoldReplicas = none ∨ u.AtMost cfg.scalingWatermarkLow) ∧
      cfg.scalingMaxReplicas < w.minReplicaCount + cfg.scalingReactiveStep := by
    rcases hleave with ⟨h₁, h₂, h₃⟩ | ⟨_, _, _, h₄⟩
    · exact ⟨h₁, h₂, by unfold PredictSettings.InBounds at h₃; omega⟩
    · omega
  obtain ⟨hhigh, hfree, hmax⟩ := hraise
  have hdesired : adjusted.desired = w.minReplicaCount + cfg.scalingReactiveStep := by
    cases applyReactiveAdjustment_result hadj with
    | noTraffic h => exact absurd h ht
    | held held u' _ hu' hhold hlow =>
        obtain rfl : u = u' := by simpa [hu] using hu'
        rcases hfree with hf | hf
        · simp [hf] at hhold
        · exact absurd hf hlow
    | raised _ _ _ _ _ => rfl
    | lowered u' _ hu' hhigh' _ _ =>
        obtain rfl : u = u' := by simpa [hu] using hu'
        exact absurd hhigh hhigh'
    | released u' _ hu' _ hhigh' _ =>
        obtain rfl : u = u' := by simpa [hu] using hu'
        exact absurd hhigh hhigh'
  refine ⟨adjusted.desired, ?_, fun hin => ?_⟩
  · exact (hr.result hadj).raise_patched (by change w.minReplicaCount < adjusted.desired; omega) hr.reads.count_pos
  · have := hin.2
    omega

theorem start {live : Int} (h : cfg.InBounds live) (history : List ScalingEvent) :
    (World.start live history).Bounded cfg :=
  ⟨h, by simp [World.start], by simp [World.start]⟩

end World.Bounded

theorem World.patched_subset_step (w : World) (e : ScalerStep) : ∀ r ∈ w.patched, r ∈ (w.step cfg e).patched := by
  cases e with
  | tick env =>
      change ∀ r ∈ w.patched, r ∈ (finalWorld (runScaling cfg env w)).patched
      generalize finalWorld (runScaling cfg env w) = w', runScaling_result cfg env w = hres
      cases hres with
      | skipped _ => exact fun _ hr => hr
      | failed _ _ _ _ _ => exact fun _ hr => hr
      | planned _ _ _ _ _ _ _ happly => exact happly.patched_subset
  | cooldownStatus query clock =>
      rcases World.step_cooldownStatus cfg w query clock with he | he <;> rw [he] <;> exact fun _ hr => hr
  | preview env => rw [World.step_preview]; exact fun _ hr => hr
  | restart => exact fun _ hr => hr

theorem World.patched_subset_run (w : World) (es : List ScalerStep) :
    ∀ r ∈ w.patched, r ∈ (EventRun.run (World.step cfg) w es).patched :=
  EventRun.run_invariant (I := fun w' : World => ∀ r ∈ w.patched, r ∈ w'.patched)
    (fun w' e h r hr => w'.patched_subset_step e r (h r hr)) (fun _ hr => hr) es

/-- With a step that is not negative, a run whose patches are all in the bounds never overshoots. -/
theorem World.Bounded.along_of_patched (hstep : 0 ≤ cfg.scalingReactiveStep) (h : w.Bounded cfg)
    {es : List ScalerStep} (hp : ∀ r ∈ (EventRun.run (World.step cfg) w es).patched, cfg.InBounds r) :
    EventRun.Along (World.step cfg) (fun w e => ¬ w.Overshoots cfg e) w es := by
  induction es generalizing w with
  | nil => trivial
  | cons e es ih =>
      have hno : ¬ w.Overshoots cfg e := by
        intro ho
        cases e with
        | tick env =>
            obtain ⟨r, hr, hout⟩ := h.overshoot hstep ho
            exact hout (hp r (World.patched_subset_run _ es r hr))
        | cooldownStatus _ _ => exact ho
        | preview _ => exact ho
        | restart => exact ho
      exact ⟨hno, ih (h.step hno) hp⟩

end Hailcast
