import Hailcast.Scaling.Theorems

/-!
# Quiet times

Where the forecasts and the traffic stay low, every raise above what they need is taken back, one reactive step after
each cooldown.
-/

namespace Hailcast

variable {cfg : PredictSettings} {level : Int} {env : TickEnv} {w w' : World}

/-! ## Settings and ticks -/

/-- The settings with which a raise ends at `level` if the low watermark of `level` replicas causes it. -/
structure PredictSettings.CalmAt (cfg : PredictSettings) (level : Int) : Prop where
  pod_pos : 0 < cfg.scalingDemandPerPod
  min_pos : 1 ≤ cfg.scalingMinReplicas
  low_nonneg : 0 ≤ cfg.scalingWatermarkLow
  low_lt_high : cfg.scalingWatermarkLow < cfg.scalingWatermarkHigh
  step_nonneg : 0 ≤ cfg.scalingReactiveStep
  raise_le : ∀ r : Int, 1 ≤ r → cfg.scalingWatermarkHigh * r ≤ cfg.scalingWatermarkLow * level →
    r + cfg.scalingReactiveStep ≤ level

/-- A tick in which nothing fails; `level` replicas are enough for its forecast, and its traffic uses no more of them
than the low watermark. -/
structure TickEnv.Calm (cfg : PredictSettings) (level : Int) (env : TickEnv) : Prop where
  reaches : ∃ document baseline traffic, env.Reaches cfg document baseline traffic ∧ baseline.desiredReplicas ≤ level ∧
    (traffic = .null ∨
      ∃ n, traffic = .num n ∧ n ≤ cfg.scalingWatermarkLow * (level * cfg.scalingDemandPerPod))
  lastEvent : env.lastEvent = none
  patches : env.PatchesSucceed

/-- Every change that the service can know of was made up to `time`. -/
structure World.KnownBy (time : Int) (w : World) : Prop where
  cached : ∀ last, w.service.lastScalingAt = some last → last ≤ time
  stored : ∀ row ∈ w.scalingHistory, row.createdAt ≤ time

namespace World.KnownBy

variable {time later : Int}

theorem mono (h : w.KnownBy time) (hle : time ≤ later) : w.KnownBy later :=
  ⟨fun last hl => (h.cached last hl).trans hle, fun row hrow => (h.stored row hrow).trans hle⟩

theorem lastKnown (h : w.KnownBy time) {last : Int} (hlast : w.lastKnown = some last) : last ≤ time := by
  unfold World.lastKnown at hlast
  cases hcached : w.service.lastScalingAt with
  | some cached =>
      rw [hcached] at hlast
      obtain rfl := Option.some.inj hlast
      exact h.cached _ hcached
  | none =>
      rw [hcached, Option.none_or] at hlast
      obtain ⟨row, hrow, rfl⟩ := List.mem_map.mp (List.max?_mem hlast)
      exact h.stored row hrow

theorem congr (h : w.KnownBy time) (hlast : w'.service.lastScalingAt = w.service.lastScalingAt)
    (hhistory : w'.scalingHistory = w.scalingHistory) : w'.KnownBy time := by
  obtain ⟨hcached, hstored⟩ := h
  constructor
  · rwa [hlast]
  · rwa [hhistory]

theorem loaded (h : w.KnownBy time) : w.loaded.KnownBy time :=
  ⟨fun _ hl => h.lastKnown hl, h.stored⟩

theorem restart (h : w.KnownBy time) : (w.withService {}).KnownBy time :=
  ⟨by simp, h.stored⟩

/-- A cooldown that is not over ends a cooldown after that time. -/
theorem waiting (h : w.KnownBy time) {clock : Int} (hwait : 0 < cfg.remainingAt w.lastKnown clock) :
    totalSeconds clock ≤ totalSeconds time + cfg.scalingCooldownSeconds := by
  unfold PredictSettings.remainingAt at hwait
  split at hwait
  · exact absurd hwait (lt_irrefl 0)
  · rename_i last hlast
    have hpos : 0 < cfg.scalingCooldownSeconds - totalSeconds (clock - last) := by
      rcases lt_max_iff.mp hwait with h | h
      · exact absurd h (lt_irrefl 0)
      · exact h
    have hle : totalSeconds last ≤ totalSeconds time := totalSeconds_mono (h.lastKnown hlast)
    have hsub : totalSeconds (clock - last) = totalSeconds clock - totalSeconds last := by
      simp [totalSeconds, sub_div]
    linarith

end World.KnownBy

/-! ## One tick -/

theorem ApplyResult.knownBy {plan : Plan} {now later : Int} (h : ApplyResult cfg env plan w w')
    (hknown : w.KnownBy now) (hclock : now ≤ env.appliedClock) (hlater : env.appliedClock ≤ later)
    (hcommit : ∀ createdAt, env.history = .commits createdAt → createdAt ≤ later) : w'.KnownBy later := by
  have hready : ∀ {w₁}, World.Ready cfg env plan w w₁ → w₁.KnownBy now := by
    rintro w₁ (⟨_, rfl⟩ | ⟨_, _, rfl⟩)
    · exact hknown
    · exact hknown.loaded
  have hattempted : ∀ {w₁ w₂}, World.Ready cfg env plan w w₁ → World.Attempted env plan.desired w₁ w₂ →
      w₂.KnownBy now := fun hr ha =>
    (hready hr).congr (congrArg ScalerService.lastScalingAt ha.service_eq) ha.history_eq
  cases h with
  | unchanged _ => exact hknown.mono (hclock.trans hlater)
  | queryFailed _ => exact hknown.mono (hclock.trans hlater)
  | deferred _ _ => exact hknown.loaded.mono (hclock.trans hlater)
  | gaveUp w₁ _ hr ha _ => exact (hattempted hr ha).mono (hclock.trans hlater)
  | changed w₁ w₂ attempt time hr hpatch =>
      have hstored := (hattempted hr hpatch.attempted).stored
      refine ⟨fun last hl => ?_, fun row hrow => ?_⟩
      · rw [World.record_service, World.changed_service] at hl
        obtain rfl : env.appliedClock = last := Option.some.inj hl
        exact hlater
      · cases hhistory : env.history with
        | fails exc =>
            rw [hhistory] at hrow
            exact (hstored row hrow).trans (hclock.trans hlater)
        | commits createdAt =>
            rw [hhistory] at hrow
            rcases List.mem_append.mp hrow with hrow | hrow
            · exact (hstored row hrow).trans (hclock.trans hlater)
            · obtain rfl := List.mem_singleton.mp hrow
              exact hcommit createdAt hhistory

/-- A lowering that waits leaves what the service knows. -/
theorem ApplyResult.knownBy_of_waiting {plan : Plan} {now : Int} (h : ApplyResult cfg env plan w w')
    (hknown : w.KnownBy now) (hlt : plan.desired < plan.current)
    (hwait : 0 < cfg.remainingAt w.lastKnown env.cooldownClock) : w'.KnownBy now := by
  have hready : ∀ w₁, ¬ World.Ready cfg env plan w w₁ := by
    rintro w₁ (⟨hraise, _⟩ | ⟨_, hover, _⟩)
    · omega
    · exact absurd hwait (not_lt.mpr hover)
  cases h with
  | unchanged _ => exact hknown
  | queryFailed _ => exact hknown
  | deferred _ _ => exact hknown.loaded
  | gaveUp w₁ _ hr _ _ => exact absurd hr (hready w₁)
  | changed w₁ _ _ _ hr _ => exact absurd hr (hready w₁)

theorem PredictSettings.CalmAt.baseline_pos (hcfg : cfg.CalmAt level) {document : PredictionDocument}
    {baseline : ScalingDecision} {traffic : Json} (hreach : env.Reaches cfg document baseline traffic) :
    1 ≤ baseline.desiredReplicas := by
  obtain ⟨signals, hdecided⟩ := hreach.decides
  obtain ⟨desired, _, hd, _⟩ := ScalingDecisionEngine.decide_eq_ok hdecided
  rw [hd]
  exact hcfg.min_pos.trans (le_max_left _ _)

/-- The utilization of the replicas that there are, from the traffic that `level` replicas can carry. -/
theorem PredictSettings.CalmAt.utilization_mul_le (hcfg : cfg.CalmAt level) {traffic : Json} {current : Int}
    (hcurrent : 1 ≤ current)
    (htraffic : traffic = .null ∨
      ∃ n, traffic = .num n ∧ n ≤ cfg.scalingWatermarkLow * (level * cfg.scalingDemandPerPod))
    {u : ExtRat} (hne : traffic ≠ .null) (hu : utilization cfg traffic current = .ok u) :
    ∃ q : ℚ, u = .fin q ∧ q * current ≤ cfg.scalingWatermarkLow * level := by
  have hpod := hcfg.pod_pos
  have hcq : (1 : ℚ) ≤ current := by exact_mod_cast hcurrent
  obtain ⟨n, rfl, hn⟩ := htraffic.resolve_left hne
  have hcapacity : 0 < current * cfg.scalingDemandPerPod := by positivity
  rw [utilization_num hcapacity] at hu
  refine ⟨_, (Except.ok.inj hu).symm, ?_⟩
  rw [div_mul_eq_mul_div, div_le_iff₀ hcapacity]
  nlinarith

/-- More replicas than the level are used at most up to the low watermark. -/
theorem PredictSettings.CalmAt.le_low (hcfg : cfg.CalmAt level) {current : Int} (hcurrent : 1 ≤ current)
    (hlevel : level < current) {q : ℚ} (hq : q * current ≤ cfg.scalingWatermarkLow * level) :
    q ≤ cfg.scalingWatermarkLow := by
  have hlow := hcfg.low_nonneg
  have hcq : (1 : ℚ) ≤ current := by exact_mod_cast hcurrent
  have hlq : (level : ℚ) ≤ current := by exact_mod_cast hlevel.le
  have hmul : q * current ≤ cfg.scalingWatermarkLow * current :=
    hq.trans (mul_le_mul_of_nonneg_left hlq hlow)
  exact le_of_mul_le_mul_right hmul (by linarith)

/-- The adjustment of a calm tick never asks for more than the level, or than a step below what is there. -/
theorem AdjustResult.calm (hcfg : cfg.CalmAt level) {traffic : Json} {hold : Option Int} {note : Option DecisionNote}
    {baseline current : Int} {adjusted : Adjustment} (h : AdjustResult cfg traffic hold note baseline current adjusted)
    (htraffic : traffic = .null ∨
      ∃ n, traffic = .num n ∧ n ≤ cfg.scalingWatermarkLow * (level * cfg.scalingDemandPerPod))
    (hbase : 1 ≤ baseline) (hlevel : baseline ≤ level) (hcurrent : 1 ≤ current)
    (hhold : ∀ held, hold = some held → held ≤ max level current) :
    1 ≤ adjusted.desired ∧ adjusted.desired ≤ max level (current - cfg.scalingReactiveStep) ∧
      ∀ held, adjusted.hold = some held → held ≤ level := by
  have hstep := hcfg.step_nonneg
  cases h with
  | noTraffic _ => exact ⟨hbase, by dsimp only; omega, by simp⟩
  | held held u hne hok hh hlow' =>
      obtain ⟨q, rfl, hq⟩ := hcfg.utilization_mul_le hcurrent htraffic hne hok
      have hle : current ≤ level := by
        by_contra hgt
        exact hlow' (hcfg.le_low hcurrent (not_le.mp hgt) hq)
      have hheld := hhold held hh
      refine ⟨by dsimp only; omega, by dsimp only; omega, fun held' he => ?_⟩
      obtain rfl := Option.some.inj he
      omega
  | raised u hne hok hfree hhigh =>
      obtain ⟨q, rfl, hmul⟩ := hcfg.utilization_mul_le hcurrent htraffic hne hok
      have hcq : (1 : ℚ) ≤ current := by exact_mod_cast hcurrent
      have hmark : cfg.scalingWatermarkHigh ≤ q := hhigh
      have hraise : current + cfg.scalingReactiveStep ≤ level := by
        apply hcfg.raise_le current hcurrent
        nlinarith
      refine ⟨by dsimp only; omega, by dsimp only; omega, fun held he => ?_⟩
      obtain rfl := Option.some.inj he
      exact hraise
  | lowered u hne hok hhigh hlow' hlt' => exact ⟨by dsimp only; omega, by dsimp only; omega, by simp⟩
  | released u hne hok hfree hhigh hlow' => exact ⟨hbase, by dsimp only; omega, by simp⟩

/-- The level is not exceeded by what is held, and there is a pod. -/
structure World.CalmAt (level : Int) (w : World) : Prop where
  live : 1 ≤ w.minReplicaCount
  hold : ∀ held, w.service.reactiveHoldReplicas = some held → held ≤ max level w.minReplicaCount

/-- A calm tick lowers what exceeds the level by a step, or the cooldown is not over yet. -/
theorem TickEnv.Calm.step (hcfg : cfg.CalmAt level) (h : env.Calm cfg level) (hw : w.CalmAt level) {known now : Int}
    (hknown : w.KnownBy known) (hle : known ≤ now) (horder : ScalerStep.InOrder now (.tick env)) :
    (w.step cfg (.tick env)).CalmAt level ∧
      (w.step cfg (.tick env)).KnownBy (ScalerStep.ends now (.tick env)) ∧
      ((w.step cfg (.tick env)).minReplicaCount ≤ max level (w.minReplicaCount - cfg.scalingReactiveStep) ∨
        (w.step cfg (.tick env)).minReplicaCount = w.minReplicaCount ∧ (w.step cfg (.tick env)).KnownBy known ∧
          totalSeconds env.cooldownClock ≤ totalSeconds known + cfg.scalingCooldownSeconds) := by
  obtain ⟨document, baseline, traffic, hreach, hlevel, htraffic⟩ := h.reaches
  obtain ⟨h₁, h₂, h₃, h₄, hpatch, hend⟩ := horder
  have hu : ∃ adjusted, w.adjustment cfg baseline traffic = .ok adjusted := by
    rcases htraffic with rfl | ⟨n, rfl, _⟩
    · exact ⟨_, rfl⟩
    · obtain ⟨u, hu⟩ := utilization_num_isOk cfg n w.minReplicaCount
      exact applyReactiveAdjustment_isOk _ _ _ hu
  obtain ⟨adjusted, hadj⟩ := hu
  obtain ⟨hpos, hdesired, hheld⟩ :=
    (applyReactiveAdjustment_result hadj).calm hcfg htraffic (hcfg.baseline_pos hreach) hlevel hw.live hw.hold
  have happly := hreach.result hadj
  have hplanned : (w.withService
      (w.service.planned (currentDemand cfg document env.demandClock) adjusted)).KnownBy known := hknown.congr rfl rfl
  have hhold : (w.step cfg (.tick env)).service.reactiveHoldReplicas = adjusted.hold := happly.service_eq.1
  have hlater : env.appliedClock ≤ ScalerStep.ends now (.tick env) := by
    unfold ScalerStep.ends
    dsimp only
    split
    · rename_i createdAt hcommit
      exact hend createdAt hcommit
    · exact le_refl _
  have hcommit : ∀ createdAt, env.history = .commits createdAt → createdAt ≤ ScalerStep.ends now (.tick env) := by
    intro createdAt hc
    simp [ScalerStep.ends, hc]
  refine ⟨⟨?_, fun held he => ?_⟩, happly.knownBy hplanned (by omega) hlater hcommit, ?_⟩
  · rcases happly.live_of_answers rfl hreach.reads.count_pos h.patches h.lastEvent with hl | ⟨_, _, hl⟩
    · rw [hl]; exact hpos
    · rw [hl]; exact hw.live
  · rw [hhold] at he
    exact (hheld held he).trans (le_max_left _ _)
  · rcases happly.live_of_answers rfl hreach.reads.count_pos h.patches h.lastEvent with hl | ⟨hlt, hwait, hl⟩
    · rw [hl]
      exact .inl hdesired
    · exact .inr ⟨hl, happly.knownBy_of_waiting hplanned hlt hwait, hplanned.waiting hwait⟩

/-! ## Runs -/

/-- The end of the last event, and the time at which the last tick looked at the cooldown. -/
def ScalerStep.watch (clocks : Int × Int) (e : ScalerStep) : Int × Int :=
  (e.ends clocks.1, match e with | .tick env => env.cooldownClock | _ => clocks.2)

/-- The events follow each other, the ticks are calm, and each ends at most `gap` seconds after the one before it looked
at the cooldown. -/
def ScalerStep.Calm (cfg : PredictSettings) (level : Int) (gap : ℚ) (clocks : Int × Int) (e : ScalerStep) : Prop :=
  e.InOrder clocks.1 ∧ match e with
    | .tick env => env.Calm cfg level ∧ totalSeconds (e.ends clocks.1) ≤ totalSeconds clocks.2 + gap
    | _ => True

/-- How far the replicas have come since `start`, with `count` changes each of which took at most a cooldown and a gap;
the last one was made up to `last`. -/
structure World.Descends (cfg : PredictSettings) (level : Int) (gap : ℚ) (since start : Int) (clocks : Int × Int)
    (count : Nat) (last : Int) (w : World) : Prop where
  known : w.KnownBy last
  past : last ≤ clocks.1
  early : totalSeconds last ≤ totalSeconds since + count * (cfg.scalingCooldownSeconds + gap)
  recent : totalSeconds clocks.2 ≤ totalSeconds last + cfg.scalingCooldownSeconds
  live : w.minReplicaCount ≤ max level (start - count * cfg.scalingReactiveStep)

/-- The replicas are at the level, or on their way. -/
structure World.Calming (cfg : PredictSettings) (level : Int) (gap : ℚ) (since start : Int) (clocks : Int × Int)
    (w : World) : Prop where
  calm : w.CalmAt level
  known : w.KnownBy clocks.1
  descends : w.minReplicaCount ≤ level ∨ ∃ count last, w.Descends cfg level gap since start clocks count last

section Runs

variable {gap : ℚ} {since start now last : Int} {clocks : Int × Int} {count : Nat}

theorem ScalerStep.InOrder.tick_le (h : ScalerStep.InOrder now (.tick env)) :
    now ≤ ScalerStep.ends now (.tick env) ∧ env.cooldownClock ≤ ScalerStep.ends now (.tick env) := by
  obtain ⟨h₁, h₂, h₃, h₄, _, hend⟩ := h
  unfold ScalerStep.ends
  dsimp only
  split
  · rename_i createdAt hcommit
    have hlast := hend createdAt hcommit
    omega
  · omega

/-- The replicas and what the service holds stay, and time goes on. -/
theorem World.Calming.keep (h : w.Calming cfg level gap since start clocks)
    (hlive : w'.minReplicaCount = w.minReplicaCount)
    (hhold : ∀ held, w'.service.reactiveHoldReplicas = some held → w.service.reactiveHoldReplicas = some held)
    (hknown : ∀ time, w.KnownBy time → w'.KnownBy time) (hle : clocks.1 ≤ now) :
    w'.Calming cfg level gap since start (now, clocks.2) where
  calm := ⟨hlive ▸ h.calm.live, fun held hh => hlive ▸ h.calm.hold held (hhold held hh)⟩
  known := (hknown _ h.known).mono hle
  descends := by
    rcases h.descends with hlevel | ⟨count, last, hd⟩
    · exact .inl (hlive ▸ hlevel)
    · exact .inr ⟨count, last, hknown _ hd.known, hd.past.trans hle, hd.early, hd.recent, hlive ▸ hd.live⟩

theorem World.Descends.tick (hcfg : cfg.CalmAt level) (hcool : 0 ≤ cfg.scalingCooldownSeconds)
    (hd : w.Descends cfg level gap since start clocks count last) (hw : w.CalmAt level) (henv : env.Calm cfg level)
    (horder : ScalerStep.InOrder clocks.1 (.tick env))
    (hgap : totalSeconds (ScalerStep.ends clocks.1 (.tick env)) ≤ totalSeconds clocks.2 + gap) :
    ∃ count last, (w.step cfg (.tick env)).Descends cfg level gap since start
      (ScalerStep.watch clocks (.tick env)) count last := by
  obtain ⟨hle, hclock⟩ := horder.tick_le
  obtain ⟨_, hknown, hlive | ⟨hlive, hsame, hwait⟩⟩ := henv.step hcfg hw hd.known hd.past horder
  · refine ⟨count + 1, ScalerStep.ends clocks.1 (.tick env), hknown, le_refl _, ?_, ?_, ?_⟩
    · have hearly := hd.early
      have hrecent := hd.recent
      push_cast
      linarith
    · have hmono : totalSeconds env.cooldownClock ≤ totalSeconds (ScalerStep.ends clocks.1 (.tick env)) :=
        totalSeconds_mono hclock
      change totalSeconds env.cooldownClock ≤ _
      linarith
    · have hbefore := hd.live
      have hstep := hcfg.step_nonneg
      push_cast
      rw [add_mul, one_mul]
      omega
  · exact ⟨count, last, hsame, hd.past.trans hle, hd.early, hwait, hlive ▸ hd.live⟩

theorem World.Calming.step (hcfg : cfg.CalmAt level) (hcool : 0 ≤ cfg.scalingCooldownSeconds)
    (h : w.Calming cfg level gap since start clocks) {e : ScalerStep} (he : e.Calm cfg level gap clocks) :
    (w.step cfg e).Calming cfg level gap since start (ScalerStep.watch clocks e) := by
  cases e with
  | tick env =>
      obtain ⟨horder, henv, hgap⟩ := he
      obtain ⟨hcalm, hknown, hlive⟩ := henv.step hcfg h.calm h.known (le_refl _) horder
      refine ⟨hcalm, hknown, ?_⟩
      rcases h.descends with hlevel | ⟨count, last, hd⟩
      · have hstep := hcfg.step_nonneg
        rcases hlive with hlive | ⟨hlive, _⟩
        · exact .inl (by omega)
        · exact .inl (by omega)
      · exact .inr (hd.tick hcfg hcool h.calm henv horder hgap)
  | cooldownStatus query clock =>
      have hle : clocks.1 ≤ clock := he.1
      rcases World.step_cooldownStatus cfg w query clock with hw | hw
      · rw [hw]
        exact h.keep rfl (fun _ hh => hh) (fun _ hk => hk) hle
      · rw [hw]
        exact h.keep rfl (fun _ hh => hh) (fun _ hk => hk.loaded) hle
  | preview env =>
      have hle : clocks.1 ≤ env.demandClock := he.1
      rw [World.step_preview]
      exact h.keep rfl (fun _ hh => hh) (fun _ hk => hk) hle
  | restart => exact h.keep rfl (fun held hh => by cases hh) (fun _ hk => hk.restart) (le_refl _)

theorem World.Calming.run (hcfg : cfg.CalmAt level) (hcool : 0 ≤ cfg.scalingCooldownSeconds)
    (h : w.Calming cfg level gap since start clocks) {events : List ScalerStep}
    (hcalm : EventRun.Along ScalerStep.watch (ScalerStep.Calm cfg level gap) clocks events) :
    (EventRun.run (World.step cfg) w events).Calming cfg level gap since start
      (EventRun.run ScalerStep.watch clocks events) := by
  induction events generalizing w clocks with
  | nil => exact h
  | cons e events ih => exact ih (h.step hcfg hcool hcalm.1) hcalm.2

end Runs

/-- While the forecasts and the traffic stay low, in every cooldown and gap the replicas come down a reactive step until
they are at the level, whatever restarts and status calls there are. -/
theorem scaler_comes_down (cfg : PredictSettings) (level : Int) (hcfg : cfg.CalmAt level)
    (hcool : 0 ≤ cfg.scalingCooldownSeconds) (gap : ℚ) (hgap : 0 < gap) (w : World) (hw : w.CalmAt level) (since : Int)
    (hknown : w.KnownBy since) (events : List ScalerStep)
    (hcalm : EventRun.Along ScalerStep.watch (ScalerStep.Calm cfg level gap) (since, since) events) (k : Nat)
    (hk : totalSeconds since + k * (cfg.scalingCooldownSeconds + gap) ≤
      totalSeconds (EventRun.run ScalerStep.watch (since, since) events).2) :
    (EventRun.run (World.step cfg) w events).minReplicaCount ≤
      max level (w.minReplicaCount - k * cfg.scalingReactiveStep) := by
  have hstart : w.Calming cfg level gap since w.minReplicaCount (since, since) :=
    ⟨hw, hknown, .inr ⟨0, since, hknown, le_refl _, by simp, by dsimp only; linarith, by simp⟩⟩
  rcases (hstart.run hcfg hcool hcalm).descends with hlevel | ⟨count, last, hd⟩
  · exact hlevel.trans (le_max_left _ _)
  · have hearly := hd.early
    have hrecent := hd.recent
    have hle : k ≤ count := by
      have hlt : (k : ℚ) * (cfg.scalingCooldownSeconds + gap) < (count + 1) * (cfg.scalingCooldownSeconds + gap) := by
        linarith
      have hpos : 0 < cfg.scalingCooldownSeconds + gap := by linarith
      have := lt_of_mul_lt_mul_right hlt hpos.le
      have hcount : k < count + 1 := by exact_mod_cast this
      omega
    have hmul : (k : Int) * cfg.scalingReactiveStep ≤ count * cfg.scalingReactiveStep :=
      mul_le_mul_of_nonneg_right (by exact_mod_cast hle) hcfg.step_nonneg
    exact hd.live.trans (max_le_max (le_refl _) (by omega))

theorem calmAt_shipped : ({} : PredictSettings).CalmAt 1 where
  pod_pos := by norm_num
  min_pos := le_refl 1
  low_nonneg := by norm_num
  low_lt_high := by norm_num
  step_nonneg := by decide
  raise_le := by
    intro r hr hle
    have hrq : (1 : ℚ) ≤ r := by exact_mod_cast hr
    norm_num at hle
    linarith

theorem quietTick_calm (time : Int) : (quietTick time 0 0).Calm {} 1 := by
  obtain ⟨document, baseline, hreach, hdemand⟩ := quietTick_reaches time 0
  refine ⟨⟨document, baseline, _, hreach, ?_, .inr ⟨0, rfl, by norm_num⟩⟩, rfl, quietTick_patchesSucceed time 0 0⟩
  have hdecided := hreach.decided
  have hclock : (quietTick time 0 0).demandClock = time := rfl
  rw [hclock, hdemand] at hdecided
  rw [(decide_shipped hdecided).2]
  decide

def calmNight : List ScalerStep :=
  [.tick (quietTick 300000000 0 0), .restart, .tick (quietTick 600000000 0 0), .tick (quietTick 900000000 0 0),
    .tick (quietTick 1200000000 0 0)]

theorem calmNight_calm : EventRun.Along ScalerStep.watch (ScalerStep.Calm {} 1 300) (0, 0) calmNight := by
  refine ⟨⟨quietTick_inOrder ?_ 0 0, quietTick_calm _, ?_⟩, ⟨trivial, trivial⟩,
    ⟨quietTick_inOrder ?_ 0 0, quietTick_calm _, ?_⟩, ⟨quietTick_inOrder ?_ 0 0, quietTick_calm _, ?_⟩,
    ⟨quietTick_inOrder ?_ 0 0, quietTick_calm _, ?_⟩, trivial⟩
  all_goals norm_num [ScalerStep.watch, ScalerStep.ends, quietTick, totalSeconds]

theorem scaler_comes_down_from_five :
    (EventRun.run (World.step {}) (World.start 5 []) calmNight).minReplicaCount ≤ 3 := by
  refine scaler_comes_down {} 1 calmAt_shipped (by norm_num) 300 (by norm_num) (World.start 5 [])
    ⟨by decide, by simp [World.start]⟩ 0 ⟨by simp [World.start], by simp [World.start]⟩ calmNight calmNight_calm 2 ?_
  norm_num [calmNight, ScalerStep.watch, ScalerStep.ends, quietTick, totalSeconds]

end Hailcast
