import Hailcast.Lib.EventRun
import Hailcast.Scaling.Step

/-!
# The cooldown clock

The time of the last change is kept in memory and, after a restart, in the history table. Both are late enough
for every change made so far, which is what a step-down has to wait for.
-/

namespace Hailcast

variable {cfg : PredictSettings} {env : TickEnv} {w w' : World} {now later : Int}

/-! ## Runs at non-decreasing times -/

/-- The clock readings of a step follow `now` and each other. -/
def ScalerStep.InOrder (now : Int) : ScalerStep → Prop
  | .tick env => now ≤ env.ageClock ∧ env.ageClock ≤ env.demandClock ∧ env.demandClock ≤ env.cooldownClock ∧
      env.cooldownClock ≤ env.appliedClock ∧
      (∀ k time, env.patch k = .applied time → env.cooldownClock ≤ time ∧ time ≤ env.appliedClock) ∧
      ∀ createdAt, env.history = .commits createdAt → env.appliedClock ≤ createdAt
  | .cooldownStatus _ clock => now ≤ clock
  | .preview env => now ≤ env.demandClock
  | .restart => True

def ScalerStep.ends (now : Int) : ScalerStep → Int
  | .tick env =>
      match env.history with
      | .commits createdAt => createdAt
      | .fails _ => env.appliedClock
  | .cooldownStatus _ clock => clock
  | .preview env => env.demandClock
  | .restart => now

/-- A patch applies the value or raises without effect, and the history insert commits. -/
def ScalerStep.Reliable : ScalerStep → Prop
  | .tick env => (∀ k time exc, env.patch k ≠ .lost time exc) ∧ ∃ createdAt, env.history = .commits createdAt
  | .cooldownStatus _ _ => True
  | .preview _ => True
  | .restart => True

/-! ## The invariant -/

theorem le_lastEventTime {rows : List ScalingEvent} {row : ScalingEvent} (h : row ∈ rows) :
    ∃ last, lastEventTime rows = some last ∧ row.createdAt ≤ last := by
  have hmem : row.createdAt ∈ rows.map ScalingEvent.createdAt := List.mem_map_of_mem h
  obtain ⟨last, hlast⟩ : ∃ last, lastEventTime rows = some last :=
    Option.isSome_iff_exists.mp (List.isSome_max?_of_mem hmem)
  exact ⟨last, hlast, (List.max?_eq_some_iff.mp hlast).2 _ hmem⟩

/-- What the service knows of the changes made up to `now`. -/
structure World.Accounted (now : Int) (w : World) : Prop where
  cached : ∀ last, w.service.lastScalingAt = some last → ∀ c ∈ w.changes, c.time ≤ last
  stored : ∀ c ∈ w.changes, ∃ row ∈ w.scalingHistory, c.time ≤ row.createdAt
  past : ∀ c ∈ w.changes, c.time ≤ now

namespace World.Accounted

theorem lastKnown (h : w.Accounted now) {c : Change} (hc : c ∈ w.changes) :
    ∃ last, w.lastKnown = some last ∧ c.time ≤ last := by
  unfold World.lastKnown
  cases hl : w.service.lastScalingAt with
  | some last => exact ⟨last, rfl, h.cached last hl c hc⟩
  | none =>
      obtain ⟨row, hrow, hle⟩ := h.stored c hc
      obtain ⟨last, hlast, hle'⟩ := le_lastEventTime hrow
      exact ⟨last, by simpa using hlast, hle.trans hle'⟩

theorem loaded (h : w.Accounted now) : w.loaded.Accounted now := by
  refine ⟨fun last hl c hc => ?_, h.stored, h.past⟩
  obtain ⟨last', hl', hle⟩ := h.lastKnown hc
  obtain rfl : last' = last := Option.some.inj (hl'.symm.trans hl)
  exact hle

/-- When no cooldown remains, every change is a cooldown ago. -/
theorem elapsed (h : w.Accounted now) {clock : Int} (hr : cfg.remainingAt w.lastKnown clock ≤ 0) {c : Change}
    (hc : c ∈ w.changes) : cfg.scalingCooldownSeconds ≤ totalSeconds (clock - c.time) := by
  obtain ⟨last, hl, hle⟩ := h.lastKnown hc
  rw [hl] at hr
  have hcool : cfg.scalingCooldownSeconds - totalSeconds (clock - last) ≤ 0 := (le_max_right _ _).trans hr
  have hmono : totalSeconds (clock - last) ≤ totalSeconds (clock - c.time) := totalSeconds_mono (by omega)
  linarith

theorem congr (h : w.Accounted now) (hlast : w'.service.lastScalingAt = w.service.lastScalingAt)
    (hchanges : w'.changes = w.changes) (hhistory : w'.scalingHistory = w.scalingHistory) : w'.Accounted now := by
  obtain ⟨hcached, hstored, hpast⟩ := h
  constructor
  · rwa [hlast, hchanges]
  · rwa [hchanges, hhistory]
  · rwa [hchanges]

theorem mono (h : w.Accounted now) (hle : now ≤ later) : w.Accounted later :=
  ⟨h.cached, h.stored, fun c hc => (h.past c hc).trans hle⟩

theorem restart (h : w.Accounted now) : (w.withService {}).Accounted now :=
  ⟨by simp, h.stored, h.past⟩

theorem record (h : w.Accounted now) (plan : Plan) {time clock createdAt : Int} (hnow : now ≤ clock)
    (htime : time ≤ clock) (hend : clock ≤ createdAt) :
    ((w.changed time plan.desired clock).record plan (.commits createdAt)).Accounted createdAt := by
  refine ⟨fun last hl c hc => ?_, fun c hc => ?_, fun c hc => ?_⟩
  · obtain rfl : clock = last := Option.some.inj hl
    rcases List.mem_cons.mp hc with rfl | hc
    · exact htime
    · exact (h.past c hc).trans hnow
  · rcases List.mem_cons.mp hc with rfl | hc
    · exact ⟨_, List.mem_append_right _ (List.mem_singleton_self _), htime.trans hend⟩
    · obtain ⟨row, hrow, hle⟩ := h.stored c hc
      exact ⟨row, List.mem_append_left _ hrow, hle⟩
  · rcases List.mem_cons.mp hc with rfl | hc
    · exact htime.trans hend
    · exact (h.past c hc).trans (hnow.trans hend)

end World.Accounted

/-- Between two states nothing has changed, or one change has been made; if it lowers the live value, it is a
cooldown after every earlier one. -/
def World.Spaced (cfg : PredictSettings) (w w' : World) : Prop :=
  (w'.changes = w.changes ∧ w'.minReplicaCount = w.minReplicaCount) ∨
  ∃ time, w'.changes = ⟨time, w.minReplicaCount, w'.minReplicaCount⟩ :: w.changes ∧
    (w'.minReplicaCount < w.minReplicaCount →
      ∀ c ∈ w.changes, cfg.scalingCooldownSeconds ≤ totalSeconds (time - c.time))

theorem World.Ready.accounted {plan : Plan} (hready : World.Ready cfg env plan w w') (h : w.Accounted now) :
    w'.Accounted now := by
  rcases hready with ⟨_, rfl⟩ | ⟨_, _, rfl⟩
  · exact h
  · exact h.loaded

theorem World.Attempted.accounted {replicas : Int} (hattempt : World.Attempted env replicas w w')
    (hlost : ∀ k time exc, env.patch k ≠ .lost time exc) (h : w.Accounted now) : w'.Accounted now :=
  h.congr (congrArg ScalerService.lastScalingAt hattempt.service_eq) (hattempt.of_not_lost hlost).2
    hattempt.history_eq

theorem ApplyResult.accounted {plan : Plan} (happly : ApplyResult cfg env plan w w') (h : w.Accounted now)
    (hlost : ∀ k time exc, env.patch k ≠ .lost time exc) {createdAt : Int}
    (hcommit : env.history = .commits createdAt)
    (horder : ∀ k time, env.patch k = .applied time → env.cooldownClock ≤ time ∧ time ≤ env.appliedClock)
    (hnow : now ≤ env.appliedClock) (hend : env.appliedClock ≤ createdAt) : w'.Accounted createdAt := by
  have hlater : now ≤ createdAt := hnow.trans hend
  cases happly with
  | unchanged _ => exact h.mono hlater
  | queryFailed _ => exact h.mono hlater
  | deferred _ _ => exact h.loaded.mono hlater
  | gaveUp w₁ _ hready hattempt _ => exact (hattempt.accounted hlost (hready.accounted h)).mono hlater
  | changed w₁ w₂ attempt time hready hpatch =>
      have h₂ := hpatch.attempted.accounted hlost (hready.accounted h)
      rw [hcommit]
      exact h₂.record plan hnow (horder attempt time hpatch.applied).2 hend

theorem ApplyResult.spaced {plan : Plan} (happly : ApplyResult cfg env plan w w')
    (hcurrent : plan.current = w.minReplicaCount) (h : w.Accounted now)
    (hlost : ∀ k time exc, env.patch k ≠ .lost time exc)
    (horder : ∀ k time, env.patch k = .applied time → env.cooldownClock ≤ time ∧ time ≤ env.appliedClock) :
    w.Spaced cfg w' := by
  cases happly with
  | unchanged _ => exact Or.inl ⟨rfl, rfl⟩
  | queryFailed _ => exact Or.inl ⟨rfl, rfl⟩
  | deferred _ _ => exact Or.inl ⟨rfl, rfl⟩
  | gaveUp w₁ _ hready hattempt _ =>
      obtain ⟨hlive, hchanges⟩ := hattempt.of_not_lost hlost
      obtain ⟨hlive₁, _, hchanges₁, _⟩ := hready.frame
      exact Or.inl ⟨hchanges.trans hchanges₁, hlive.trans hlive₁⟩
  | changed w₁ w₂ attempt time hready hpatch =>
      obtain ⟨hlive, hchanges⟩ := hpatch.attempted.of_not_lost hlost
      obtain ⟨hlive₁, _, hchanges₁, _⟩ := hready.frame
      refine Or.inr ⟨time, by simp [hchanges, hchanges₁, hlive, hlive₁], fun hlt c hc => ?_⟩
      rw [World.record_minReplicaCount, World.changed_minReplicaCount, ← hcurrent] at hlt
      rcases hready with ⟨hup, _⟩ | ⟨_, hover, _⟩
      · omega
      · have hwait := h.elapsed hover hc
        have hcool := (horder attempt time hpatch.applied).1
        exact hwait.trans (totalSeconds_mono (by omega))

theorem World.Accounted.step (h : w.Accounted now) {e : ScalerStep} (horder : e.InOrder now) (hrel : e.Reliable) :
    (w.step cfg e).Accounted (e.ends now) ∧ w.Spaced cfg (w.step cfg e) := by
  cases e with
  | tick env =>
      obtain ⟨hlost, createdAt, hcommit⟩ := hrel
      obtain ⟨h₁, h₂, h₃, h₄, hpatch, hend⟩ := horder
      have hlast := hend createdAt hcommit
      have hlater : now ≤ createdAt := by omega
      have hends : ScalerStep.ends now (.tick env) = createdAt := by simp only [ScalerStep.ends, hcommit]
      rw [hends]
      change (finalWorld (runScaling cfg env w)).Accounted createdAt ∧
        w.Spaced cfg (finalWorld (runScaling cfg env w))
      generalize finalWorld (runScaling cfg env w) = w', runScaling_result cfg env w = hres
      cases hres with
      | skipped _ => exact ⟨h.mono hlater, Or.inl ⟨rfl, rfl⟩⟩
      | failed s _ hl _ _ =>
          have h' : (w.withService s).Accounted now := h.congr hl rfl rfl
          exact ⟨h'.mono hlater, Or.inl ⟨rfl, rfl⟩⟩
      | planned document _ _ adjusted _ _ _ happly =>
          have h' : (w.withService
              (w.service.planned (currentDemand cfg document env.demandClock) adjusted)).Accounted now :=
            h.congr rfl rfl rfl
          exact ⟨happly.accounted h' hlost hcommit hpatch (by omega) hlast, happly.spaced rfl h' hlost hpatch⟩
  | cooldownStatus query clock =>
      have hle : now ≤ clock := horder
      rcases World.step_cooldownStatus cfg w query clock with he | he
      · rw [he]; exact ⟨h.mono hle, Or.inl ⟨rfl, rfl⟩⟩
      · rw [he]; exact ⟨h.loaded.mono hle, Or.inl ⟨rfl, rfl⟩⟩
  | preview env =>
      have hle : now ≤ env.demandClock := horder
      rw [World.step_preview]
      exact ⟨h.mono hle, Or.inl ⟨rfl, rfl⟩⟩
  | restart => exact ⟨h.restart, Or.inl ⟨rfl, rfl⟩⟩

theorem World.Accounted.run (cfg : PredictSettings) (h : w.Accounted now) {es : List ScalerStep}
    (horder : EventRun.Along ScalerStep.ends ScalerStep.InOrder now es) (hrel : ∀ e ∈ es, e.Reliable) :
    (EventRun.run (World.step cfg) w es).Accounted (EventRun.run ScalerStep.ends now es) := by
  induction es generalizing w now with
  | nil => exact h
  | cons e es ih =>
      exact ih (h.step horder.1 (hrel e (by simp))).1 horder.2 (fun f hf => hrel f (by simp [hf]))

end Hailcast
