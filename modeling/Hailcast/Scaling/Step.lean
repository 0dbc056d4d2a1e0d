import Hailcast.Scaling.Service

/-!
# What one step of the scaler can do

`TickResult` lists the outcomes of one `run_scaling` call, with everything each of them changes; the invariants
of the service are proved by cases on it.
-/

namespace Hailcast

open Retry (bind_ok bind_error)

variable {cfg : PredictSettings} {env : TickEnv} {w w' : World}

/-! ## Running the monad -/

section
variable {α : Type}

theorem throw_run (e : PyError) (w : World) : (throw e : ScalerM α) w = .error e w := rfl

theorem get_run (w : World) : (get : ScalerM World) w = .ok w w := rfl

theorem modify_run (f : World → World) (w : World) : (modify f : ScalerM Unit) w = .ok () (f w) := rfl

theorem liftExcept_ok {r : Except PyError α} {a : α} (h : r = .ok a) : liftExcept r w = .ok a w := by
  rw [h]; rfl

theorem liftExcept_error {r : Except PyError α} {e : PyError} (h : r = .error e) :
    liftExcept r w = .error e w := by
  rw [h]; rfl

theorem modifyService_run (f : ScalerService → ScalerService) (w : World) :
    modifyService f w = .ok () (w.withService (f w.service)) := rfl

end

namespace World

@[simp] theorem withService_service (w : World) (s : ScalerService) : (w.withService s).service = s := rfl

@[simp] theorem withService_minReplicaCount (w : World) (s : ScalerService) :
    (w.withService s).minReplicaCount = w.minReplicaCount := rfl

@[simp] theorem withService_scalingHistory (w : World) (s : ScalerService) :
    (w.withService s).scalingHistory = w.scalingHistory := rfl

@[simp] theorem withService_patched (w : World) (s : ScalerService) :
    (w.withService s).patched = w.patched := rfl

@[simp] theorem withService_changes (w : World) (s : ScalerService) :
    (w.withService s).changes = w.changes := rfl

@[simp] theorem withService_withService (w : World) (s t : ScalerService) :
    (w.withService s).withService t = w.withService t := rfl

@[simp] theorem withService_self (w : World) : w.withService w.service = w := rfl

@[simp] theorem saveEvent_service (w : World) (e : ScalingEvent) : (w.saveEvent e).service = w.service := rfl

@[simp] theorem saveEvent_minReplicaCount (w : World) (e : ScalingEvent) :
    (w.saveEvent e).minReplicaCount = w.minReplicaCount := rfl

@[simp] theorem saveEvent_patched (w : World) (e : ScalingEvent) : (w.saveEvent e).patched = w.patched := rfl

@[simp] theorem saveEvent_changes (w : World) (e : ScalingEvent) : (w.saveEvent e).changes = w.changes := rfl

@[simp] theorem saveEvent_scalingHistory (w : World) (e : ScalingEvent) :
    (w.saveEvent e).scalingHistory = w.scalingHistory ++ [e] := rfl

end World

/-! ## Planning -/

def TickEnv.Reads (cfg : PredictSettings) (env : TickEnv) : Prop :=
  ∃ k, 1 ≤ k ∧ k ≤ cfg.scalingRetryCount ∧ env.kedaRead k = none

theorem retryFrom_getMinReplicas (env : TickEnv) (left attempt : Nat) (last : PyError) (w : World) :
    (∃ e, Retry.retryFrom (getMinReplicas env) left attempt last w = .error e w ∧
      ∀ k, attempt ≤ k → k < attempt + left → env.kedaRead k ≠ none) ∨
    (Retry.retryFrom (getMinReplicas env) left attempt last w = .ok w.minReplicaCount w ∧
      ∃ k, attempt ≤ k ∧ k < attempt + left ∧ env.kedaRead k = none) := by
  induction left generalizing attempt last with
  | zero => exact Or.inl ⟨last, rfl, by omega⟩
  | succ left ih =>
      simp only [Retry.retryFrom, Retry.tryCatch_run, getMinReplicas]
      cases hk : env.kedaRead attempt with
      | none => exact Or.inr ⟨rfl, attempt, le_refl _, by omega, hk⟩
      | some exc =>
          simp only [throw_run]
          rcases ih (attempt + 1) exc with ⟨e, he, hn⟩ | ⟨he, k, hk₁, hk₂, hk₃⟩
          · refine Or.inl ⟨e, he, fun k h₁ h₂ => ?_⟩
            rcases Nat.eq_or_lt_of_le h₁ with rfl | h
            · simp [hk]
            · exact hn k h (by omega)
          · exact Or.inr ⟨he, k, by omega, by omega, hk₃⟩

theorem withRetry_getMinReplicas (cfg : PredictSettings) (env : TickEnv) (w : World) :
    (¬ env.Reads cfg ∧ ∃ e, withRetry cfg.scalingRetryCount (getMinReplicas env) w = .error e w) ∨
    (env.Reads cfg ∧
      withRetry cfg.scalingRetryCount (getMinReplicas env) w = .ok w.minReplicaCount w) := by
  rcases retryFrom_getMinReplicas env cfg.scalingRetryCount 1 .typeError w with
    ⟨e, he, hn⟩ | ⟨he, k, h₁, h₂, h₃⟩
  · exact Or.inl ⟨fun ⟨k, h₁, h₂, h₃⟩ => hn k h₁ (by omega) h₃, e, he⟩
  · exact Or.inr ⟨⟨k, h₁, by omega, h₃⟩, he⟩

/-- The demand that the tick takes from a document that is not too old. -/
def TickEnv.freshDemand (cfg : PredictSettings) (env : TickEnv) : Option ℚ :=
  match env.document with
  | .ok (some document) =>
      if cfg.predictionMaxAgeSeconds < totalSeconds (env.ageClock - document.generatedAt) then none
      else some (currentDemand cfg document env.demandClock)
  | _ => none

/-- The tick gets to the reactive layer, with this document, forecast decision and traffic. -/
structure TickEnv.Reaches (cfg : PredictSettings) (env : TickEnv) (document : PredictionDocument)
    (baseline : ScalingDecision) (traffic : Json) : Prop where
  document_eq : env.document = .ok (some document)
  fresh : ¬ cfg.predictionMaxAgeSeconds < totalSeconds (env.ageClock - document.generatedAt)
  decided : (ScalingSignals.ofDemand (currentDemand cfg document env.demandClock) >>= cfg.engine.decide) =
    .ok baseline
  reads : env.Reads cfg
  traffic_eq : readActualTraffic env.trafficBody = .ok traffic

def World.adjustment (w : World) (cfg : PredictSettings) (baseline : ScalingDecision) (traffic : Json) :
    Except PyError Adjustment :=
  applyReactiveAdjustment cfg traffic w.service.reactiveHoldReplicas (some (.rule baseline.matchedRule))
    baseline.desiredReplicas w.minReplicaCount

/-- The service object after a tick has left the reactive layer. -/
def ScalerService.planned (s : ScalerService) (demand : ℚ) (adjusted : Adjustment) : ScalerService :=
  ((s.noteDemand demand).noteHold adjusted.hold).noteDecision adjusted.note

theorem TickEnv.Reaches.unique {document document' : PredictionDocument} {baseline baseline' : ScalingDecision}
    {traffic traffic' : Json} (h : env.Reaches cfg document baseline traffic)
    (h' : env.Reaches cfg document' baseline' traffic') :
    document = document' ∧ baseline = baseline' ∧ traffic = traffic' := by
  obtain rfl : document = document' := by simpa [h.document_eq] using h'.document_eq
  exact ⟨rfl, Except.ok.inj (h.decided.symm.trans h'.decided), Except.ok.inj (h.traffic_eq.symm.trans h'.traffic_eq)⟩

theorem TickEnv.Reaches.decides {document : PredictionDocument} {baseline : ScalingDecision} {traffic : Json}
    (h : env.Reaches cfg document baseline traffic) : ∃ signals, cfg.engine.decide signals = .ok baseline := by
  have hdecided := h.decided
  cases hs : ScalingSignals.ofDemand (currentDemand cfg document env.demandClock) with
  | error exc =>
      rw [hs] at hdecided
      cases hdecided
  | ok signals =>
      rw [hs] at hdecided
      exact ⟨signals, hdecided⟩

/-- What the tick has found out when it leaves the reactive layer. -/
def World.plan (w : World) (cfg : PredictSettings) (env : TickEnv) (document : PredictionDocument)
    (adjusted : Adjustment) : Plan :=
  ⟨document, currentDemand cfg document env.demandClock, w.minReplicaCount, adjusted.desired, adjusted.note⟩

inductive PlanResult (cfg : PredictSettings) (env : TickEnv) (w : World) :
    EStateM.Result PyError World (Option Plan) → Prop where
  | skipped (hd : env.freshDemand cfg = none) : PlanResult cfg env w (.ok none w)
  /-- The run raises: only the demand and the decision may have been noted. -/
  | failed (exc : PyError) (s : ScalerService)
      (hdemand : s.lastPredictedDemand = (env.freshDemand cfg).or w.service.lastPredictedDemand)
      (hlast : s.lastScalingAt = w.service.lastScalingAt)
      (hhold : s.reactiveHoldReplicas = w.service.reactiveHoldReplicas)
      (hreach : ∀ document baseline traffic adjusted, env.Reaches cfg document baseline traffic →
        w.adjustment cfg baseline traffic ≠ .ok adjusted) :
      PlanResult cfg env w (.error exc (w.withService s))
  | planned (document : PredictionDocument) (baseline : ScalingDecision) (traffic : Json) (adjusted : Adjustment)
      (hreach : env.Reaches cfg document baseline traffic)
      (hadjust : w.adjustment cfg baseline traffic = .ok adjusted) :
      PlanResult cfg env w
        (.ok (some (w.plan cfg env document adjusted))
          (w.withService (w.service.planned (currentDemand cfg document env.demandClock) adjusted)))

theorem TickEnv.Reaches.freshDemand_eq {document : PredictionDocument} {baseline : ScalingDecision}
    {traffic : Json} (h : env.Reaches cfg document baseline traffic) :
    env.freshDemand cfg = some (currentDemand cfg document env.demandClock) := by
  simp [TickEnv.freshDemand, h.document_eq, h.fresh]

theorem PlanResult.failed_fresh {demand : ℚ} (exc : PyError) (s : ScalerService)
    (hd : env.freshDemand cfg = some demand)
    (hs : s = w.service.noteDemand demand ∨ ∃ note, s = (w.service.noteDemand demand).noteDecision note)
    (hreach : ∀ document baseline traffic adjusted, env.Reaches cfg document baseline traffic →
      w.adjustment cfg baseline traffic ≠ .ok adjusted) :
    PlanResult cfg env w (.error exc (w.withService s)) := by
  rcases hs with rfl | ⟨note, rfl⟩
  · exact .failed exc _ (by simp [hd, ScalerService.noteDemand]) rfl rfl hreach
  · exact .failed exc _ (by simp [hd, ScalerService.noteDemand, ScalerService.noteDecision]) rfl rfl hreach

theorem adjustPlan_result (cfg : PredictSettings) (env : TickEnv) (document : PredictionDocument) (demand : ℚ)
    (baseline : ScalingDecision) (w : World) :
    (∃ exc, adjustPlan cfg env document demand baseline w = .error exc w ∧
      ∀ traffic adjusted, env.Reads cfg → readActualTraffic env.trafficBody = .ok traffic →
        applyReactiveAdjustment cfg traffic w.service.reactiveHoldReplicas w.service.lastDecision
          baseline.desiredReplicas w.minReplicaCount ≠ .ok adjusted) ∨
    (∃ traffic adjusted, env.Reads cfg ∧ readActualTraffic env.trafficBody = .ok traffic ∧
      applyReactiveAdjustment cfg traffic w.service.reactiveHoldReplicas w.service.lastDecision
          baseline.desiredReplicas w.minReplicaCount = .ok adjusted ∧
      adjustPlan cfg env document demand baseline w =
        .ok ⟨document, demand, w.minReplicaCount, adjusted.desired, adjusted.note⟩
          (w.withService ((w.service.noteHold adjusted.hold).noteDecision adjusted.note))) := by
  unfold adjustPlan
  rcases withRetry_getMinReplicas cfg env w with ⟨hn, exc, he⟩ | ⟨hreads, he⟩
  · exact Or.inl ⟨exc, bind_error he, fun _ _ hr _ => absurd hr hn⟩
  · rw [bind_ok he]
    cases ht : readActualTraffic env.trafficBody with
    | error exc => exact Or.inl ⟨exc, bind_error (liftExcept_error rfl), fun _ _ _ h => by cases h⟩
    | ok traffic =>
        rw [bind_ok (liftExcept_ok rfl), bind_ok (get_run w)]
        cases ha : applyReactiveAdjustment cfg traffic w.service.reactiveHoldReplicas w.service.lastDecision
            baseline.desiredReplicas w.minReplicaCount with
        | error exc =>
            refine Or.inl ⟨exc, bind_error (liftExcept_error rfl), ?_⟩
            rintro _ adjusted _ ⟨⟩
            simp [ha]
        | ok adjusted =>
            refine Or.inr ⟨traffic, adjusted, hreads, rfl, ha, ?_⟩
            rw [bind_ok (liftExcept_ok rfl), bind_ok (modifyService_run _ w)]
            rfl

/-- The run with a document that is not too old. -/
theorem planScaling_fresh {document : PredictionDocument} (hd : env.document = .ok (some document))
    (hfresh : ¬ cfg.predictionMaxAgeSeconds < totalSeconds (env.ageClock - document.generatedAt)) (w : World) :
    PlanResult cfg env w (planScaling cfg env w) := by
  unfold planScaling
  rw [bind_ok (liftExcept_ok hd)]
  simp only [if_neg hfresh]
  set demand := currentDemand cfg document env.demandClock with hdemand
  have hnoted : env.freshDemand cfg = some demand := by simp [TickEnv.freshDemand, hd, hfresh, hdemand]
  -- whatever document and decision a tick reaches the reactive layer with, they are these
  have hsame : ∀ {document' baseline traffic}, env.Reaches cfg document' baseline traffic →
      (ScalingSignals.ofDemand demand >>= cfg.engine.decide) = .ok baseline := by
    intro document' baseline traffic hr
    have hdoc : document' = document := by simpa [hd, eq_comm] using hr.document_eq
    simpa [hdoc] using hr.decided
  rw [bind_ok (modifyService_run _ _)]
  cases hs : ScalingSignals.ofDemand demand with
  | error exc =>
      rw [bind_error (liftExcept_error rfl)]
      refine .failed_fresh exc _ hnoted (Or.inl rfl) (fun document' baseline traffic _ hr => ?_)
      have hdec := hsame hr
      rw [hs] at hdec
      cases hdec
  | ok signals =>
      rw [bind_ok (liftExcept_ok rfl)]
      have hdecide : ∀ {document' baseline traffic}, env.Reaches cfg document' baseline traffic →
          cfg.engine.decide signals = .ok baseline := by
        intro document' baseline traffic hr
        have hdec := hsame hr
        rwa [hs] at hdec
      cases hb : cfg.engine.decide signals with
      | error exc =>
          rw [bind_error (liftExcept_error rfl)]
          refine .failed_fresh exc _ hnoted (Or.inl rfl) (fun document' baseline traffic _ hr => ?_)
          simp [hdecide hr] at hb
      | ok baseline =>
          rw [bind_ok (liftExcept_ok rfl), bind_ok (modifyService_run _ _), World.withService_service]
          rcases adjustPlan_result cfg env document demand baseline
            ((w.withService (w.service.noteDemand demand)).withService
              ((w.service.noteDemand demand).noteDecision (some (.rule baseline.matchedRule)))) with
            ⟨exc, he, hn⟩ | ⟨traffic, adjusted, hreads, ht, ha, he⟩
          · rw [bind_error he]
            refine .failed_fresh exc _ hnoted (Or.inr ⟨_, rfl⟩) ?_
            intro document' baseline' traffic adjusted hr hadj
            have hbase : baseline' = baseline := by simpa [hb, eq_comm] using hdecide hr
            exact hn traffic adjusted hr.reads hr.traffic_eq (hbase ▸ hadj)
          · rw [bind_ok he]
            exact .planned document baseline traffic adjusted ⟨hd, hfresh, by rw [hs]; exact hb, hreads, ht⟩ ha

theorem planScaling_result (cfg : PredictSettings) (env : TickEnv) (w : World) :
    PlanResult cfg env w (planScaling cfg env w) := by
  cases hd : env.document with
  | error exc =>
      unfold planScaling
      rw [bind_error (liftExcept_error hd)]
      refine .failed exc w.service (by simp [TickEnv.freshDemand, hd]) rfl rfl ?_
      intro document baseline traffic _ hr
      simp [hr.document_eq] at hd
  | ok document? =>
      cases document? with
      | none =>
          unfold planScaling
          rw [bind_ok (liftExcept_ok hd)]
          exact .skipped (by simp [TickEnv.freshDemand, hd])
      | some document =>
          by_cases hold : cfg.predictionMaxAgeSeconds < totalSeconds (env.ageClock - document.generatedAt)
          · unfold planScaling
            rw [bind_ok (liftExcept_ok hd)]
            simp only [if_pos hold]
            exact .skipped (by simp [TickEnv.freshDemand, hd, hold])
          · exact planScaling_fresh hd hold w

/-! ## Reactive adjustment -/

inductive AdjustResult (cfg : PredictSettings) (traffic : Json) (hold : Option Int) (note : Option DecisionNote)
    (baseline current : Int) : Adjustment → Prop where
  | noTraffic (ht : traffic = .null) : AdjustResult cfg traffic hold note baseline current ⟨baseline, note, none⟩
  | held (held : Int) (u : ExtRat) (ht : traffic ≠ .null) (hu : utilization cfg traffic current = .ok u)
      (hhold : hold = some held) (hlow : ¬ u.AtMost cfg.scalingWatermarkLow) :
      AdjustResult cfg traffic hold note baseline current ⟨max held baseline, some (.reactiveHold u), some held⟩
  | raised (u : ExtRat) (ht : traffic ≠ .null) (hu : utilization cfg traffic current = .ok u)
      (hfree : hold = none ∨ u.AtMost cfg.scalingWatermarkLow) (hhigh : u.AtLeast cfg.scalingWatermarkHigh) :
      AdjustResult cfg traffic hold note baseline current
        ⟨current + cfg.scalingReactiveStep, some (.reactiveUp u), some (current + cfg.scalingReactiveStep)⟩
  | lowered (u : ExtRat) (ht : traffic ≠ .null) (hu : utilization cfg traffic current = .ok u)
      (hhigh : ¬ u.AtLeast cfg.scalingWatermarkHigh) (hlow : u.AtMost cfg.scalingWatermarkLow) (hlt : baseline < current) :
      AdjustResult cfg traffic hold note baseline current
        ⟨max baseline (current - cfg.scalingReactiveStep), some (.reactiveDown u), none⟩
  | released (u : ExtRat) (ht : traffic ≠ .null) (hu : utilization cfg traffic current = .ok u)
      (hfree : hold = none ∨ u.AtMost cfg.scalingWatermarkLow) (hhigh : ¬ u.AtLeast cfg.scalingWatermarkHigh)
      (hlow : ¬ u.AtMost cfg.scalingWatermarkLow ∨ current ≤ baseline) :
      AdjustResult cfg traffic hold note baseline current ⟨baseline, note, none⟩

theorem adjustReleased_result {traffic : Json} {hold : Option Int} (note : Option DecisionNote)
    (baseline : Int) {current : Int} {u : ExtRat} (ht : traffic ≠ .null) (hu : utilization cfg traffic current = .ok u)
    (hfree : hold = none ∨ u.AtMost cfg.scalingWatermarkLow) :
    AdjustResult cfg traffic hold note baseline current (adjustReleased cfg note baseline current u) := by
  unfold adjustReleased
  split
  · rename_i hhigh
    exact .raised u ht hu hfree hhigh
  · rename_i hhigh
    split
    · rename_i hlow
      exact .lowered u ht hu hhigh hlow.1 hlow.2
    · rename_i hlow
      refine .released u ht hu hfree hhigh ?_
      by_cases h : u.AtMost cfg.scalingWatermarkLow
      · exact Or.inr (not_lt.mp fun hlt => hlow ⟨h, hlt⟩)
      · exact Or.inl h

theorem applyReactiveAdjustment_result {traffic : Json} {hold : Option Int} {note : Option DecisionNote}
    {baseline current : Int} {adjusted : Adjustment}
    (h : applyReactiveAdjustment cfg traffic hold note baseline current = .ok adjusted) :
    AdjustResult cfg traffic hold note baseline current adjusted := by
  unfold applyReactiveAdjustment at h
  split at h
  · cases h
    exact .noTraffic rfl
  · rename_i ht
    cases hu : utilization cfg traffic current with
    | error exc => rw [hu] at h; cases h
    | ok u =>
        rw [hu] at h
        cases hold with
        | none =>
            cases h
            exact adjustReleased_result note baseline ht hu (Or.inl rfl)
        | some held =>
            by_cases hlow : u.AtMost cfg.scalingWatermarkLow
            · simp only [bind, Except.bind, hlow, ↓reduceIte, pure, Except.pure, Except.ok.injEq] at h
              subst h
              exact adjustReleased_result note baseline ht hu (Or.inr hlow)
            · simp only [bind, Except.bind, hlow, ↓reduceIte, pure, Except.pure, Except.ok.injEq] at h
              subst h
              exact .held held u ht hu rfl hlow

/-! ## Cooldown -/

/-- The last change that the service can know of. -/
def World.lastKnown (w : World) : Option Int := w.service.lastScalingAt.or (lastEventTime w.scalingHistory)

/-- After `cooldown_remaining` has filled the cached time. -/
def World.loaded (w : World) : World :=
  w.withService { w.service with lastScalingAt := w.lastKnown }

/-- The remaining cooldown, given the last change. -/
def PredictSettings.remainingAt (cfg : PredictSettings) (last : Option Int) (clock : Int) : ℚ :=
  match last with
  | none => 0
  | some last => max 0 (cfg.scalingCooldownSeconds - totalSeconds (clock - last))

theorem cooldownRemaining_run (cfg : PredictSettings) (query : Option PyError) (clock : Int) (w : World) :
    ((w.service.lastScalingAt = none ∧ query ≠ none) ∧ ∃ exc, cooldownRemaining cfg query clock w = .error exc w) ∨
    ((w.service.lastScalingAt = none → query = none) ∧
      cooldownRemaining cfg query clock w = .ok (cfg.remainingAt w.lastKnown clock) w.loaded) := by
  obtain ⟨⟨demand, decision, last, hold⟩, live, history, patched, changes⟩ := w
  unfold cooldownRemaining
  rw [bind_ok (get_run _)]
  cases last with
  | some last => exact Or.inr ⟨by simp, rfl⟩
  | none =>
    cases query with
    | some exc => exact Or.inl ⟨⟨rfl, by simp⟩, exc, rfl⟩
    | none =>
        refine Or.inr ⟨fun _ => rfl, ?_⟩
        cases hl : lastEventTime history with
        | none => simp [World.lastKnown, World.loaded, hl]; rfl
        | some last => simp [World.lastKnown, World.loaded, hl]; rfl

/-! ## Patching -/

def TickEnv.PatchesSucceed (env : TickEnv) : Prop := ∀ k, ∃ time, env.patch k = .applied time

theorem TickEnv.not_patchesSucceed (attempt : Nat) (h : ∀ time, env.patch attempt ≠ .applied time) :
    ¬ env.PatchesSucceed := by
  intro hs
  obtain ⟨time, ht⟩ := hs attempt
  exact h time ht

/-- Calls of `patch_min_replicas` that all raised. -/
inductive World.Attempted (env : TickEnv) (replicas : Int) (w : World) : World → Prop where
  | refl : Attempted env replicas w w
  | refused {w' : World} {attempt : Nat} {exc : PyError} (hk : env.patch attempt = .refused exc)
      (h : Attempted env replicas w w') : Attempted env replicas w (w'.callPatch replicas)
  | lost {w' : World} {attempt : Nat} {time : Int} {exc : PyError} (hk : env.patch attempt = .lost time exc)
      (h : Attempted env replicas w w') :
      Attempted env replicas w ((w'.callPatch replicas).applyPatch time replicas)

/-- A call of `patch_min_replicas` that returned, after others that raised. -/
structure World.Patched (env : TickEnv) (replicas : Int) (w w' : World) (attempt : Nat) (time : Int) : Prop where
  attempted : World.Attempted env replicas w w'
  applied : env.patch attempt = .applied time

def World.changed (w : World) (time replicas clock : Int) : World :=
  ((w.callPatch replicas).applyPatch time replicas).withService (w.service.noteScaling clock)

def World.record (w : World) (plan : Plan) : HistoryReply → World
  | .commits createdAt => w.saveEvent (plan.event plan.desired createdAt)
  | .fails _ => w

namespace World

variable (w : World) (plan : Plan) (reply : HistoryReply)

@[simp] theorem record_service : (w.record plan reply).service = w.service := by cases reply <;> rfl

@[simp] theorem record_minReplicaCount : (w.record plan reply).minReplicaCount = w.minReplicaCount := by
  cases reply <;> rfl

@[simp] theorem record_patched : (w.record plan reply).patched = w.patched := by cases reply <;> rfl

@[simp] theorem record_changes : (w.record plan reply).changes = w.changes := by cases reply <;> rfl

variable (time replicas clock : Int)

@[simp] theorem changed_service :
    (w.changed time replicas clock).service = w.service.noteScaling clock := rfl

@[simp] theorem changed_minReplicaCount : (w.changed time replicas clock).minReplicaCount = replicas := rfl

@[simp] theorem changed_patched : (w.changed time replicas clock).patched = replicas :: w.patched := rfl

@[simp] theorem changed_changes :
    (w.changed time replicas clock).changes = ⟨time, w.minReplicaCount, replicas⟩ :: w.changes := rfl

@[simp] theorem changed_scalingHistory :
    (w.changed time replicas clock).scalingHistory = w.scalingHistory := rfl

end World

theorem patchMinReplicas_ends (env : TickEnv) (replicas : Int) (w : World) (attempt : Nat) (s : World)
    (hs : World.Attempted env replicas w s) :
    Retry.Ends
      (fun applied s' => applied = replicas ∧ ∃ w' k time, World.Patched env replicas w w' k time ∧
        s' = (w'.callPatch replicas).applyPatch time replicas)
      (fun s' => World.Attempted env replicas w s' ∧ replicas ∈ s'.patched ∧ ¬ env.PatchesSucceed)
      (patchMinReplicas env replicas attempt s) := by
  unfold patchMinReplicas
  rw [bind_ok (modify_run _ _)]
  cases hk : env.patch attempt with
  | applied time => exact ⟨rfl, s, attempt, time, ⟨hs, hk⟩, rfl⟩
  | refused exc => exact ⟨.refused hk hs, List.mem_cons_self, TickEnv.not_patchesSucceed attempt (by simp [hk])⟩
  | lost time exc => exact ⟨.lost hk hs, List.mem_cons_self, TickEnv.not_patchesSucceed attempt (by simp [hk])⟩

theorem withRetry_patchMinReplicas (cfg : PredictSettings) (env : TickEnv) (replicas : Int) (w : World) :
    (∃ exc w', World.Attempted env replicas w w' ∧
      (0 < cfg.scalingRetryCount → replicas ∈ w'.patched ∧ ¬ env.PatchesSucceed) ∧
      withRetry cfg.scalingRetryCount (patchMinReplicas env replicas) w = .error exc w') ∨
    (∃ w' k time, World.Patched env replicas w w' k time ∧
      withRetry cfg.scalingRetryCount (patchMinReplicas env replicas) w =
        .ok replicas ((w'.callPatch replicas).applyPatch time replicas)) := by
  rcases Nat.eq_zero_or_pos cfg.scalingRetryCount with hc | hc
  · exact Or.inl ⟨.typeError, w, .refl, by omega, by rw [hc]; rfl⟩
  · have h := Retry.retry_ends_of_pos PyError.typeError hc (fun _ hs => hs.1)
      (patchMinReplicas_ends env replicas w) .refl
    change Retry.Ends _ _ (withRetry cfg.scalingRetryCount (patchMinReplicas env replicas) w) at h
    cases hr : withRetry cfg.scalingRetryCount (patchMinReplicas env replicas) w with
    | error exc w' =>
        rw [hr] at h
        exact Or.inl ⟨exc, w', h.1, fun _ => h.2, rfl⟩
    | ok applied s =>
        rw [hr] at h
        obtain ⟨rfl, w', k, time, hp, rfl⟩ := h
        exact Or.inr ⟨w', k, time, hp, rfl⟩

/-! ## The outcomes of a call -/

/-- The change is due: it is a raise, or the cooldown of the last known change is over. `w'` is the world at the
first patch. -/
def World.Ready (cfg : PredictSettings) (env : TickEnv) (plan : Plan) (w w' : World) : Prop :=
  (plan.current < plan.desired ∧ w' = w) ∨
  (plan.desired < plan.current ∧ cfg.remainingAt w.lastKnown env.cooldownClock ≤ 0 ∧ w' = w.loaded)

/-- How `run_scaling` ends after the reactive layer. -/
inductive ApplyResult (cfg : PredictSettings) (env : TickEnv) (plan : Plan) (w : World) : World → Prop where
  | unchanged (h : plan.desired = plan.current) : ApplyResult cfg env plan w w
  | queryFailed (hlt : plan.desired < plan.current) (hquery : env.lastEvent ≠ none) : ApplyResult cfg env plan w w
  | deferred (hlt : plan.desired < plan.current)
      (hcool : 0 < cfg.remainingAt w.lastKnown env.cooldownClock) : ApplyResult cfg env plan w w.loaded
  | gaveUp (w₁ w₂ : World) (hready : World.Ready cfg env plan w w₁)
      (hattempt : World.Attempted env plan.desired w₁ w₂)
      (hcalled : 0 < cfg.scalingRetryCount → plan.desired ∈ w₂.patched ∧ ¬ env.PatchesSucceed) :
      ApplyResult cfg env plan w w₂
  | changed (w₁ w₂ : World) (attempt : Nat) (time : Int) (hready : World.Ready cfg env plan w w₁)
      (hpatch : World.Patched env plan.desired w₁ w₂ attempt time) :
      ApplyResult cfg env plan w ((w₂.changed time plan.desired env.appliedClock).record plan env.history)

theorem changeReplicas_result {plan : Plan} {w₁ : World} (hready : World.Ready cfg env plan w w₁) :
    ApplyResult cfg env plan w (finalWorld (changeReplicas cfg env plan w₁)) := by
  unfold changeReplicas
  rcases withRetry_patchMinReplicas cfg env plan.desired w₁ with ⟨exc, w₂, ha, hcalled, he⟩ | ⟨w₂, k, time, hp, he⟩
  · have hraise : tryCatch (withRetry cfg.scalingRetryCount (patchMinReplicas env plan.desired))
        (fun exc => throw (.scalingError "keda patch failed after retries: " exc)) w₁ =
          .error (.scalingError "keda patch failed after retries: " exc) w₂ := by
      rw [Retry.tryCatch_run, he]; rfl
    rw [bind_error hraise]
    exact .gaveUp w₁ w₂ hready ha hcalled
  · rw [bind_ok (by rw [Retry.tryCatch_run, he]), bind_ok (modifyService_run _ _)]
    unfold saveHistoryEvent
    have hc := ApplyResult.changed w₁ w₂ k time hready hp
    cases hh : env.history with
    | fails exc => rw [hh] at hc; exact hc
    | commits createdAt => rw [hh] at hc; exact hc

theorem applyPlan_result (cfg : PredictSettings) (env : TickEnv) (plan : Plan) (w : World) :
    ApplyResult cfg env plan w (finalWorld (applyPlan cfg env plan w)) := by
  unfold applyPlan
  split
  · rename_i heq
    exact .unchanged heq
  · split
    · rename_i hlt
      rcases cooldownRemaining_run cfg env.lastEvent env.cooldownClock w with ⟨⟨_, hquery⟩, exc, he⟩ | ⟨_, he⟩
      · rw [bind_error he]
        exact .queryFailed hlt hquery
      · rw [bind_ok he]
        split
        · rename_i hcool
          exact .deferred hlt hcool
        · rename_i hcool
          exact changeReplicas_result (Or.inr ⟨hlt, not_lt.mp hcool, rfl⟩)
    · rename_i hne hlt
      exact changeReplicas_result (Or.inl ⟨by omega, rfl⟩)

/-- The outcomes of one call of `run_scaling`. -/
inductive TickResult (cfg : PredictSettings) (env : TickEnv) (w : World) : World → Prop where
  | skipped (hd : env.freshDemand cfg = none) : TickResult cfg env w w
  | failed (s : ScalerService)
      (hdemand : s.lastPredictedDemand = (env.freshDemand cfg).or w.service.lastPredictedDemand)
      (hlast : s.lastScalingAt = w.service.lastScalingAt)
      (hhold : s.reactiveHoldReplicas = w.service.reactiveHoldReplicas)
      (hreach : ∀ document baseline traffic adjusted, env.Reaches cfg document baseline traffic →
        w.adjustment cfg baseline traffic ≠ .ok adjusted) : TickResult cfg env w (w.withService s)
  | planned (document : PredictionDocument) (baseline : ScalingDecision) (traffic : Json) (adjusted : Adjustment)
      (w' : World) (hreach : env.Reaches cfg document baseline traffic)
      (hadjust : w.adjustment cfg baseline traffic = .ok adjusted)
      (happly : ApplyResult cfg env (w.plan cfg env document adjusted)
        (w.withService (w.service.planned (currentDemand cfg document env.demandClock) adjusted)) w') :
      TickResult cfg env w w'

theorem runScaling_result (cfg : PredictSettings) (env : TickEnv) (w : World) :
    TickResult cfg env w (finalWorld (runScaling cfg env w)) := by
  have h := planScaling_result cfg env w
  unfold runScaling
  generalize hr : planScaling cfg env w = r at h
  cases h with
  | skipped hd =>
      rw [bind_ok hr]
      exact .skipped hd
  | failed exc s hdemand hlast hhold hreach =>
      rw [bind_error hr]
      exact .failed s hdemand hlast hhold hreach
  | planned document baseline traffic adjusted hreach hadjust =>
      rw [bind_ok hr]
      exact .planned document baseline traffic adjusted _ hreach hadjust (applyPlan_result cfg env _ _)

/-- The outcome of a tick that is known to leave the reactive layer. -/
theorem TickEnv.Reaches.result {document : PredictionDocument} {baseline : ScalingDecision} {traffic : Json}
    {adjusted : Adjustment} (hr : env.Reaches cfg document baseline traffic)
    (hadj : w.adjustment cfg baseline traffic = .ok adjusted) :
    ApplyResult cfg env (w.plan cfg env document adjusted)
      (w.withService (w.service.planned (currentDemand cfg document env.demandClock) adjusted))
      (w.step cfg (.tick env)) := by
  change ApplyResult _ _ _ _ (finalWorld (runScaling cfg env w))
  generalize finalWorld (runScaling cfg env w) = w', runScaling_result cfg env w = hres
  cases hres with
  | skipped hd => simp [hr.freshDemand_eq] at hd
  | failed s _ _ _ hno => exact absurd hadj (hno document baseline traffic adjusted hr)
  | planned document' baseline' traffic' adjusted' w' hr' hadj' happly =>
      obtain ⟨rfl, rfl, rfl⟩ := hr.unique hr'
      obtain rfl : adjusted = adjusted' := Except.ok.inj (hadj.symm.trans hadj')
      exact happly

/-! ## What the outcomes keep -/

namespace World.Attempted

variable {replicas : Int}

theorem service_eq (h : World.Attempted env replicas w w') : w'.service = w.service := by
  induction h with
  | refl => rfl
  | refused _ _ ih => exact ih
  | lost _ _ ih => exact ih

theorem history_eq (h : World.Attempted env replicas w w') : w'.scalingHistory = w.scalingHistory := by
  induction h with
  | refl => rfl
  | refused _ _ ih => exact ih
  | lost _ _ ih => exact ih

theorem live (h : World.Attempted env replicas w w') :
    w'.minReplicaCount = w.minReplicaCount ∨ w'.minReplicaCount = replicas := by
  induction h with
  | refl => exact Or.inl rfl
  | refused _ _ ih => exact ih
  | lost _ _ _ => exact Or.inr rfl

theorem patched_subset (h : World.Attempted env replicas w w') : ∀ r ∈ w.patched, r ∈ w'.patched := by
  induction h with
  | refl => exact fun _ hr => hr
  | refused _ _ ih => exact fun r hr => List.mem_cons_of_mem _ (ih r hr)
  | lost _ _ ih => exact fun r hr => List.mem_cons_of_mem _ (ih r hr)

theorem mem_patched (h : World.Attempted env replicas w w') : ∀ r ∈ w'.patched, r ∈ w.patched ∨ r = replicas := by
  induction h with
  | refl => exact fun _ hr => Or.inl hr
  | refused _ _ ih =>
      intro r hr
      rcases List.mem_cons.mp hr with rfl | hr
      · exact Or.inr rfl
      · exact ih r hr
  | lost _ _ ih =>
      intro r hr
      rcases List.mem_cons.mp hr with rfl | hr
      · exact Or.inr rfl
      · exact ih r hr

theorem of_not_lost (h : World.Attempted env replicas w w') (hlost : ∀ k t e, env.patch k ≠ .lost t e) :
    w'.minReplicaCount = w.minReplicaCount ∧ w'.changes = w.changes := by
  induction h with
  | refl => exact ⟨rfl, rfl⟩
  | refused _ _ ih => exact ih
  | lost hk _ _ => exact absurd hk (hlost _ _ _)

end World.Attempted

/-- The first patch finds the world as it was, up to the cached time of the last change. -/
theorem World.Ready.frame {plan : Plan} (h : World.Ready cfg env plan w w') :
    w'.minReplicaCount = w.minReplicaCount ∧ w'.patched = w.patched ∧ w'.changes = w.changes ∧
      w'.scalingHistory = w.scalingHistory ∧
      w'.service.reactiveHoldReplicas = w.service.reactiveHoldReplicas ∧
      w'.service.lastPredictedDemand = w.service.lastPredictedDemand := by
  rcases h with ⟨_, rfl⟩ | ⟨_, _, rfl⟩ <;> exact ⟨rfl, rfl, rfl, rfl, rfl, rfl⟩

namespace ApplyResult

variable {plan : Plan}

theorem service_eq (h : ApplyResult cfg env plan w w') :
    w'.service.reactiveHoldReplicas = w.service.reactiveHoldReplicas ∧
      w'.service.lastPredictedDemand = w.service.lastPredictedDemand := by
  cases h with
  | unchanged _ => exact ⟨rfl, rfl⟩
  | queryFailed _ => exact ⟨rfl, rfl⟩
  | deferred _ _ => exact ⟨rfl, rfl⟩
  | gaveUp w₁ _ hready hattempt _ =>
      rw [hattempt.service_eq]
      exact hready.frame.2.2.2.2
  | changed w₁ w₂ _ _ hready hpatch =>
      rw [World.record_service, World.changed_service, hpatch.attempted.service_eq]
      exact hready.frame.2.2.2.2

theorem live (h : ApplyResult cfg env plan w w') :
    w'.minReplicaCount = w.minReplicaCount ∨ w'.minReplicaCount = plan.desired := by
  cases h with
  | unchanged _ => exact Or.inl rfl
  | queryFailed _ => exact Or.inl rfl
  | deferred _ _ => exact Or.inl rfl
  | gaveUp w₁ _ hready hattempt _ => rw [← hready.frame.1]; exact hattempt.live
  | changed => exact Or.inr (by simp)

theorem mem_patched (h : ApplyResult cfg env plan w w') :
    ∀ r ∈ w'.patched, r ∈ w.patched ∨ r = plan.desired := by
  cases h with
  | unchanged _ => exact fun _ hr => Or.inl hr
  | queryFailed _ => exact fun _ hr => Or.inl hr
  | deferred _ _ => exact fun _ hr => Or.inl hr
  | gaveUp w₁ _ hready hattempt _ => rw [← hready.frame.2.1]; exact hattempt.mem_patched
  | changed w₁ w₂ _ _ hready hpatch =>
      intro r hr
      rw [World.record_patched, World.changed_patched] at hr
      rcases List.mem_cons.mp hr with rfl | hr
      · exact Or.inr rfl
      · rw [← hready.frame.2.1]; exact hpatch.attempted.mem_patched r hr

theorem patched_subset (h : ApplyResult cfg env plan w w') : ∀ r ∈ w.patched, r ∈ w'.patched := by
  cases h with
  | unchanged _ => exact fun _ hr => hr
  | queryFailed _ => exact fun _ hr => hr
  | deferred _ _ => exact fun _ hr => hr
  | gaveUp w₁ _ hready hattempt _ => rw [← hready.frame.2.1]; exact hattempt.patched_subset
  | changed w₁ w₂ _ _ hready hpatch =>
      rw [← hready.frame.2.1, World.record_patched, World.changed_patched]
      exact fun r hr => List.mem_cons_of_mem _ (hpatch.attempted.patched_subset r hr)

theorem live_of_succeed (h : ApplyResult cfg env plan w w') (hcurrent : plan.current = w.minReplicaCount)
    (hcount : 0 < cfg.scalingRetryCount) (hs : env.PatchesSucceed) :
    w'.minReplicaCount = plan.desired ∨
      (plan.desired < w.minReplicaCount ∧ w'.minReplicaCount = w.minReplicaCount) := by
  cases h with
  | unchanged h => exact Or.inl (by omega)
  | queryFailed h => exact Or.inr ⟨by omega, rfl⟩
  | deferred h _ => exact Or.inr ⟨by omega, rfl⟩
  | gaveUp _ _ _ _ hcalled => exact absurd hs (hcalled hcount).2
  | changed => exact Or.inl (by simp)

/-- When the query answers too, a value is only kept because its lowering waits for the cooldown. -/
theorem live_of_answers (h : ApplyResult cfg env plan w w') (hcurrent : plan.current = w.minReplicaCount)
    (hcount : 0 < cfg.scalingRetryCount) (hs : env.PatchesSucceed) (hquery : env.lastEvent = none) :
    w'.minReplicaCount = plan.desired ∨
      (plan.desired < w.minReplicaCount ∧ 0 < cfg.remainingAt w.lastKnown env.cooldownClock ∧
        w'.minReplicaCount = w.minReplicaCount) := by
  cases h with
  | unchanged h => exact Or.inl (by omega)
  | queryFailed _ hfailed => exact absurd hquery hfailed
  | deferred h hcool => exact Or.inr ⟨by omega, hcool, rfl⟩
  | gaveUp _ _ _ _ hcalled => exact absurd hs (hcalled hcount).2
  | changed => exact Or.inl (by simp)

/-- A lowering that waits for the cooldown keeps the value. -/
theorem live_of_waiting (h : ApplyResult cfg env plan w w') (hcurrent : plan.current = w.minReplicaCount)
    (hlt : plan.desired < w.minReplicaCount) (hcool : 0 < cfg.remainingAt w.lastKnown env.cooldownClock) :
    w'.minReplicaCount = w.minReplicaCount := by
  have hready : ∀ w₁, ¬ World.Ready cfg env plan w w₁ := by
    rintro w₁ (⟨hraise, _⟩ | ⟨_, hover, _⟩)
    · omega
    · exact absurd hcool (not_lt.mpr hover)
  cases h with
  | unchanged h => rfl
  | queryFailed _ _ => rfl
  | deferred _ _ => rfl
  | gaveUp w₁ _ hr _ _ => exact absurd hr (hready w₁)
  | changed w₁ _ _ _ hr _ => exact absurd hr (hready w₁)

theorem raise_patched (h : ApplyResult cfg env plan w w') (hlt : plan.current < plan.desired)
    (hcount : 0 < cfg.scalingRetryCount) : plan.desired ∈ w'.patched := by
  cases h with
  | unchanged h => omega
  | queryFailed h => omega
  | deferred h _ => omega
  | gaveUp _ _ _ _ hcalled => exact (hcalled hcount).1
  | changed => simp

end ApplyResult

theorem TickEnv.Reads.count_pos (h : env.Reads cfg) : 0 < cfg.scalingRetryCount := by
  obtain ⟨k, h₁, h₂, _⟩ := h
  omega

/-- The utilization that a finite reading shows. -/
theorem utilization_num {current : Int} (h : 0 < current * cfg.scalingDemandPerPod) (n : ℚ) :
    utilization cfg (.num n) current = .ok (.fin (n / (current * cfg.scalingDemandPerPod))) := by
  simp only [utilization, if_pos h, Json.toNumber]
  exact congrArg Except.ok (ExtRat.fin_div n h.ne')

theorem utilization_num_isOk (cfg : PredictSettings) (n : ℚ) (current : Int) :
    ∃ u, utilization cfg (.num n) current = .ok u := by
  unfold utilization
  simp only [Json.toNumber]
  split <;> exact ⟨_, rfl⟩

theorem applyReactiveAdjustment_isOk {traffic : Json} {current : Int} {u : ExtRat} (baseline : Int) (hold : Option Int)
    (note : Option DecisionNote) (hu : utilization cfg traffic current = .ok u) :
    ∃ adjusted, applyReactiveAdjustment cfg traffic hold note baseline current = .ok adjusted := by
  unfold applyReactiveAdjustment
  split
  · exact ⟨_, rfl⟩
  · rw [hu]
    cases hold with
    | none => exact ⟨_, rfl⟩
    | some held =>
        by_cases hlow : u.AtMost cfg.scalingWatermarkLow <;>
          simp [bind, Except.bind, pure, Except.pure, hlow]

/-! ## The other steps -/

theorem World.step_cooldownStatus (cfg : PredictSettings) (w : World) (query : Option PyError) (clock : Int) :
    w.step cfg (.cooldownStatus query clock) = w ∨ w.step cfg (.cooldownStatus query clock) = w.loaded := by
  rcases cooldownRemaining_run cfg query clock w with ⟨_, exc, he⟩ | ⟨_, he⟩
  · exact Or.inl (congrArg finalWorld he)
  · exact Or.inr (congrArg finalWorld he)

theorem World.step_preview (cfg : PredictSettings) (w : World) (env : TickEnv) :
    w.step cfg (.preview env) = w := by
  change finalWorld (Hailcast.preview cfg env w) = w
  unfold Hailcast.preview
  cases hk : env.kedaRead 1 with
  | some exc =>
      have hread : getMinReplicas env 1 w = .error exc w := by simp only [getMinReplicas, hk]; rfl
      rw [bind_error hread]; rfl
  | none =>
      have hread : getMinReplicas env 1 w = .ok w.minReplicaCount w := by simp only [getMinReplicas, hk]; rfl
      rw [bind_ok hread]
      cases hd : env.document with
      | error exc => rw [bind_error (liftExcept_error rfl)]; rfl
      | ok document? =>
          rw [bind_ok (liftExcept_ok rfl)]
          cases document? with
          | none => rfl
          | some document =>
              cases hb : ScalingSignals.ofDemand (currentDemand cfg document env.demandClock) >>=
                  cfg.engine.decide with
              | error exc => simp only; rw [bind_error (liftExcept_error hb)]; rfl
              | ok baseline => simp only; rw [bind_ok (liftExcept_ok hb)]; rfl

end Hailcast
