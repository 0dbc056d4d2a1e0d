import Hailcast.Lib.EventRun
import Hailcast.Scaling.Step

/-!
# The rows of `scaling_history`
-/

namespace Hailcast

open Retry (bind_ok bind_error)

variable {cfg : PredictSettings} {env : TickEnv} {w w' : World} {plan : Plan}

/-- From `w` to `w'` there is a new row exactly if the live value has changed, and it shows the change. -/
def World.RowIffChanged (w w' : World) : Prop :=
  if w'.minReplicaCount = w.minReplicaCount then w'.scalingHistory = w.scalingHistory
  else
    ∃ event, w'.scalingHistory = w.scalingHistory ++ [event] ∧ event.oldReplica = w.minReplicaCount ∧
      event.newReplica = w'.minReplicaCount ∧
      (event.action = .scaleUp ↔ w.minReplicaCount < w'.minReplicaCount)

theorem World.RowIffChanged.of_eq (hlive : w'.minReplicaCount = w.minReplicaCount)
    (hhistory : w'.scalingHistory = w.scalingHistory) : w.RowIffChanged w' := by
  rw [RowIffChanged, if_pos hlive]
  exact hhistory

theorem World.not_rowIffChanged (hlive : w'.minReplicaCount ≠ w.minReplicaCount)
    (hhistory : w'.scalingHistory = w.scalingHistory) : ¬ w.RowIffChanged w' := by
  rw [RowIffChanged, if_neg hlive]
  rintro ⟨event, hrow, _⟩
  rw [hhistory] at hrow
  simp at hrow

/-- The row of a plan that has been carried out. -/
theorem World.RowIffChanged.of_event {desired : Int} (hcurrent : plan.current = w.minReplicaCount)
    (hlive : w'.minReplicaCount = desired) (hne : desired ≠ w.minReplicaCount)
    (hhistory : w'.scalingHistory = w.scalingHistory) (createdAt : Int) :
    w.RowIffChanged (w'.saveEvent (plan.event desired createdAt)) := by
  rw [RowIffChanged, saveEvent_minReplicaCount, hlive, if_neg hne]
  refine ⟨plan.event desired createdAt, ?_, hcurrent, rfl, ?_⟩
  · rw [saveEvent_scalingHistory, hhistory]
  · change (if plan.current < desired then ScalingAction.scaleUp else .scaleDown) = .scaleUp ↔
      w.minReplicaCount < desired
    rw [← hcurrent]
    simp

/-! ## The attempts of the patch -/

def TickEnv.Applies (env : TickEnv) (attempts : List Nat) : Prop :=
  ∃ k ∈ attempts, ∃ time, env.patch k = .applied time

/-- One of the attempts takes effect and raises. -/
def TickEnv.LosesReply (env : TickEnv) (attempts : List Nat) : Prop :=
  ∃ k ∈ attempts, ∃ time exc, env.patch k = .lost time exc

theorem retryFrom_patchMinReplicas (env : TickEnv) (replicas : Int) (left attempt : Nat) (last : PyError) (w : World) :
    (∃ exc w', Retry.retryFrom (patchMinReplicas env replicas) left attempt last w = .error exc w' ∧
      ¬ env.Applies (List.range' attempt left) ∧ w'.scalingHistory = w.scalingHistory ∧
      (env.LosesReply (List.range' attempt left) → w'.minReplicaCount = replicas) ∧
      (¬ env.LosesReply (List.range' attempt left) → w'.minReplicaCount = w.minReplicaCount)) ∨
    (∃ w', Retry.retryFrom (patchMinReplicas env replicas) left attempt last w = .ok replicas w' ∧
      env.Applies (List.range' attempt left) ∧ w'.scalingHistory = w.scalingHistory ∧
      w'.minReplicaCount = replicas) := by
  induction left generalizing attempt last w with
  | zero => exact Or.inl ⟨last, w, rfl, by simp [TickEnv.Applies], rfl, by simp [TickEnv.LosesReply], fun _ => rfl⟩
  | succ left ih =>
      simp only [Retry.retryFrom, Retry.tryCatch_run, patchMinReplicas, List.range'_succ]
      rw [bind_ok (modify_run _ _)]
      cases hk : env.patch attempt with
      | applied time => exact Or.inr ⟨_, rfl, ⟨attempt, by simp, time, hk⟩, rfl, rfl⟩
      | refused exc =>
          have happlies : env.Applies (attempt :: List.range' (attempt + 1) left) ↔
              env.Applies (List.range' (attempt + 1) left) := by simp [TickEnv.Applies, hk]
          have hloses : env.LosesReply (attempt :: List.range' (attempt + 1) left) ↔
              env.LosesReply (List.range' (attempt + 1) left) := by simp [TickEnv.LosesReply, hk]
          rw [happlies, hloses]
          exact ih (attempt + 1) exc (w.callPatch replicas)
      | lost time exc =>
          have happlies : env.Applies (attempt :: List.range' (attempt + 1) left) ↔
              env.Applies (List.range' (attempt + 1) left) := by simp [TickEnv.Applies, hk]
          have hloses : env.LosesReply (attempt :: List.range' (attempt + 1) left) :=
            ⟨attempt, by simp, time, exc, hk⟩
          rw [happlies]
          rcases ih (attempt + 1) exc ((w.callPatch replicas).applyPatch time replicas) with
            ⟨exc', w', he, hno, hhistory, hlost, hkept⟩ | ⟨w', he, hyes, hhistory, hlive⟩
          · refine Or.inl ⟨exc', w', he, hno, hhistory, fun _ => ?_, fun hn => absurd hloses hn⟩
            by_cases hl : env.LosesReply (List.range' (attempt + 1) left)
            · exact hlost hl
            · exact hkept hl
          · exact Or.inr ⟨w', he, hyes, hhistory, hlive⟩

/-! ## The call -/

def TickEnv.attempts (cfg : PredictSettings) : List Nat := List.range' 1 cfg.scalingRetryCount

/-- The patch takes effect and is not recorded: none of its attempts returns, or the history cannot be written. -/
def TickEnv.LosesChange (cfg : PredictSettings) (env : TickEnv) : Prop :=
  env.Applies (attempts cfg) ∧ (∃ exc, env.history = .fails exc) ∨
    ¬ env.Applies (attempts cfg) ∧ env.LosesReply (attempts cfg)

/-- The live value is to be raised, or lowered at the end of the cooldown. -/
def World.Due (cfg : PredictSettings) (env : TickEnv) (w : World) (desired : Int) : Prop :=
  w.minReplicaCount < desired ∨
    desired < w.minReplicaCount ∧ (w.service.lastScalingAt = none → env.lastEvent = none) ∧
      cfg.remainingAt w.lastKnown env.cooldownClock ≤ 0

theorem changeReplicas_row (hcurrent : plan.current = w.minReplicaCount) (hne : plan.desired ≠ plan.current) :
    w.RowIffChanged (finalWorld (changeReplicas cfg env plan w)) ↔ ¬ env.LosesChange cfg := by
  rw [hcurrent] at hne
  unfold changeReplicas
  rcases retryFrom_patchMinReplicas env plan.desired cfg.scalingRetryCount 1 .typeError w with
    ⟨exc, w', he, hno, hhistory, hlost, hkept⟩ | ⟨w', he, hyes, hhistory, hlive⟩
  · have hraise : tryCatch (withRetry cfg.scalingRetryCount (patchMinReplicas env plan.desired))
        (fun exc => throw (.scalingError "keda patch failed after retries: " exc)) w =
          .error (.scalingError "keda patch failed after retries: " exc) w' := by
      rw [Retry.tryCatch_run, withRetry, Retry.retry, he]; rfl
    have hloses : env.LosesChange cfg ↔ env.LosesReply (TickEnv.attempts cfg) := by
      simp [TickEnv.LosesChange, TickEnv.attempts, hno]
    rw [bind_error hraise, hloses]
    constructor
    · intro hrow hl
      have hchanged : w'.minReplicaCount ≠ w.minReplicaCount := by rw [hlost hl]; exact hne
      exact World.not_rowIffChanged hchanged hhistory hrow
    · intro hl
      exact .of_eq (hkept hl) hhistory
  · have hpatched : tryCatch (withRetry cfg.scalingRetryCount (patchMinReplicas env plan.desired))
        (fun exc => throw (.scalingError "keda patch failed after retries: " exc)) w = .ok plan.desired w' := by
      rw [Retry.tryCatch_run, withRetry, Retry.retry, he]
    have hloses : env.LosesChange cfg ↔ ∃ exc, env.history = .fails exc := by
      simp [TickEnv.LosesChange, TickEnv.attempts, hyes]
    rw [bind_ok hpatched, bind_ok (modifyService_run _ _), hloses]
    unfold saveHistoryEvent
    have hchanged : w'.minReplicaCount ≠ w.minReplicaCount := by rw [hlive]; exact hne
    cases hh : env.history with
    | fails exc =>
        refine iff_of_false ?_ (by simp)
        exact World.not_rowIffChanged hchanged hhistory
    | commits createdAt =>
        refine iff_of_true ?_ (by simp)
        exact .of_event hcurrent hlive hne hhistory createdAt

theorem applyPlan_row (plan : Plan) (hcurrent : plan.current = w.minReplicaCount) :
    w.RowIffChanged (finalWorld (applyPlan cfg env plan w)) ↔ ¬ (w.Due cfg env plan.desired ∧ env.LosesChange cfg) := by
  unfold applyPlan
  split
  · rename_i heq
    refine iff_of_true (.of_eq rfl rfl) ?_
    rintro ⟨hlt | ⟨hlt, _⟩, _⟩ <;> omega
  · rename_i hne
    split
    · rename_i hlt
      rcases cooldownRemaining_run cfg env.lastEvent env.cooldownClock w with ⟨⟨hlast, hquery⟩, exc, he⟩ | ⟨hquery, he⟩
      · rw [bind_error he]
        refine iff_of_true (.of_eq rfl rfl) ?_
        rintro ⟨hgt | ⟨_, hok, _⟩, _⟩
        · omega
        · exact hquery (hok hlast)
      · rw [bind_ok he]
        split
        · rename_i hcool
          refine iff_of_true (.of_eq rfl rfl) ?_
          rintro ⟨hgt | ⟨_, _, hover⟩, _⟩
          · omega
          · exact absurd hcool (not_lt.mpr hover)
        · rename_i hcool
          have hdue : w.Due cfg env plan.desired := Or.inr ⟨by omega, hquery, not_lt.mp hcool⟩
          have hrow : w.loaded.RowIffChanged (finalWorld (changeReplicas cfg env plan w.loaded)) ↔
              ¬ env.LosesChange cfg := changeReplicas_row hcurrent hne
          exact hrow.trans (by simp [hdue])
    · rename_i hge
      have hdue : w.Due cfg env plan.desired := Or.inl (by omega)
      rw [changeReplicas_row hcurrent hne]
      simp [hdue]

/-! ## The tick -/

def World.LosesRow (w : World) (cfg : PredictSettings) (env : TickEnv) : Prop :=
  ∃ document baseline traffic adjusted, env.Reaches cfg document baseline traffic ∧
    w.adjustment cfg baseline traffic = .ok adjusted ∧ w.Due cfg env adjusted.desired ∧ env.LosesChange cfg

theorem World.rowIffChanged_iff (cfg : PredictSettings) (env : TickEnv) (w : World) :
    w.RowIffChanged (w.step cfg (.tick env)) ↔ ¬ w.LosesRow cfg env := by
  have h := planScaling_result cfg env w
  change w.RowIffChanged (finalWorld (runScaling cfg env w)) ↔ _
  unfold runScaling
  generalize hr : planScaling cfg env w = r at h
  cases h with
  | skipped hd =>
      rw [bind_ok hr]
      refine iff_of_true (.of_eq rfl rfl) ?_
      rintro ⟨_, _, _, _, hreach, _⟩
      simp [hreach.freshDemand_eq] at hd
  | failed exc s _ _ _ hno =>
      rw [bind_error hr]
      refine iff_of_true (.of_eq rfl rfl) ?_
      rintro ⟨document, baseline, traffic, adjusted, hreach, hadjust, _⟩
      exact hno document baseline traffic adjusted hreach hadjust
  | planned document baseline traffic adjusted hreach hadjust =>
      rw [bind_ok hr]
      have hrow : w.RowIffChanged _ ↔ ¬ (w.Due cfg env adjusted.desired ∧ env.LosesChange cfg) :=
        applyPlan_row (w := w.withService (w.service.planned (currentDemand cfg document env.demandClock) adjusted))
          (w.plan cfg env document adjusted) rfl
      refine hrow.trans (not_congr ⟨fun h => ⟨document, baseline, traffic, adjusted, hreach, hadjust, h⟩, ?_⟩)
      rintro ⟨document', baseline', traffic', adjusted', hreach', hadjust', h⟩
      obtain ⟨rfl, rfl, rfl⟩ := hreach.unique hreach'
      obtain rfl : adjusted = adjusted' := Except.ok.inj (hadjust.symm.trans hadjust')
      exact h

/-! ## Replaying the rows -/

/-- Starting from the value `start`, each row goes on from the value that the rows before it have left, and the
last one leaves `live`. -/
def Replays : Int → List ScalingEvent → Int → Prop
  | start, [], live => start = live
  | start, event :: events, live => event.oldReplica = start ∧ Replays event.newReplica events live

theorem Replays.append {start live : Int} {events : List ScalingEvent} (h : Replays start events live)
    {event : ScalingEvent} (hold : event.oldReplica = live) :
    Replays start (events ++ [event]) event.newReplica := by
  induction events generalizing start with
  | nil => exact ⟨hold.trans (Eq.symm h), rfl⟩
  | cons e events ih => exact ⟨h.1, ih h.2⟩

theorem Replays.rowIffChanged {start : Int} (h : Replays start w.scalingHistory w.minReplicaCount)
    (hrow : w.RowIffChanged w') : Replays start w'.scalingHistory w'.minReplicaCount := by
  unfold World.RowIffChanged at hrow
  split at hrow
  · rename_i hlive
    rw [hrow, hlive]
    exact h
  · obtain ⟨event, hhistory, hold, hnew, _⟩ := hrow
    rw [hhistory, ← hnew]
    exact h.append hold

/-- The tick loses a change; the other steps write neither the live value nor a row. -/
def World.LosesStep (cfg : PredictSettings) (w : World) : ScalerStep → Prop
  | .tick env => w.LosesRow cfg env
  | _ => False

theorem Replays.step {start : Int} (h : Replays start w.scalingHistory w.minReplicaCount) {e : ScalerStep}
    (he : ¬ w.LosesStep cfg e) : Replays start (w.step cfg e).scalingHistory (w.step cfg e).minReplicaCount := by
  cases e with
  | tick env => exact h.rowIffChanged ((World.rowIffChanged_iff cfg env w).mpr he)
  | cooldownStatus query clock =>
      rcases World.step_cooldownStatus cfg w query clock with he | he
      · rw [he]; exact h
      · rw [he]; exact h
  | preview env =>
      rw [World.step_preview]
      exact h
  | restart => exact h

end Hailcast
