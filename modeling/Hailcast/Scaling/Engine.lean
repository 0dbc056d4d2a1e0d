import Hailcast.Scaling.Document

/-!
# Scaling decision engine
-/

namespace Hailcast

structure ScalingDecisionEngine where
  demandPerPod : ℚ
  buffer : Int
  min : Int
  max : Int

namespace ScalingDecisionEngine

/-- `max(self._min, min(self._max, desired))` -/
def clamp (e : ScalingDecisionEngine) (desired : Int) : Int := Max.max e.min (Min.min e.max desired)

/-- The replicas before clamping, and the rule that gave them. -/
def matchRule (e : ScalingDecisionEngine) (demand : ℚ) : Except PyError (Int × MatchedRule) :=
  if demand ≤ 0 then .ok (1, .noDemand)
  else if e.demandPerPod = 0 then .error .zeroDivisionError
  else
    let desired := ⌈demand / e.demandPerPod⌉ + e.buffer
    .ok (desired, .perPod demand e.demandPerPod e.buffer desired)

/-- `ScalingDecisionEngine.decide`; `ScalingDecision` rejects a negative number of replicas. -/
def decide (e : ScalingDecisionEngine) (signals : ScalingSignals) : Except PyError ScalingDecision := do
  let (desired, matched) ← e.matchRule signals.predictedDemand
  let clamped := e.clamp desired
  if clamped < 0 then throw (.validationError "desired_replicas")
  return {
    desiredReplicas := clamped
    matchedRule := matched
    reason := ⟨signals.predictedDemand, matched, if clamped = desired then none else some (e.min, e.max)⟩ }

variable {e : ScalingDecisionEngine}

theorem clamp_mem (h : e.min ≤ e.max) (desired : Int) : e.min ≤ e.clamp desired ∧ e.clamp desired ≤ e.max := by
  unfold clamp; omega

theorem clamp_eq_iff {a b : Int} :
    e.clamp a = e.clamp b ↔
      a = b ∨ (a ≤ e.min ∧ b ≤ e.min) ∨ (e.max ≤ a ∧ e.max ≤ b) ∨ e.max ≤ e.min := by
  unfold clamp; omega

theorem decide_eq_ok {signals : ScalingSignals} {d : ScalingDecision} (h : e.decide signals = .ok d) :
    ∃ desired, e.matchRule signals.predictedDemand = .ok (desired, d.matchedRule) ∧
      d.desiredReplicas = e.clamp desired ∧ 0 ≤ e.clamp desired := by
  unfold decide at h
  cases hm : e.matchRule signals.predictedDemand with
  | error exc => rw [hm] at h; cases h
  | ok r =>
      obtain ⟨desired, matched⟩ := r
      rw [hm] at h
      by_cases hn : e.clamp desired < 0
      · simp [bind, Except.bind, hn] at h
      · simp only [bind, Except.bind, hn, ↓reduceIte, pure, Except.pure, Except.ok.injEq] at h
        subst h
        exact ⟨desired, rfl, rfl, not_lt.mp hn⟩

theorem decide_mem (hm : e.min ≤ e.max) {signals : ScalingSignals} {d : ScalingDecision}
    (h : e.decide signals = .ok d) : e.min ≤ d.desiredReplicas ∧ d.desiredReplicas ≤ e.max := by
  obtain ⟨desired, _, hd, _⟩ := decide_eq_ok h
  rw [hd]
  exact clamp_mem hm desired

/-! ## The rule before the clamp -/

/-- `desired` before the clamp, of an engine that does not divide by zero. -/
def unclamped (e : ScalingDecisionEngine) (demand : ℚ) : Int :=
  if demand ≤ 0 then 1 else ⌈demand / e.demandPerPod⌉ + e.buffer

theorem clamp_mono {a b : Int} (h : a ≤ b) : e.clamp a ≤ e.clamp b := by
  unfold clamp; omega

theorem le_clamp {a : Int} (h : e.clamp a < e.max) : a ≤ e.clamp a := by
  unfold clamp at h ⊢; omega

theorem clamp_le {a : Int} (h : e.min < e.clamp a) : e.clamp a ≤ a := by
  unfold clamp at h ⊢; omega

theorem decide_eq_clamp (hpod : 0 < e.demandPerPod) (hmin : 1 ≤ e.min) (signals : ScalingSignals) :
    ∃ d, e.decide signals = .ok d ∧ d.desiredReplicas = e.clamp (e.unclamped signals.predictedDemand) := by
  have hrule : ∃ matched, e.matchRule signals.predictedDemand =
      .ok (e.unclamped signals.predictedDemand, matched) := by
    unfold matchRule unclamped
    by_cases hzero : signals.predictedDemand ≤ 0
    · exact ⟨.noDemand, by simp [hzero]⟩
    · simp [hzero, hpod.ne']
  obtain ⟨matched, hrule⟩ := hrule
  have hpos : ¬ e.clamp (e.unclamped signals.predictedDemand) < 0 := by
    unfold clamp; omega
  simp [decide, hrule, bind, Except.bind, hpos, pure, Except.pure]

theorem unclamped_mono (hpod : 0 < e.demandPerPod) (hbuffer : 0 ≤ e.buffer) {a b : ℚ} (h : a ≤ b) :
    e.unclamped a ≤ e.unclamped b := by
  unfold unclamped
  split
  · split
    · exact le_refl 1
    · rename_i hb
      have hceil : 0 < ⌈b / e.demandPerPod⌉ := Int.ceil_pos.mpr (div_pos (not_le.mp hb) hpod)
      omega
  · rename_i ha
    have hb : ¬ b ≤ 0 := fun hb => ha (h.trans hb)
    have hceil : ⌈a / e.demandPerPod⌉ ≤ ⌈b / e.demandPerPod⌉ :=
      Int.ceil_mono (div_le_div_of_nonneg_right h hpod.le)
    simp only [hb, ↓reduceIte]
    omega

/-- The pods besides the buffer carry the demand exactly if the unclamped value is not exceeded. -/
theorem unclamped_le_iff (hpod : 0 < e.demandPerPod) {demand : ℚ} (hdemand : 0 < demand) (r : Int) :
    e.unclamped demand ≤ r ↔ demand ≤ ((r - e.buffer : Int) : ℚ) * e.demandPerPod := by
  rw [← div_le_iff₀ hpod, ← Int.ceil_le, unclamped, if_neg (not_le.mpr hdemand)]
  omega

/-! ## Demands and quotients in double precision -/

/-- `math.ceil(x)` -/
def ceilFloat : ExtRat → Except PyError Int
  | .fin q => .ok ⌈q⌉
  | .inf _ => .error .overflowError
  | .nan => .error .valueError

/-- `matchRule` of a float, with the quotient that the division of floats gives. -/
def floatRule (e : ScalingDecisionEngine) (demand : ExtRat) : Except PyError Int := do
  if demand.AtMost 0 then return 1
  if e.demandPerPod = 0 then throw .zeroDivisionError
  let base ← ceilFloat (demand / .fin e.demandPerPod).toFloat
  return base + e.buffer

/-- `decide(ScalingSignals(predicted_demand=demand)).desired_replicas` of a float. -/
def decideFloat (e : ScalingDecisionEngine) (demand : ExtRat) : Except PyError Int := do
  if ¬ demand.AtLeast 0 then throw (.validationError "predicted_demand")
  let desired ← e.floatRule demand
  let clamped := e.clamp desired
  if clamped < 0 then throw (.validationError "desired_replicas")
  return clamped

theorem decideFloat_eq_ok {demand : ExtRat} (hdemand : demand.AtLeast 0) {replicas : Int} :
    e.decideFloat demand = .ok replicas ↔
      ∃ desired, e.floatRule demand = .ok desired ∧ 0 ≤ e.clamp desired ∧ replicas = e.clamp desired := by
  cases hrule : e.floatRule demand with
  | error exc => simp [decideFloat, hdemand, hrule, bind, Except.bind]
  | ok desired =>
      by_cases hneg : e.clamp desired < 0
      · simp [decideFloat, hdemand, hrule, bind, Except.bind, hneg, not_le.mpr hneg, throw, throwThe,
          MonadExceptOf.throw]
      · simp [decideFloat, hdemand, hrule, bind, Except.bind, pure, Except.pure, hneg, not_lt.mp hneg, eq_comm]

theorem quotient_ne_nan (hpod : 0 < e.demandPerPod) {demand : ExtRat} (hdemand : demand.AtLeast 0) :
    (demand / .fin e.demandPerPod).toFloat ≠ .nan := by
  cases demand with
  | fin q =>
      rw [ExtRat.fin_div _ hpod.ne']
      simp only [ExtRat.toFloat, ExtRat.ofRat]
      split <;> simp
  | inf negative => exact fun h => ExtRat.noConfusion h
  | nan => exact hdemand.elim

/-- Pods that carry some demand and a positive minimum give every demand a value, unless the quotient is too large for a
float. -/
theorem decideFloat_total (hpod : 0 < e.demandPerPod) (hmin : 1 ≤ e.min) {demand : ExtRat}
    (hdemand : demand.AtLeast 0) :
    (∃ replicas, e.decideFloat demand = .ok replicas) ∨
      e.decideFloat demand = .error .overflowError ∧
        ∀ quotient, (demand / .fin e.demandPerPod).toFloat ≠ .fin quotient := by
  have hclamp : ∀ desired, 0 ≤ e.clamp desired := by
    intro desired
    unfold clamp
    omega
  by_cases hzero : demand.AtMost 0
  · exact Or.inl ⟨e.clamp 1, (decideFloat_eq_ok hdemand).mpr ⟨1, by simp [floatRule, hzero]; rfl, hclamp 1, rfl⟩⟩
  · have hrule : e.floatRule demand =
        ceilFloat (demand / .fin e.demandPerPod).toFloat >>= fun base => .ok (base + e.buffer) := by
      simp [floatRule, hzero, hpod.ne', pure, Except.pure]
    cases hquotient : (demand / .fin e.demandPerPod).toFloat with
    | fin q =>
        rw [hquotient] at hrule
        exact Or.inl ⟨_, (decideFloat_eq_ok hdemand).mpr ⟨⌈q⌉ + e.buffer, hrule, hclamp _, rfl⟩⟩
    | inf negative =>
        rw [hquotient] at hrule
        refine Or.inr ⟨?_, by simp⟩
        simp [decideFloat, hdemand, hrule, ceilFloat, bind, Except.bind]
    | nan => exact absurd hquotient (quotient_ne_nan hpod hdemand)

/-- A quotient that is not rounded down to an integer is decided as `decide` does with the exact one. -/
theorem decideFloat_eq_decide (hpod : 0 < e.demandPerPod) {signals : ScalingSignals} {quotient : ℚ}
    (hfinite : ExtRat.ofRat (signals.predictedDemand / e.demandPerPod) = .fin quotient)
    (hceil : ⌈quotient⌉ = ⌈signals.predictedDemand / e.demandPerPod⌉) :
    e.decideFloat (.fin signals.predictedDemand) = ScalingDecision.desiredReplicas <$> e.decide signals := by
  have hnonneg : (ExtRat.fin signals.predictedDemand).AtLeast 0 := signals.demand_nonneg
  have hquotient : (ExtRat.fin signals.predictedDemand / .fin e.demandPerPod).toFloat = .fin quotient := by
    rw [ExtRat.fin_div _ hpod.ne']
    exact hfinite
  by_cases hzero : signals.predictedDemand ≤ 0
  · by_cases hneg : e.clamp 1 < 0 <;>
      simp [decideFloat, hnonneg, floatRule, hzero, decide, matchRule, bind, Except.bind, pure, Except.pure,
        throw, throwThe, MonadExceptOf.throw, hneg, Functor.map, Except.map]
  · by_cases hneg : e.clamp (⌈quotient⌉ + e.buffer) < 0 <;>
      simp [decideFloat, hnonneg, floatRule, hzero, decide, matchRule, bind, Except.bind, pure, Except.pure,
        throw, throwThe, MonadExceptOf.throw, hneg, Functor.map, Except.map, hpod.ne', hquotient, ceilFloat, ← hceil]

end ScalingDecisionEngine

end Hailcast
