import Hailcast.Batch.Lemmas
import Hailcast.Prediction.Service

/-!
# Which batches are corrected to numbers
-/

namespace Hailcast

namespace PredictBatch

/-- The outputs of the model, each with the bucket of its row. -/
def outputs (model : Model) (rows : List BatchRow) : List (Int × ℚ) :=
  (rows.map fun row => hourBucket row.date).zip (model.predict (rows.map BatchRow.features))

/-- Every row has a number from zero on, which is what the conversion to integers gets. -/
def FiniteDemands (model : Model) (rows : List BatchRow) : Prop :=
  (correctedPrediction model rows).length = rows.length ∧
    ∀ v ∈ correctedPrediction model rows, ∃ x, 0 ≤ x ∧ v = .fin x

/-- The outputs after `clip(min=0)` -/
def clipped (model : Model) (rows : List BatchRow) : List (Int × ℚ) :=
  (outputs model rows).map fun p => (p.1, max 0 p.2)

variable {model : Model} {rows : List BatchRow}

theorem finPairs_clipped :
    ((rows.map BatchRow.date).map hourBucket).zip (rawPrediction model rows) =
      Series.finPairs (clipped model rows) := by
  unfold rawPrediction Series.finPairs clipped outputs
  rw [List.zip_map_right, List.map_map, List.map_map]
  rfl

theorem correctedPrediction_eq :
    correctedPrediction model rows = (clipped model rows).map fun p =>
      (ExtRat.fin p.2 * (computeCorrectionFactors (rows.map BatchRow.date) (rawPrediction model rows) hourlyReference
        bucketDamping).get p.1).clipMin 0 := by
  unfold correctedPrediction
  simp only
  generalize computeCorrectionFactors (rows.map BatchRow.date) (rawPrediction model rows) hourlyReference
    bucketDamping = factors
  have hcorrection : (rows.map BatchRow.date).map (fun date => factors.get (hourBucket date)) =
      ((rows.map BatchRow.date).map hourBucket).map factors.get := by simp [Function.comp_def]
  have hproducts : List.zipWith (· * ·) (rawPrediction model rows)
      ((rows.map BatchRow.date).map fun date => factors.get (hourBucket date)) =
        (((rows.map BatchRow.date).map hourBucket).zip (rawPrediction model rows)).map fun p =>
          p.2 * factors.get p.1 := by
    rw [hcorrection, List.zipWith_map_right, List.zipWith_comm, List.map_zip_eq_zipWith]
    rfl
  rw [hproducts, finPairs_clipped, Series.finPairs, List.map_map, List.map_map]
  rfl

theorem clipped_nonneg : ∀ p ∈ clipped model rows, 0 ≤ p.2 := by
  intro p hp
  obtain ⟨p', -, rfl⟩ := List.mem_map.mp hp
  exact le_max_left 0 p'.2

theorem clipped_mem_reference : ∀ p ∈ clipped model rows, p.1 ∈ hourlyReference.map Prod.fst := by
  intro p hp
  obtain ⟨p', hp', rfl⟩ := List.mem_map.mp hp
  obtain ⟨row, -, hrow⟩ := List.mem_map.mp (List.of_mem_zip (a := p'.1) (b := p'.2) hp').1
  rw [← hrow]
  exact hourBucket_mem row.date

theorem length_outputs : (outputs model rows).length = rows.length := by
  simp [outputs, model.length_predict]

theorem clipped_pos_iff {k : Int} :
    (∃ q, (k, q) ∈ clipped model rows ∧ 0 < q) ↔ ∃ p ∈ outputs model rows, p.1 = k ∧ 0 < p.2 := by
  constructor
  · rintro ⟨q, hq, hpos⟩
    obtain ⟨p, hp, heq⟩ := List.mem_map.mp hq
    obtain ⟨rfl, rfl⟩ := Prod.mk.inj heq
    exact ⟨p, hp, rfl, (lt_max_iff.mp hpos).resolve_left (lt_irrefl 0)⟩
  · rintro ⟨p, hp, rfl, hpos⟩
    exact ⟨max 0 p.2, List.mem_map.mpr ⟨p, hp, rfl⟩, lt_max_of_lt_right hpos⟩

theorem finiteDemands_iff_bucket :
    FiniteDemands model rows ↔ ∀ p ∈ clipped model rows, ¬ ZeroBucket (clipped model rows) p.1 := by
  have hcases := fun (p : Int × ℚ) (hp : p ∈ clipped model rows) =>
    corrected_cases clipped_nonneg finPairs_clipped hp (clipped_mem_reference p hp)
  unfold FiniteDemands
  rw [correctedPrediction_eq]
  constructor
  · rintro ⟨-, hfinite⟩ p hp
    obtain ⟨x, -, hx⟩ := hfinite _ (List.mem_map_of_mem hp)
    rcases hcases p hp with ⟨-, hnan⟩ | ⟨hbucket, -⟩
    · rw [hnan] at hx
      cases hx
    · exact hbucket
  · intro hbuckets
    refine ⟨by rw [List.length_map, clipped, List.length_map, length_outputs], fun v hv => ?_⟩
    obtain ⟨p, hp, rfl⟩ := List.mem_map.mp hv
    rcases hcases p hp with ⟨hzero, -⟩ | ⟨-, hfinite⟩
    · exact absurd hzero (hbuckets p hp)
    · exact hfinite

/-- Every row gets a number from zero on exactly if no output is positive, or each bucket of the batch has a positive
one. -/
theorem finite_demands_iff (model : Model) (rows : List BatchRow) :
    FiniteDemands model rows ↔
      (∀ p ∈ outputs model rows, p.2 ≤ 0) ∨
        ∀ p ∈ outputs model rows, ∃ p' ∈ outputs model rows, p'.1 = p.1 ∧ 0 < p'.2 := by
  rw [finiteDemands_iff_bucket]
  constructor
  · intro hbuckets
    by_cases hpos : ∃ p ∈ outputs model rows, 0 < p.2
    · right
      intro p hp
      obtain ⟨p', hp', hpos'⟩ := hpos
      have hsome : ∃ p ∈ clipped model rows, 0 < p.2 :=
        ⟨(p'.1, max 0 p'.2), List.mem_map_of_mem hp', lt_max_of_lt_right hpos'⟩
      have hbucket := hbuckets (p.1, max 0 p.2) (List.mem_map_of_mem hp)
      exact clipped_pos_iff.mp (not_not.mp fun hnone => hbucket ⟨hsome, hnone⟩)
    · left
      intro p hp
      exact not_lt.mp fun hlt => hpos ⟨p, hp, hlt⟩
  · rintro (hnone | hall) p hp ⟨⟨p', hp', hpos⟩, hbucket⟩
    · obtain ⟨p₀, hp₀, rfl⟩ := List.mem_map.mp hp'
      exact absurd (hnone p₀ hp₀) (not_le.mpr ((lt_max_iff.mp hpos).resolve_left (lt_irrefl 0)))
    · obtain ⟨p₀, hp₀, rfl⟩ := List.mem_map.mp hp
      exact hbucket (clipped_pos_iff.mpr (hall p₀ hp₀))

/-- A model that looks at the hour only. -/
def hourlyModel (demand : Int → ℚ) : Model where
  predict X := X.map fun x => demand x.hour
  length_predict _ := List.length_map _

/-- A row at this hour of the first day of the epoch. -/
def rowAt (hour : Int) : BatchRow := ⟨hour * hourMicros, 4, 20, 50, 0⟩

/-- The bucket from midnight on has no positive output: its rows get NaN, and no integer. -/
theorem zero_bucket_nan :
    let model := hourlyModel fun hour => if hour < 2 then -1 else 100
    let rows := [rowAt 0, rowAt 1, rowAt 2]
    (correctedPrediction model rows).take 2 = [.nan, .nan] ∧
      (predict model rows).map OutputRow.demand = [none, none, some 41] ∧ ¬ FiniteDemands model rows := by
  intro model rows
  have hcorrected : (correctedPrediction model rows).take 2 = [.nan, .nan] := by decide +kernel
  refine ⟨hcorrected, by decide +kernel, fun hfinite => ?_⟩
  have hmem : ExtRat.nan ∈ (correctedPrediction model rows).take 2 := by
    rw [hcorrected]
    exact List.mem_cons_self
  obtain ⟨x, -, hx⟩ := hfinite.2 _ (List.mem_of_mem_take hmem)
  cases hx

/-- What the conversion makes of numbers from zero on is not negative. -/
theorem demand_nonneg (h : FiniteDemands model rows) :
    ∀ out ∈ predict model rows, ∀ n ∈ out.demand, 0 ≤ n := by
  intro out hout n hn
  unfold predict at hout
  rw [← List.map_uncurry_zip_eq_zipWith] at hout
  obtain ⟨⟨row, v⟩, hp, rfl⟩ := List.mem_map.mp hout
  obtain ⟨x, hx, rfl⟩ := h.2 v (List.of_mem_zip hp).2
  simp only [Function.uncurry, toInteger] at hn
  split at hn
  · obtain rfl := Option.some.inj hn
    exact roundHalfEven_nonneg hx
  · cases hn

end PredictBatch

end Hailcast
