import Hailcast.Batch.Predict
import Mathlib.Tactic.IntervalCases
import Mathlib.Tactic.NormNum

/-!
# The correction of one bucket
-/

namespace Hailcast

namespace PredictBatch

variable {pairs : List (Int × ℚ)} {k : Int}

/-! ## The reference -/

theorem hourBucket_mem (date : Int) : hourBucket date ∈ hourlyReference.map Prod.fst := by
  have hlow : 0 ≤ Features.hourOf date := Int.emod_nonneg _ (by decide)
  have hhigh : Features.hourOf date < 24 := Int.emod_lt_of_pos _ (by decide)
  unfold hourBucket
  interval_cases Features.hourOf date <;> decide

theorem lookup_pos {entries : List (Int × ℚ)} (h : ∀ p ∈ entries, 0 < p.2) (hk : k ∈ entries.map Prod.fst) :
    ∃ q, Dict.lookup k entries = some q ∧ 0 < q := by
  obtain ⟨q, hq⟩ := Option.isSome_iff_exists.mp ((Dict.lookup_isSome k entries).mpr hk)
  exact ⟨q, hq, h (k, q) (Dict.mem_of_lookup hq)⟩

theorem reference_pos : ∀ p ∈ hourlyReference, 0 < p.2 := by norm_num [hourlyReference]

theorem damping_pos : ∀ p ∈ bucketDamping, 0 < p.2 := by norm_num [bucketDamping, dawnBuckets]

theorem damping_covers : ∀ k ∈ hourlyReference.map Prod.fst, k ∈ bucketDamping.map Prod.fst := by decide

def refShape : Series Int :=
  (Series.ofEntries hourlyReference).map (· / (Series.ofEntries hourlyReference).mean)

def modelShape (pairs : List (Int × ℚ)) : Series Int :=
  (Series.groupMean (Series.finPairs pairs)).map (· / (Series.groupMean (Series.finPairs pairs)).mean)

theorem mem_refShape (hk : k ∈ hourlyReference.map Prod.fst) : k ∈ refShape.index := List.mem_dedup.mpr hk

/-- The reference of a bucket over the mean of all of them is a positive number. -/
theorem get_refShape (hk : k ∈ hourlyReference.map Prod.fst) : ∃ r, 0 < r ∧ refShape.get k = .fin r := by
  obtain ⟨r, hr, hpos⟩ := lookup_pos reference_pos hk
  have hmean : ∃ m, (Series.ofEntries hourlyReference).mean = .fin m ∧ 0 < m := by
    have hne : hourlyReference.map Prod.snd ≠ [] := List.cons_ne_nil _ _
    refine ⟨_, ExtRat.mean_fin hne, ?_⟩
    norm_num [hourlyReference]
  obtain ⟨m, hm, hmpos⟩ := hmean
  have hmem : k ∈ (Series.ofEntries hourlyReference).index := List.mem_dedup.mpr hk
  refine ⟨r / m, div_pos hpos hmpos, ?_⟩
  rw [refShape, Series.get_map hmem, Series.get_ofEntries hr, hm, ExtRat.fin_div _ hmpos.ne']

/-! ## The factor of a bucket -/

/-- `fillna(1.0)` -/
def fillOne (ratio : ExtRat) : ExtRat := if ratio = .nan then .fin 1 else ratio

@[simp] theorem fillOne_nan : fillOne .nan = .fin 1 := rfl

@[simp] theorem fillOne_fin (q : ℚ) : fillOne (.fin q) = .fin q := by simp [fillOne]

@[simp] theorem fillOne_inf (s : Bool) : fillOne (.inf s) = .inf s := by simp [fillOne]

/-- `ratio` at a bucket of the reference -/
def ratioAt (pairs : List (Int × ℚ)) (k : Int) : ExtRat :=
  fillOne ((Series.align (· / ·) refShape (modelShape pairs)).get k)

theorem get_factors {dates : List Int} {rawPred : List ExtRat}
    (hraw : (dates.map hourBucket).zip rawPred = Series.finPairs pairs) (hk : k ∈ hourlyReference.map Prod.fst) :
    ∃ d, 0 < d ∧
      (computeCorrectionFactors dates rawPred hourlyReference bucketDamping).get k =
        .fin 1 + .fin d * (ratioAt pairs k - .fin 1) := by
  obtain ⟨d, hd, hpos⟩ := lookup_pos damping_pos (damping_covers k hk)
  refine ⟨d, hpos, ?_⟩
  have hmem := mem_refShape hk
  let damping := ((Series.ofEntries bucketDamping).reindex refShape.index).fillna 0
  let ratio := ((Series.align (· / ·) refShape (modelShape pairs)).reindex refShape.index).fillna 1
  have hdamping : damping.get k = .fin d := by
    rw [Series.get_fillna (s := (Series.ofEntries bucketDamping).reindex refShape.index) hmem, Series.get_reindex hmem,
      Series.get_ofEntries hd]
    simp
  have hratio : ratio.get k = ratioAt pairs k := by
    rw [Series.get_fillna (s := (Series.align (· / ·) refShape (modelShape pairs)).reindex refShape.index) hmem,
      Series.get_reindex hmem]
    rfl
  have hproduct : (Series.align (· * ·) damping (ratio.map (· - 1))).get k = .fin d * (ratio.get k - .fin 1) := by
    rw [Series.get_align (s := damping) (t := ratio.map (· - 1)) hmem hmem, Series.get_map (s := ratio) hmem, hdamping]
    rfl
  have hfactors : computeCorrectionFactors dates rawPred hourlyReference bucketDamping =
      (Series.align (· * ·) damping (ratio.map (· - 1))).map (1 + ·) := by
    simp only [computeCorrectionFactors, hraw]
    rfl
  rw [hfactors, Series.get_map (List.mem_append_left _ hmem), hproduct, hratio]
  rfl

variable (hpairs : ∀ p ∈ pairs, 0 ≤ p.2)

include hpairs

/-- The mean of a present bucket over the mean of the means. -/
theorem get_modelShape (hmem : ∃ q, (k, q) ∈ pairs) :
    ∃ m, 0 ≤ m ∧ (0 < m ↔ ∃ p ∈ pairs, 0 < p.2) ∧
      (modelShape pairs).get k = .fin (Series.groupAverage k pairs) / .fin m := by
  obtain ⟨q, hq⟩ := hmem
  obtain ⟨m, hmean, hnonneg, hpos⟩ := Series.mean_groupMean hpairs (List.ne_nil_of_mem hq)
  refine ⟨m, hnonneg, hpos, ?_⟩
  rw [modelShape, Series.get_map (Series.mem_index_groupMean.mpr ⟨q, hq⟩), Series.get_groupMean ⟨q, hq⟩, hmean]

/-- The fill rule covers a batch without a positive number, but no bucket without one in a batch that has one. -/
theorem ratioAt_cases (hk : k ∈ hourlyReference.map Prod.fst) (hmem : ∃ q, (k, q) ∈ pairs) :
    ((∀ p ∈ pairs, p.2 = 0) → ratioAt pairs k = .fin 1) ∧
      ((∃ q, (k, q) ∈ pairs ∧ 0 < q) → ∃ x, ratioAt pairs k = .fin x) ∧
      ((∃ p ∈ pairs, 0 < p.2) → (¬ ∃ q, (k, q) ∈ pairs ∧ 0 < q) → ratioAt pairs k = .inf false) := by
  obtain ⟨r, hr, href⟩ := get_refShape hk
  obtain ⟨m, hm, hmpos, hmodel⟩ := get_modelShape hpairs hmem
  have hindex : k ∈ (modelShape pairs).index := Series.mem_index_groupMean.mpr hmem
  have hratio := Series.get_align (f := (· / ·)) (mem_refShape hk) hindex
  rw [href, hmodel] at hratio
  rw [ratioAt, hratio]
  have haverage := Series.groupAverage_pos_iff (k := k) hpairs
  have hnonneg := Series.groupAverage_nonneg hpairs k
  generalize Series.groupAverage k pairs = a at haverage hnonneg
  refine ⟨fun hzero => ?_, fun hbucket => ?_, fun hsome hbucket => ?_⟩
  · have hm0 : m = 0 := by
      refine le_antisymm (not_lt.mp fun hlt => ?_) hm
      obtain ⟨p, hp, hpos⟩ := hmpos.mp hlt
      exact absurd (hzero p hp) hpos.ne'
    have ha0 : a = 0 := by
      refine le_antisymm (not_lt.mp fun hlt => ?_) hnonneg
      obtain ⟨q, hq, hpos⟩ := haverage.mp hlt
      exact absurd (hzero (k, q) hq) hpos.ne'
    rw [hm0, ha0, ExtRat.zero_div_zero, ExtRat.div_nan, fillOne_nan]
  · have ha := haverage.mpr hbucket
    obtain ⟨q, hq, hpos⟩ := hbucket
    have hm' := hmpos.mpr ⟨(k, q), hq, hpos⟩
    have hshape := div_pos ha hm'
    refine ⟨r / (a / m), ?_⟩
    rw [ExtRat.fin_div _ hm'.ne', ExtRat.fin_div _ hshape.ne', fillOne_fin]
  · have ha0 : a = 0 := le_antisymm (not_lt.mp fun hlt => hbucket (haverage.mp hlt)) hnonneg
    rw [ha0, ExtRat.fin_div _ (hmpos.mpr hsome).ne', zero_div, ExtRat.fin_div_zero hr, fillOne_inf]

/-- No number of the bucket is positive, although one of another bucket is. -/
def ZeroBucket (pairs : List (Int × ℚ)) (k : Int) : Prop :=
  (∃ p ∈ pairs, 0 < p.2) ∧ ¬ ∃ q, (k, q) ∈ pairs ∧ 0 < q

/-- The corrected value of a row is NaN if its bucket is such a one, and a number from zero on otherwise. -/
theorem corrected_cases {dates : List Int} {rawPred : List ExtRat}
    (hraw : (dates.map hourBucket).zip rawPred = Series.finPairs pairs) {q : ℚ} (hq : (k, q) ∈ pairs)
    (hk : k ∈ hourlyReference.map Prod.fst) :
    let factor := (computeCorrectionFactors dates rawPred hourlyReference bucketDamping).get k
    (ZeroBucket pairs k ∧ (ExtRat.fin q * factor).clipMin 0 = .nan) ∨
      ¬ ZeroBucket pairs k ∧ ∃ x, 0 ≤ x ∧ (ExtRat.fin q * factor).clipMin 0 = .fin x := by
  intro factor
  obtain ⟨d, hd, hfactor⟩ := get_factors hraw hk
  obtain ⟨hnone, hbucket, hzero⟩ := ratioAt_cases hpairs hk ⟨q, hq⟩
  have hvalue : factor = .fin 1 + .fin d * (ratioAt pairs k - .fin 1) := hfactor
  by_cases hsome : ∃ p ∈ pairs, 0 < p.2
  · by_cases hpos : ∃ q, (k, q) ∈ pairs ∧ 0 < q
    · obtain ⟨x, hfill⟩ := hbucket hpos
      refine Or.inr ⟨fun h => h.2 hpos, _, le_max_left 0 (q * (1 + d * (x - 1))), ?_⟩
      rw [hvalue, hfill]
      simp
    · have hq0 : q = 0 := le_antisymm (not_lt.mp fun hlt => hpos ⟨q, hq, hlt⟩) (hpairs (k, q) hq)
      refine Or.inl ⟨⟨hsome, hpos⟩, ?_⟩
      rw [hvalue, hzero hsome hpos, hq0]
      simp [ExtRat.fin_mul_inf hd]
  · have hall : ∀ p ∈ pairs, p.2 = 0 := fun p hp =>
      le_antisymm (not_lt.mp fun hlt => hsome ⟨p, hp, hlt⟩) (hpairs p hp)
    refine Or.inr ⟨fun h => hsome h.1, _, le_max_left 0 (q * (1 + d * (1 - 1))), ?_⟩
    rw [hvalue, hnone hall]
    simp

end PredictBatch

end Hailcast
