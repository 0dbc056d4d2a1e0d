import Hailcast.Store.Working
import Hailcast.Traffic.Buckets

/-!
# Rebucketing

`DashboardService.traffic_history`: the stored points from `minutes` ago on, in buckets of `bucket_seconds`. Times and
widths are in microseconds; the remainders and the floored times of the floats are exact.
-/

namespace Hailcast

structure TrafficPoint where
  timestamp : Int
  requests : Int

/-- `TrafficPoint(timestamp=..., requests=...)`, whose `requests` is an `int`. -/
def TrafficPoint.ofNumber (timestamp : Int) : ExtRat → Except PyError TrafficPoint
  | .fin requests =>
      if requests.den = 1 then .ok ⟨timestamp, requests.num⟩ else .error (.validationError "requests")
  | _ => .error (.validationError "requests")

namespace Traffic

def rebucket (since width : Int) : Dict Int ExtRat → List Json → Except PyError (Dict Int ExtRat)
  | rebucketed, [] => .ok rebucketed
  | rebucketed, point :: raw => do
      let stamp ← point.index "timestamp" >>= fromisoformat
      let early ← stamp.before since
      if 0 < early then rebucket since width rebucketed raw
      else
        let epoch := timestamp stamp - timestamp stamp % width
        let requests ← point.index "requests" >>= Json.toNumber
        rebucket since width (rebucketed.set epoch ((rebucketed.get? epoch).getD 0 + requests)) raw

/-- `DashboardService.traffic_history` -/
def trafficHistory (minutes bucketSeconds : Int) : StoreM (List TrafficPoint) := do
  let body ← FileStore.readJson trafficHistoryKey
  let raw ← Prog.ofExcept (listOrEmpty .typeError body)
  let now ← storeRequest .now
  let since := now - timedeltaMinutes minutes
  let width := bucketSeconds * 1000000
  let rebucketed ← Prog.ofExcept (rebucket since width Dict.empty raw)
  let first := since - since % width
  let count := (minutes * 60 / bucketSeconds + 1).toNat
  Prog.ofExcept ((List.range count).mapM fun i : ℕ =>
    TrafficPoint.ofNumber (first + i * width) ((rebucketed.get? (first + i * width)).getD 0))

/-! ## The sum of the buckets -/

/-- The requests of the points from the one time to the other, both included. -/
def requestsBetween (start stop : Int) (buckets : List TrafficBucket) : Int :=
  ((buckets.filter (fun b => start ≤ b.time ∧ b.time ≤ stop)).map TrafficBucket.total).sum

/-- The requests of the points since then whose bucket starts at `epoch`. -/
def bucketTotal (since width epoch : Int) (buckets : List TrafficBucket) : Int :=
  ((buckets.filter (fun b => since ≤ b.time ∧ b.time - b.time % width = epoch)).map TrafficBucket.total).sum

variable {since width : Int}

theorem sum_filter_cons (p : TrafficBucket → Prop) [DecidablePred p] (b : TrafficBucket)
    (buckets : List TrafficBucket) :
    (((b :: buckets).filter (fun b => p b)).map TrafficBucket.total).sum =
      (if p b then b.total else 0) + ((buckets.filter (fun b => p b)).map TrafficBucket.total).sum := by
  by_cases h : p b <;> simp [h]

theorem rebucket_points (since width : Int) (rebucketed : Dict Int ExtRat) (buckets : List TrafficBucket) :
    ∃ rebucketed', rebucket since width rebucketed (buckets.map TrafficBucket.point) = .ok rebucketed' ∧
      ∀ epoch, (rebucketed'.get? epoch).getD 0 =
        (rebucketed.get? epoch).getD 0 + .fin (bucketTotal since width epoch buckets) := by
  induction buckets generalizing rebucketed with
  | nil => exact ⟨rebucketed, rfl, fun epoch => (ExtRat.add_fin_zero _).symm⟩
  | cons b buckets ih =>
      have hstamp : b.point.index "timestamp" = .ok (isoformat b.time) := rfl
      have hrequests : b.point.index "requests" = .ok (.num b.total) := rfl
      simp only [List.map_cons, rebucket, hstamp, hrequests, bind, Except.bind, fromisoformat_isoformat, Stamp.before,
        Json.toNumber, timestamp]
      by_cases hearly : 0 < since - b.time
      · obtain ⟨rebucketed', hok, hsum⟩ := ih rebucketed
        refine ⟨rebucketed', by rw [if_pos hearly, hok], fun epoch => ?_⟩
        have hout : ¬ (since ≤ b.time ∧ b.time - b.time % width = epoch) := by omega
        rw [hsum, bucketTotal, bucketTotal, sum_filter_cons, if_neg hout, zero_add]
      · obtain ⟨rebucketed', hok, hsum⟩ := ih (rebucketed.set (b.time - b.time % width)
          ((rebucketed.get? (b.time - b.time % width)).getD 0 + .fin b.total))
        refine ⟨rebucketed', by rw [if_neg hearly, hok], fun epoch => ?_⟩
        rw [hsum, Dict.get?_set, bucketTotal, bucketTotal, sum_filter_cons]
        by_cases hepoch : b.time - b.time % width = epoch
        · rw [if_pos hepoch, if_pos ⟨by omega, hepoch⟩, hepoch]
          push_cast
          rw [Option.getD_some, ExtRat.add_fin_fin]
        · rw [if_neg hepoch, if_neg fun h => hepoch h.2, zero_add]

theorem mapM_ofNumber (time requests : ℕ → Int) (indices : List ℕ) :
    indices.mapM (fun i => TrafficPoint.ofNumber (time i) (.fin (requests i))) =
      .ok (indices.map fun i => ⟨time i, requests i⟩) := by
  rw [mapM_eq_ok_iff, List.forall₂_map_right_iff, List.forall₂_same]
  intro i _
  simp [TrafficPoint.ofNumber]

theorem sum_range_ite (n k : ℕ) (r : Int) :
    ((List.range n).map fun i => if k = i then r else 0).sum = if k < n then r else 0 := by
  induction n with
  | zero => simp
  | succ n ih =>
      rw [List.range_succ, List.map_append, List.sum_append, ih]
      simp only [List.map_cons, List.map_nil, List.sum_singleton]
      split_ifs <;> omega

/-- The buckets cover the points up to the end of the last one. -/
theorem sum_bucketTotal (since : Int) (hwidth : 0 < width) (n : ℕ) (buckets : List TrafficBucket) :
    ((List.range n).map fun i : ℕ => bucketTotal since width (since - since % width + i * width) buckets).sum =
      requestsBetween since (since - since % width + n * width - 1) buckets := by
  induction buckets with
  | nil => simp [bucketTotal, requestsBetween]
  | cons b buckets ih =>
      simp only [bucketTotal, requestsBetween] at ih ⊢
      simp only [sum_filter_cons]
      rw [List.sum_map_add, ih]
      congr 1
      by_cases hsince : since ≤ b.time
      · -- the bucket of the point is the one with this number
        obtain ⟨k, hk⟩ := Int.eq_ofNat_of_zero_le (sub_nonneg.mpr (Int.ediv_le_ediv hwidth hsince))
        have hepoch : ∀ i : ℕ, b.time - b.time % width = since - since % width + i * width ↔ k = i := by
          intro i
          have htime := Int.emod_add_mul_ediv b.time width
          have hstart := Int.emod_add_mul_ediv since width
          have hcancel : width * (b.time / width) = width * (since / width + i) ↔ k = i := by
            rw [Int.mul_eq_mul_left_iff hwidth.ne']
            omega
          rw [← hcancel, mul_add, mul_comm width (i : Int)]
          constructor <;> intro h <;> linarith
        have hend : b.time ≤ since - since % width + n * width - 1 ↔ k < n := by
          have htime := Int.emod_add_mul_ediv b.time width
          have hstart := Int.emod_add_mul_ediv since width
          have hlt : b.time / width < since / width + n ↔ b.time < (since / width + n) * width :=
            Int.ediv_lt_iff_lt_mul hwidth
          rw [show k < n ↔ b.time / width < since / width + n by omega, hlt, add_mul]
          rw [mul_comm width] at hstart
          constructor <;> intro h <;> omega
        simp only [hsince, true_and, hepoch, hend]
        exact sum_range_ite n k b.total
      · simp [hsince]

/-! ## One call -/

variable {env : StoreEnv} {s : S3State} {buckets : List TrafficBucket}

/-- Where the last of the buckets ends. -/
def bucketsEnd (since window width : Int) : Int := since - since % width + (window / width + 1) * width

theorem bucketCount (minutes : Int) {bucketSeconds : Int} (hm : 0 ≤ minutes) (hb : 0 < bucketSeconds) :
    (((minutes * 60 / bucketSeconds + 1).toNat : ℕ) : Int) =
      timedeltaMinutes minutes / (bucketSeconds * 1000000) + 1 := by
  have hscale : timedeltaMinutes minutes = minutes * 60 * 1000000 := by unfold timedeltaMinutes; ring
  have hcount : 0 ≤ minutes * 60 / bucketSeconds := Int.ediv_nonneg (by omega) hb.le
  rw [hscale, Int.mul_ediv_mul_of_pos_left _ _ (by decide)]
  omega

theorem exec_trafficHistory (hw : env.Working) (hs : StoredPoints s (buckets.map TrafficBucket.point))
    {minutes bucketSeconds : Int} (hm : 0 ≤ minutes) (hb : 0 < bucketSeconds) :
    let since := env.clock - timedeltaMinutes minutes
    let width := bucketSeconds * 1000000
    ∃ points, s.exec env (trafficHistory minutes bucketSeconds) = (.ok points, s) ∧
      points.map TrafficPoint.timestamp =
        (List.range (minutes * 60 / bucketSeconds + 1).toNat).map (fun i : ℕ => since - since % width + i * width) ∧
      (points.map TrafficPoint.requests).sum =
        requestsBetween since (bucketsEnd since (timedeltaMinutes minutes) width - 1) buckets := by
  intro since width
  obtain ⟨body, hbody, hlist⟩ := S3State.StoredList.load hs .typeError
  obtain ⟨rebucketed, hrebucket, hsum⟩ := rebucket_points since width Dict.empty buckets
  have hget : ∀ epoch, (rebucketed.get? epoch).getD 0 = .fin (bucketTotal since width epoch buckets) := fun epoch => by
    rw [hsum, Dict.get?_empty, Option.getD_none, ExtRat.zero_eq, ExtRat.fin_add, zero_add]
  have hexec : s.exec env (trafficHistory minutes bucketSeconds) =
      (.ok ((List.range (minutes * 60 / bucketSeconds + 1).toNat).map fun i : ℕ =>
        ⟨since - since % width + i * width,
          bucketTotal since width (since - since % width + i * width) buckets⟩), s) := by
    have hread := S3State.exec_readJson_working hw s trafficHistoryKey
    rw [hbody] at hread
    unfold S3State.exec at hread
    unfold S3State.exec trafficHistory storeRequest
    rw [Prog.exec_bind, hread]
    simp only [hlist, Prog.ofExcept_ok, Prog.ret_bind, Prog.exec_bind, Prog.exec_perform, S3State.handler_working hw,
      S3State.answer]
    simp only [since, width] at hrebucket hget ⊢
    simp only [hrebucket, Prog.exec_ofExcept, hget, mapM_ofNumber]
  refine ⟨_, hexec, by rw [List.map_map]; rfl, ?_⟩
  have hsum := sum_bucketTotal since (show 0 < width by simp only [width]; omega)
    (minutes * 60 / bucketSeconds + 1).toNat buckets
  rw [bucketCount minutes hm hb] at hsum
  rw [List.map_map]
  exact hsum

theorem requestsBetween_append (buckets : List TrafficBucket) {start mid stop : Int} (h : start ≤ mid + 1)
    (h' : mid ≤ stop) :
    requestsBetween start stop buckets =
      requestsBetween start mid buckets + requestsBetween (mid + 1) stop buckets := by
  induction buckets with
  | nil => rfl
  | cons b buckets ih =>
      simp only [requestsBetween] at ih ⊢
      rw [sum_filter_cons, sum_filter_cons, sum_filter_cons, ih]
      split_ifs <;> omega

/-- The buckets end before now exactly if the remainders of the start and of the window together fill one. -/
theorem bucketsEnd_le_iff (since window width : Int) :
    bucketsEnd since window width ≤ since + window ↔ width ≤ since % width + window % width := by
  have hwindow := Int.emod_add_mul_ediv window width
  unfold bucketsEnd
  rw [add_mul, one_mul, mul_comm (window / width)]
  constructor <;> intro h <;> linarith

theorem le_bucketsEnd (since : Int) {window width : Int} (hwindow : 0 ≤ window) (hwidth : 0 < width) :
    since ≤ bucketsEnd since window width := by
  have hcount := Int.ediv_nonneg hwindow hwidth.le
  have hrest := Int.emod_lt_of_pos since hwidth
  unfold bucketsEnd
  nlinarith

theorem requestsBetween_bucketsEnd_iff (buckets : List TrafficBucket) (since : Int) {window width : Int}
    (hwindow : 0 ≤ window) (hwidth : 0 < width) :
    requestsBetween since (bucketsEnd since window width - 1) buckets =
        requestsBetween since (since + window) buckets ↔
      if width ≤ since % width + window % width then
        requestsBetween (bucketsEnd since window width) (since + window) buckets = 0
      else requestsBetween (since + window + 1) (bucketsEnd since window width - 1) buckets = 0 := by
  have hends := bucketsEnd_le_iff since window width
  have hstart := le_bucketsEnd since hwindow hwidth
  split
  · rename_i hshort
    have hsplit := requestsBetween_append buckets (show since ≤ bucketsEnd since window width - 1 + 1 by omega)
      (show bucketsEnd since window width - 1 ≤ since + window by have := hends.mpr hshort; omega)
    rw [sub_add_cancel] at hsplit
    rw [hsplit]
    exact left_eq_add
  · rename_i hlong
    have hsplit := requestsBetween_append buckets (show since ≤ since + window + 1 by omega)
      (show since + window ≤ bucketsEnd since window width - 1 by have := mt hends.mp hlong; omega)
    rw [hsplit]
    exact add_eq_left

end Traffic

end Hailcast
