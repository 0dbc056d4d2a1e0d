import Hailcast.History.Snapshots
import Hailcast.Store.Working

/-!
# PodForecastService.pod_forecast

The hours of the dashboard: the past ones from the stored snapshots, the current one and the later ones from the
prediction document.
-/

namespace Hailcast

structure PodForecastPoint where
  timestamp : Int
  predicted : Option Int := none
  actual : Option Int := none

/-- The text of an integer as the schema reads it, without the digits and blanks beyond ASCII: `"3.0"` and `"3."`
are 3. -/
def wholeText (s : String) : Option Int :=
  match s.trimAscii.toString.splitOn "." with
  | [whole] => whole.toInt?
  | [whole, rest] => if rest.all (· == '0') then whole.toInt? else none
  | _ => none

/-- What the schema makes of a value for `int | None`. -/
def optionalInt (field : String) : Json → Except PyError (Option Int)
  | .null => .ok none
  | .bool b => .ok (some (if b then 1 else 0))
  | .num q => if q.den = 1 then .ok (some q.num) else .error (.validationError field)
  | .str (.text s) =>
      match wholeText s with
      | some n => .ok (some n)
      | none => .error (.validationError field)
  | _ => .error (.validationError field)

/-- `PodForecastPoint(timestamp=..., predicted=predicted, actual=actual)` -/
def PodForecastPoint.ofValues (timestamp : Int) (predicted actual : Json) : Except PyError PodForecastPoint := do
  let predicted ← optionalInt "predicted" predicted
  let actual ← optionalInt "actual" actual
  return ⟨timestamp, predicted, actual⟩

/-- The instant that an aware time is compared by. -/
def Stamp.instant : Stamp → Except PyError Int
  | .aware t => .ok t
  | .naive _ => .error .typeError

namespace PodForecast

def historyByBucket (start nowBucket : Int) (byBucket : Dict Int (Json × Json)) :
    List Json → Except PyError (Dict Int (Json × Json))
  | [] => .ok byBucket
  | h :: history => do
      let bucketTime ← (← fromisoformat (← h.index "bucket_time")).instant
      if start ≤ bucketTime ∧ bucketTime ≤ nowBucket then
        let predicted ← h.index "predicted_replicas"
        let actual ← h.index "actual_replicas"
        historyByBucket start nowBucket (byBucket.set bucketTime (predicted, actual)) history
      else historyByBucket start nowBucket byBucket history

def totalsByTarget : Option PredictionDocument → Dict Int ExtRat
  | some document => groupByTargetTime document
  | none => Dict.empty

/-- `try: actual = self._keda.get_actual_replicas()`, with `None` for every exception -/
def actualReplicas : StoreM (Option Int) :=
  tryCatch (do return some (← storeRequest .getActualReplicas)) (fun _ => return none)

/-- `for offset in range(-hours_history, hours_forecast + 1)` -/
def offsets (hoursHistory hoursForecast : Int) : List Int :=
  (List.range (hoursForecast + 1 + hoursHistory).toNat).map (fun i : ℕ => (i : Int) - hoursHistory)

/-- The point of one offset. -/
def point (cfg : PredictSettings) (nowBucket : Int) (byBucket : Dict Int (Json × Json))
    (document : Option PredictionDocument) (offset : Int) : StoreM PodForecastPoint := do
  let bucket := nowBucket + offset * hourMicros
  if bucket < nowBucket then
    let (predicted, actual) := (byBucket.get? bucket).getD (.null, .null)
    Prog.ofExcept (PodForecastPoint.ofValues bucket predicted actual)
  else if bucket = nowBucket then
    let predicted ← Prog.ofExcept (predictedForBucket cfg document bucket)
    let actual ← actualReplicas
    return ⟨bucket, predicted, actual⟩
  else
    match nearestTotal cfg (totalsByTarget document) bucket with
    | some demand =>
        let predicted ← Prog.ofExcept (predictedReplicasFor cfg demand)
        return ⟨bucket, some predicted, none⟩
    | none => return ⟨bucket, none, none⟩

def podForecast (cfg : PredictSettings) (hoursHistory hoursForecast : Int) : StoreM (List PodForecastPoint) := do
  let time ← storeRequest .now
  let nowBucket := floorToHour time
  let start := nowBucket - hoursHistory * hourMicros
  let body ← FileStore.readJson podHistoryKey
  let history ← Prog.ofExcept (listOrEmpty .typeError body)
  let byBucket ← Prog.ofExcept (historyByBucket start nowBucket Dict.empty history)
  let document ← storeRequest .readLatest
  Prog.foldEach (fun points offset => do
    let point ← point cfg nowBucket byBucket document offset
    return points ++ [point]) [] (offsets hoursHistory hoursForecast)

/-! ## The stored snapshots by their hour -/

variable {cfg : PredictSettings} {env : StoreEnv} {s : S3State} {stored : List PodSnapshot}

theorem optionalInt_intOrNull (field : String) (n : Option Int) :
    optionalInt field (PodHistory.intOrNull n) = .ok n := by
  cases n with
  | none => rfl
  | some n => simp [PodHistory.intOrNull, optionalInt]

/-- A value that `history_by_bucket` has for an hour is that of its snapshot. -/
theorem historyByBucket_json (start nowBucket : Int) (hsorted : LatestKeys.Sorted PodSnapshot.bucket stored)
    (before : Dict Int (Json × Json)) :
    ∃ byBucket, historyByBucket start nowBucket before (stored.map PodSnapshot.json) = .ok byBucket ∧
      (∀ x ∈ stored, start ≤ x.bucket → x.bucket ≤ nowBucket →
        byBucket.get? x.bucket = some (PodHistory.intOrNull x.predicted, PodHistory.intOrNull x.actual)) ∧
      ∀ bucket, (∀ x ∈ stored, x.bucket ≠ bucket) → byBucket.get? bucket = before.get? bucket := by
  induction stored generalizing before with
  | nil => exact ⟨before, rfl, by simp, fun _ _ => rfl⟩
  | cons y stored ih =>
      obtain ⟨hy, hrest⟩ := List.pairwise_cons.mp hsorted
      have hfresh : ∀ x ∈ stored, x.bucket ≠ y.bucket := fun x hx => (hy x hx).ne'
      by_cases hin : start ≤ y.bucket ∧ y.bucket ≤ nowBucket
      · obtain ⟨byBucket, hexec, hmem, hout⟩ :=
          ih hrest (before.set y.bucket (PodHistory.intOrNull y.predicted, PodHistory.intOrNull y.actual))
        refine ⟨byBucket, ?_, ?_, ?_⟩
        · rw [← hexec, List.map_cons, historyByBucket]
          simp only [PodHistory.index_json, bind, Except.bind, fromisoformat_isoformat, Stamp.instant, hin, and_self,
            ↓reduceIte]
          rfl
        · intro x hx hstart hstop
          rcases List.mem_cons.mp hx with rfl | hx
          · rw [hout _ hfresh, Dict.get?_set, if_pos rfl]
          · exact hmem x hx hstart hstop
        · intro bucket hbucket
          rw [hout _ fun x hx => hbucket x (List.mem_cons_of_mem _ hx), Dict.get?_set,
            if_neg (hbucket y List.mem_cons_self)]
      · obtain ⟨byBucket, hexec, hmem, hout⟩ := ih hrest before
        refine ⟨byBucket, ?_, ?_, ?_⟩
        · rw [← hexec, List.map_cons, historyByBucket]
          simp only [PodHistory.index_json, bind, Except.bind, fromisoformat_isoformat, Stamp.instant, hin, ↓reduceIte]
        · intro x hx hstart hstop
          rcases List.mem_cons.mp hx with rfl | hx
          · exact absurd ⟨hstart, hstop⟩ hin
          · exact hmem x hx hstart hstop
        · exact fun bucket hbucket => hout bucket fun x hx => hbucket x (List.mem_cons_of_mem _ hx)

/-! ## Target times on the hour -/

def HourAligned (document : Option PredictionDocument) : Prop :=
  ∀ d ∈ document, ∀ item ∈ d.predictions, item.targetTime % hourMicros = 0

/-- The summed demand of the items for exactly this time, if there is one. -/
def exactTotal (document : Option PredictionDocument) (time : Int) : Option ExtRat :=
  match document with
  | some document => if (document.itemsAt time).isEmpty then none else some (document.sumAt time)
  | none => none

/-- `decide` of that demand. -/
def predictedAt (cfg : PredictSettings) (document : Option PredictionDocument) (time : Int) :
    Except PyError (Option Int) :=
  match exactTotal document time with
  | some demand => some <$> predictedReplicasFor cfg demand
  | none => .ok none

variable {document : Option PredictionDocument} {bucket : Int}

theorem mem_keys_iff {d : PredictionDocument} {time : Int} :
    time ∈ (groupByTargetTime d).keys ↔ (d.itemsAt time).isEmpty = false := by
  rw [keys_groupByTargetTime, mem_keys_currentTotals]
  simp [PredictionDocument.itemsAt]

/-- The nearest of the target times is the hour itself, or at least an hour away. -/
theorem nearestTotal_aligned (hwindow : cfg.predictionWindowMinutes = 60) (haligned : HourAligned document)
    (hbucket : bucket % hourMicros = 0) :
    nearestTotal cfg (totalsByTarget document) bucket = exactTotal document bucket := by
  cases document with
  | none => rfl
  | some d =>
      simp only [nearestTotal, totalsByTarget, exactTotal, hwindow]
      cases hc : closestTo bucket (groupByTargetTime d).keys with
      | none =>
          have hkeys : (groupByTargetTime d).keys = [] := List.argmin_eq_none.mp hc
          have hempty : (d.itemsAt bucket).isEmpty = true := by
            have hmem : bucket ∈ (groupByTargetTime d).keys ↔ (d.itemsAt bucket).isEmpty = false := mem_keys_iff
            rw [hkeys] at hmem
            simpa using hmem
          simp [hempty]
      | some closest =>
          have hmem := closestTo_mem hc
          have htarget : closest % hourMicros = 0 := by
            rw [keys_groupByTargetTime] at hmem
            obtain ⟨item, hitem, rfl⟩ := mem_keys_currentTotals.mp hmem
            exact haligned d rfl item hitem
          by_cases heq : closest = bucket
          · subst heq
            have htotal := get?_groupByTargetTime (keys_groupByTargetTime d ▸ hmem)
            simp [mem_keys_iff.mp hmem, htotal, timedeltaMinutes]
          · have hout : bucket ∉ (groupByTargetTime d).keys := fun hin => by
              have hle := List.le_of_mem_argmin hin hc
              simp only [sub_self, Int.natAbs_zero] at hle
              omega
            have hempty : (d.itemsAt bucket).isEmpty = true := by
              simpa using mt mem_keys_iff.mpr hout
            have hfar : timedeltaMinutes 60 ≤ (closest - bucket).natAbs := by
              unfold timedeltaMinutes
              unfold hourMicros at htarget hbucket
              omega
            rw [hempty]
            exact if_pos hfar

theorem predictedForBucket_aligned (hwindow : cfg.predictionWindowMinutes = 60) (haligned : HourAligned document)
    (hbucket : bucket % hourMicros = 0) : predictedForBucket cfg document bucket = predictedAt cfg document bucket := by
  have hnearest := nearestTotal_aligned hwindow haligned hbucket
  cases document with
  | none => rfl
  | some d =>
      simp only [totalsByTarget] at hnearest
      simp only [predictedForBucket, predictedAt, hnearest]
      cases exactTotal (some d) bucket <;> rfl

/-- The load of an hour, in pods, is a finite float. -/
def FiniteLoad (cfg : PredictSettings) (document : Option PredictionDocument) (time : Int) : Prop :=
  ∀ demand, exactTotal document time = some demand →
    ∃ quotient, (demand / .fin cfg.scalingDemandPerPod).toFloat = .fin quotient

theorem exactTotal_nonneg {demand : ExtRat} {time : Int} (h : exactTotal document time = some demand) :
    demand.AtLeast 0 := by
  cases document with
  | none => cases h
  | some d =>
      simp only [exactTotal] at h
      split at h
      · cases h
      · exact Option.some.inj h ▸ sumAt_nonneg d time

/-- Pods that carry some demand and a positive minimum give every hour a value, unless its load is too large for a
float. -/
theorem predictedAt_ok (hpod : 0 < cfg.scalingDemandPerPod) (hmin : 1 ≤ cfg.scalingMinReplicas)
    (document : Option PredictionDocument) (time : Int) :
    (∃ predicted, predictedAt cfg document time = .ok predicted) ∨
      predictedAt cfg document time = .error .overflowError ∧ ¬ FiniteLoad cfg document time := by
  unfold predictedAt
  cases htotal : exactTotal document time with
  | none => exact Or.inl ⟨none, rfl⟩
  | some demand =>
      have hdemand := exactTotal_nonneg htotal
      rcases ScalingDecisionEngine.decideFloat_total (e := cfg.engine) hpod hmin hdemand with
        ⟨replicas, hok⟩ | ⟨herror, hinf⟩
      · refine Or.inl ⟨some replicas, ?_⟩
        simp only [predictedReplicasFor, hok]
        rfl
      · refine Or.inr ⟨by simp only [predictedReplicasFor, herror]; rfl, fun hfinite => ?_⟩
        obtain ⟨quotient, hquotient⟩ := hfinite demand htotal
        exact hinf quotient hquotient

/-! ## One call -/

/-- What the dashboard shows at a point. -/
structure Shows (cfg : PredictSettings) (env : StoreEnv) (stored : List PodSnapshot) (p : PodForecastPoint) : Prop where
  past : p.timestamp < floorToHour env.clock →
    (∃ x ∈ stored, x.bucket = p.timestamp ∧ p.predicted = x.predicted ∧ p.actual = x.actual) ∨
      (∀ x ∈ stored, x.bucket ≠ p.timestamp) ∧ p.predicted = none ∧ p.actual = none
  predicted : floorToHour env.clock ≤ p.timestamp → predictedAt cfg env.latest p.timestamp = .ok p.predicted
  current : p.timestamp = floorToHour env.clock →
    p.actual = if (env.fault .getActualReplicas).isNone then some env.actualReplicas else none
  future : floorToHour env.clock < p.timestamp → p.actual = none

/-- Every request answers, apart from the one for the actual replicas. -/
def Answers (env : StoreEnv) : Prop := ∀ o, o ≠ .getActualReplicas → env.fault o = none

theorem exec_actualReplicas (env : StoreEnv) (s : S3State) :
    s.exec env actualReplicas =
      (.ok (if (env.fault .getActualReplicas).isNone then some env.actualReplicas else none), s) := by
  rw [actualReplicas, PodHistory.exec_getActual]
  cases env.fault .getActualReplicas <;> rfl

theorem floorToHour_aligned (t : Int) : floorToHour t % hourMicros = 0 := by
  unfold floorToHour hourMicros
  omega

/-- The value of the point of an offset, from the three sources. -/
def pointValue (cfg : PredictSettings) (env : StoreEnv) (byBucket : Dict Int (Json × Json)) (offset : Int) :
    Except PyError PodForecastPoint :=
  let bucket := floorToHour env.clock + offset * hourMicros
  if offset < 0 then
    PodForecastPoint.ofValues bucket ((byBucket.get? bucket).getD (.null, .null)).1
      ((byBucket.get? bucket).getD (.null, .null)).2
  else
    (fun predicted => ⟨bucket, predicted,
      if offset = 0 ∧ (env.fault .getActualReplicas).isNone then some env.actualReplicas else none⟩) <$>
      predictedAt cfg env.latest bucket

theorem exec_point (hwindow : cfg.predictionWindowMinutes = 60) (haligned : HourAligned env.latest)
    (byBucket : Dict Int (Json × Json)) (offset : Int) (s : S3State) :
    s.exec env (point cfg (floorToHour env.clock) byBucket env.latest offset) =
      (pointValue cfg env byBucket offset, s) := by
  have hbucket : (floorToHour env.clock + offset * hourMicros) % hourMicros = 0 := by
    rw [Int.add_mul_emod_self_right]
    exact floorToHour_aligned env.clock
  have hactual := exec_actualReplicas env s
  unfold S3State.exec at hactual ⊢
  unfold point pointValue
  rcases lt_trichotomy offset 0 with hlt | rfl | hgt
  · have hpast : floorToHour env.clock + offset * hourMicros < floorToHour env.clock := by
      unfold hourMicros
      omega
    simp only [hpast, hlt, ↓reduceIte, Prog.exec_ofExcept]
  · simp only [zero_mul, add_zero, lt_irrefl, ↓reduceIte, true_and, Prog.exec_bind, Prog.exec_ofExcept,
      predictedForBucket_aligned hwindow haligned (floorToHour_aligned _)]
    cases predictedAt cfg env.latest (floorToHour env.clock) with
    | error e => rfl
    | ok predicted =>
        simp only [hactual]
        rfl
  · have hfuture : ¬ floorToHour env.clock + offset * hourMicros < floorToHour env.clock ∧
        ¬ floorToHour env.clock + offset * hourMicros = floorToHour env.clock := by
      unfold hourMicros
      omega
    simp only [hfuture, not_lt.mpr hgt.le, hgt.ne', false_and, ↓reduceIte,
      nearestTotal_aligned hwindow haligned hbucket, predictedAt]
    cases exactTotal env.latest (floorToHour env.clock + offset * hourMicros) with
    | none => rfl
    | some demand =>
        simp only [Prog.exec_bind, Prog.exec_ofExcept]
        cases predictedReplicasFor cfg demand <;> rfl

/-- A past hour has its snapshot, or nothing. -/
theorem pointValue_past (cfg : PredictSettings) {byBucket : Dict Int (Json × Json)} {hoursHistory offset : Int}
    (hmem : ∀ x ∈ stored, floorToHour env.clock - hoursHistory * hourMicros ≤ x.bucket →
      x.bucket ≤ floorToHour env.clock →
      byBucket.get? x.bucket = some (PodHistory.intOrNull x.predicted, PodHistory.intOrNull x.actual))
    (hout : ∀ bucket, (∀ x ∈ stored, x.bucket ≠ bucket) → byBucket.get? bucket = none)
    (hoffset : -hoursHistory ≤ offset) (hlt : offset < 0) :
    ∃ p, pointValue cfg env byBucket offset = .ok p ∧ p.timestamp = floorToHour env.clock + offset * hourMicros ∧
      ((∃ x ∈ stored, x.bucket = p.timestamp ∧ p.predicted = x.predicted ∧ p.actual = x.actual) ∨
        (∀ x ∈ stored, x.bucket ≠ p.timestamp) ∧ p.predicted = none ∧ p.actual = none) := by
  unfold pointValue
  simp only [hlt, ↓reduceIte]
  by_cases hstored : ∃ x ∈ stored, x.bucket = floorToHour env.clock + offset * hourMicros
  · obtain ⟨x, hx, hbucket⟩ := hstored
    have hget := hmem x hx (by rw [hbucket]; unfold hourMicros; omega) (by rw [hbucket]; unfold hourMicros; omega)
    refine ⟨⟨x.bucket, x.predicted, x.actual⟩, ?_, hbucket, Or.inl ⟨x, hx, rfl, rfl, rfl⟩⟩
    rw [← hbucket, hget]
    simp only [Option.getD_some, PodForecastPoint.ofValues, optionalInt_intOrNull]
    rfl
  · have hnone : ∀ x ∈ stored, x.bucket ≠ floorToHour env.clock + offset * hourMicros := by simpa using hstored
    refine ⟨⟨floorToHour env.clock + offset * hourMicros, none, none⟩, ?_, rfl, Or.inr ⟨hnone, rfl, rfl⟩⟩
    rw [hout _ hnone]
    rfl

/-- The point of an offset shows what it should, or `decide` raises for its hour. -/
theorem shows_point (cfg : PredictSettings) {byBucket : Dict Int (Json × Json)} {hoursHistory offset : Int}
    (hmem : ∀ x ∈ stored, floorToHour env.clock - hoursHistory * hourMicros ≤ x.bucket →
      x.bucket ≤ floorToHour env.clock →
      byBucket.get? x.bucket = some (PodHistory.intOrNull x.predicted, PodHistory.intOrNull x.actual))
    (hout : ∀ bucket, (∀ x ∈ stored, x.bucket ≠ bucket) → byBucket.get? bucket = none)
    (hoffset : -hoursHistory ≤ offset) :
    (∃ p, pointValue cfg env byBucket offset = .ok p ∧ p.timestamp = floorToHour env.clock + offset * hourMicros ∧
        Shows cfg env stored p) ∨
      ∃ exc, pointValue cfg env byBucket offset = .error exc ∧ 0 ≤ offset ∧
        predictedAt cfg env.latest (floorToHour env.clock + offset * hourMicros) = .error exc := by
  rcases lt_or_ge offset 0 with hlt | hge
  · obtain ⟨p, hp, htime, hpast⟩ := pointValue_past cfg hmem hout hoffset hlt
    have hbefore : p.timestamp < floorToHour env.clock := by
      rw [htime]
      unfold hourMicros
      omega
    exact Or.inl ⟨p, hp, htime, fun _ => hpast, fun h => by omega, fun h => by omega, fun h => by omega⟩
  · unfold pointValue
    simp only [not_lt.mpr hge, ↓reduceIte]
    cases hpredicted : predictedAt cfg env.latest (floorToHour env.clock + offset * hourMicros) with
    | error exc => exact Or.inr ⟨exc, rfl, hge, rfl⟩
    | ok predicted =>
        refine Or.inl ⟨_, rfl, rfl, ?_, fun _ => hpredicted, ?_, ?_⟩
        · intro htime
          simp only [hourMicros] at htime
          omega
        · intro htime
          have hzero : offset = 0 := by
            simp only [hourMicros] at htime
            omega
          simp [hzero]
        · intro htime
          have hne : offset ≠ 0 := by
            rintro rfl
            simp at htime
          simp [hne]

theorem shows_points {value : Int → Except PyError PodForecastPoint} {nowBucket : Int} {offsets : List Int}
    {points : List PodForecastPoint} (hall : List.Forall₂ (fun offset p => value offset = .ok p) offsets points)
    (hshows : ∀ offset ∈ offsets, ∀ p, value offset = .ok p →
      p.timestamp = nowBucket + offset * hourMicros ∧ Shows cfg env stored p) :
    points.map PodForecastPoint.timestamp = offsets.map (fun offset => nowBucket + offset * hourMicros) ∧
      ∀ p ∈ points, Shows cfg env stored p := by
  induction hall with
  | nil => simp
  | cons hpoint hrest ih =>
      obtain ⟨htimes, hrest⟩ := ih fun offset hoffset => hshows offset (List.mem_cons_of_mem _ hoffset)
      obtain ⟨htime, hshow⟩ := hshows _ List.mem_cons_self _ hpoint
      refine ⟨by rw [List.map_cons, List.map_cons, htime, htimes], ?_⟩
      simpa using ⟨hshow, hrest⟩

theorem exec_podForecast (hanswers : Answers env) (hwindow : cfg.predictionWindowMinutes = 60)
    (haligned : HourAligned env.latest) (hstored : s.StoredList podHistoryKey (stored.map PodSnapshot.json))
    (hsorted : LatestKeys.Sorted PodSnapshot.bucket stored) (hoursHistory hoursForecast : Int) :
    (∃ points, s.exec env (podForecast cfg hoursHistory hoursForecast) = (.ok points, s) ∧
        points.map PodForecastPoint.timestamp =
          (offsets hoursHistory hoursForecast).map (fun offset => floorToHour env.clock + offset * hourMicros) ∧
        ∀ p ∈ points, Shows cfg env stored p) ∨
      ∃ offset ∈ offsets hoursHistory hoursForecast, ∃ exc, 0 ≤ offset ∧
        predictedAt cfg env.latest (floorToHour env.clock + offset * hourMicros) = .error exc ∧
        s.exec env (podForecast cfg hoursHistory hoursForecast) = (.error exc, s) := by
  obtain ⟨body, hload, hlist⟩ := hstored.load .typeError
  obtain ⟨byBucket, hhistory, hmem, hout⟩ :=
    historyByBucket_json (floorToHour env.clock - hoursHistory * hourMicros) (floorToHour env.clock) hsorted Dict.empty
  have hloop : s.exec env (podForecast cfg hoursHistory hoursForecast) =
      s.exec env (Prog.foldEach (fun points offset =>
        point cfg (floorToHour env.clock) byBucket env.latest offset >>= fun point => .ret (points ++ [point])) []
        (offsets hoursHistory hoursForecast)) := by
    have hread := S3State.exec_readJson_answered (hanswers (.headObject podHistoryKey) (by simp))
      (hanswers (.getObject podHistoryKey) (by simp)) s
    rw [hload] at hread
    unfold S3State.exec at hread ⊢
    unfold podForecast storeRequest
    simp only [Prog.exec_bind, Prog.exec_perform, S3State.handler, hanswers .now (by simp), S3State.answer, hread,
      Prog.exec_ofExcept, hlist, hhistory, hanswers .readLatest (by simp)]
    rfl
  have hvalue : ∀ offset ∈ offsets hoursHistory hoursForecast, -hoursHistory ≤ offset := by
    intro offset hoffset
    obtain ⟨i, _, rfl⟩ := List.mem_map.mp hoffset
    omega
  rw [hloop]
  rcases Prog.exec_collect (fun offset => exec_point hwindow haligned byBucket offset s)
    (offsets hoursHistory hoursForecast) [] with ⟨points, hexec, hall⟩ | ⟨offset, hoffset, exc, herror, hexec⟩
  · refine Or.inl ⟨points, hexec, shows_points hall fun offset hoffset p hpoint => ?_⟩
    rcases shows_point cfg hmem hout (hvalue offset hoffset) with ⟨p', hp, htime, hshow⟩ | ⟨exc, he, _⟩
    · obtain rfl := Except.ok.inj (hp.symm.trans hpoint)
      exact ⟨htime, hshow⟩
    · cases he.symm.trans hpoint
  · rcases shows_point cfg hmem hout (hvalue offset hoffset) with ⟨p, hp, _⟩ | ⟨exc', he, hpos, hpredicted⟩
    · cases hp.symm.trans herror
    · obtain rfl := Except.error.inj (he.symm.trans herror)
      exact Or.inr ⟨offset, hoffset, exc', hpos, hpredicted, hexec⟩

end PodForecast

end Hailcast
