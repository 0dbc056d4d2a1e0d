import Hailcast.History.Lemmas
import Hailcast.History.Snapshots
import Hailcast.History.Timeline

/-!
# What the histories keep

No failure destroys a history, and the pod history has the latest snapshots.
-/

namespace Hailcast

/-- A run of an operation that extends a history, or raises first, keeps the history and leaves the other one. -/
theorem S3State.Extended.kept {α : Type} {env : StoreEnv} {s : S3State} {p : StoreM α} {cap : Nat}
    {key other : String} {excused : Json → Bool} {P : PyError → S3State → Prop}
    (hp : Prog.wp (S3State.handler env) p (fun _ => s.Extended cap key excused) P s)
    (herr : ∀ e s', P e s' → s'.objects = s.objects ∨ s.Extended cap key excused s') (hne : other ≠ key)
    (hother : other = trafficHistoryKey ∨ other = podHistoryKey) :
    HistoryKept cap excused (s.objects.get? key) (s.exec env p).1 ((s.exec env p).2.objects.get? key) ∧
      (s.exec env p).2.objects.get? other = s.objects.get? other := by
  unfold Prog.wp at hp
  unfold S3State.exec
  rcases he : Prog.exec (S3State.handler env) p s with ⟨e | a, s'⟩
  · rw [he] at hp
    rcases herr e s' hp with ho | hext
    · exact ⟨Or.inl ⟨⟨e, rfl⟩, by rw [ho]⟩, by rw [ho]⟩
    · exact ⟨Or.inr hext.1, hext.2 other hne hother⟩
  · rw [he] at hp
    exact ⟨Or.inr hp.1, hp.2 other hne hother⟩

/-- A step whose history is not hidden keeps both histories. -/
theorem S3State.step_keepsHistories (cfg : PredictSettings) (autoCreate : Bool) (s : S3State) (e : HistoryStep)
    (hh : ¬ s.Hides e) : s.KeepsHistories cfg autoCreate e := by
  cases e with
  | aggregate env =>
      exact Extended.kept (Traffic.wp_aggregate hh) (fun _ _ h => h) (by decide) (Or.inr rfl)
  | snapshot env =>
      exact Extended.kept (PodHistory.wp_snapshotCurrentHour hh) (fun _ _ h => Or.inl h) (by decide) (Or.inl rfl)
  | put key body =>
      simp only [KeepsHistories, step]
      split
      · exact ⟨rfl, rfl⟩
      · rename_i hkey
        rw [not_or] at hkey
        simp [Dict.get?_set, hkey]
  | restart => exact ⟨rfl, rfl⟩

/-- In every run in which no operation is told that its stored history is absent, whatever else fails, every step
keeps both histories. -/
theorem histories_kept (cfg : PredictSettings) (autoCreate : Bool) (s : S3State) (steps : List HistoryStep)
    (h : EventRun.Along (S3State.step cfg autoCreate) (fun s e => ¬ s.Hides e) s steps) :
    EventRun.Along (S3State.step cfg autoCreate) (fun s e => s.KeepsHistories cfg autoCreate e) s steps :=
  EventRun.Along.imp (I := fun _ => True) (fun _ _ _ _ => trivial)
    (fun s e _ hh => s.step_keepsHistories cfg autoCreate e hh) trivial h

def pointAt (time : Int) (requests : Nat) : Json :=
  .obj [("timestamp", isoformat time), ("requests", .num requests)]

def bucketWith (key : String) (entries : List Json) : S3State where
  objects := Dict.empty.set key (.json (.arr entries))

def failedGet : StoreEnv where
  fault
    | .getObject _ => some (.clientError "SlowDown")
    | _ => none
  clock := 10000000

/-- The GET of the history fails in one aggregation, and the next one succeeds. -/
theorem histories_kept_through_failed_get :
    EventRun.Along (S3State.step {} false) (fun s e => s.KeepsHistories {} false e)
      (bucketWith trafficHistoryKey [pointAt 0 7])
      [.aggregate failedGet, .aggregate { clock := 20000000 }] := by
  refine histories_kept {} false _ _ ⟨?_, ?_, trivial⟩
  · rintro ⟨⟨code, hf⟩, _⟩
    cases hf
  · rintro ⟨⟨code, hf⟩, _⟩
    cases hf

def entryAt (bucket : Int) : Json := PodHistory.entry bucket none (some 0) none

/-- In the second hour the HEAD of the pod history is answered 503. -/
def refusedHead : StoreEnv where
  fault
    | .headObject _ => some (.clientError "503")
    | _ => none
  clock := 3600000000

/-- The snapshot returns, and the stored history has lost the entry of the first hour. -/
theorem history_destroyed_by_refused_head :
    let s := bucketWith podHistoryKey [entryAt 0]
    (s.exec refusedHead (PodHistory.snapshotCurrentHour {} false)).1 = .ok () ∧
      ¬ s.KeepsHistories {} false (.snapshot refusedHead) := by
  have hafter : (bucketWith podHistoryKey [entryAt 0]).exec refusedHead (PodHistory.snapshotCurrentHour {} false) =
      (.ok (), bucketWith podHistoryKey [entryAt 3600000000]) := by
    rfl
  refine ⟨by rw [hafter], ?_⟩
  rintro ⟨⟨⟨exc, he⟩, _⟩ | ⟨full, new, hperm, hget⟩, _⟩
  · rw [hafter] at he
    cases he
  · -- the list would have both entries
    have htwo : full.length = 2 := hperm.length_eq
    simp only [S3State.step, hafter] at hget
    have hlist : [entryAt 3600000000] = Traffic.lastPoints PodHistory.maxPoints full :=
      Json.arr.inj (Blob.json.inj (Option.some.inj hget))
    have hone := congrArg List.length hlist
    simp [Traffic.lastPoints, PodHistory.maxPoints, htwo] at hone

/-! ## The snapshots of the hours -/

/-- From no stored history, after any calls at any clock times: the stored list has the snapshots of the 720 latest
buckets, each the last of its bucket, in the order of the buckets and of their texts. -/
theorem pod_history_latest (cfg : PredictSettings) (autoCreate : Bool) (s : S3State)
    (hnone : s.objects.get? podHistoryKey = none) (envs : List StoreEnv)
    (hhead : ∀ env ∈ envs, ¬ S3State.HeadRefused env podHistoryKey)
    (hclock : ∀ env ∈ envs, DatetimeRange env.clock) :
    ∃ stored : List PodSnapshot,
      storedEntries ((EventRun.run (PodHistoryRun.step cfg autoCreate) ⟨s, []⟩ envs).state.objects.get? podHistoryKey) =
        stored.map PodSnapshot.json ∧
      LatestKeys.Latest PodSnapshot.bucket PodHistory.maxPoints
        (EventRun.run (PodHistoryRun.step cfg autoCreate) ⟨s, []⟩ envs).snapshots stored ∧
      stored.Pairwise (fun x y => (Str.aware x.bucket).render < (Str.aware y.bucket).render) := by
  have hkept : (EventRun.run (PodHistoryRun.step cfg autoCreate) ⟨s, []⟩ envs).Kept :=
    EventRun.Along.invariant (P := fun _ env => ¬ S3State.HeadRefused env podHistoryKey)
      (fun _ _ h he => h.step cfg autoCreate he) (by simp [PodHistoryRun.Kept, hnone]; rfl)
      (EventRun.along_of_forall hhead)
  have hrange := PodHistoryRun.run_range cfg autoCreate hclock (r := ⟨s, []⟩) (by simp)
  have hlatest : LatestKeys.Latest PodSnapshot.bucket PodHistory.maxPoints
      (EventRun.run (PodHistoryRun.step cfg autoCreate) ⟨s, []⟩ envs).snapshots _ := LatestKeys.latest_all _ _
  refine ⟨_, hkept, hlatest, ?_⟩
  have hin : ∀ x ∈ LatestKeys.lastN PodHistory.maxPoints (LatestKeys.all PodSnapshot.bucket
      (EventRun.run (PodHistoryRun.step cfg autoCreate) ⟨s, []⟩ envs).snapshots), DatetimeRange x.bucket :=
    fun x hx => hrange x (List.mem_of_mem_filter (List.mem_of_getLast? (hlatest.last x hx)))
  refine (List.Pairwise.and_mem.mp hlatest.sorted).imp fun h => ?_
  obtain ⟨hx, hy, hlt⟩ := h
  exact render_aware_lt (hin _ hx) (hin _ hy) hlt

/-- The clock goes back an hour, and the second hour is snapshotted again. -/
def threeCalls : List StoreEnv :=
  [{ clock := 3600000000 }, { clock := 1 }, { clock := 7199999999, actualReplicas := 2 }]

theorem pod_history_latest_three :
    ∃ stored : List PodSnapshot,
      storedEntries
          ((EventRun.run (PodHistoryRun.step {} false) ⟨{}, []⟩ threeCalls).state.objects.get? podHistoryKey) =
        stored.map PodSnapshot.json ∧
      LatestKeys.Latest PodSnapshot.bucket PodHistory.maxPoints
        (EventRun.run (PodHistoryRun.step {} false) ⟨{}, []⟩ threeCalls).snapshots stored ∧
      stored.Pairwise (fun x y => (Str.aware x.bucket).render < (Str.aware y.bucket).render) := by
  refine pod_history_latest {} false {} rfl threeCalls (fun env he => ?_) (fun env he => ?_)
  · simp only [threeCalls, List.mem_cons, List.not_mem_nil, or_false] at he
    rcases he with rfl | rfl | rfl <;> rintro ⟨code, hf⟩ <;> cases hf
  · simp only [threeCalls, List.mem_cons, List.not_mem_nil, or_false] at he
    rcases he with rfl | rfl | rfl <;> exact ⟨by decide, by decide⟩

/-! ## The hours of the dashboard -/

/-- After any snapshots, taken under any settings and failures: the points are those of the consecutive hours, and each
shows what is stored or predicted for its own hour. The call raises only what `decide` raises for an hour that it shows.
With pods that carry some demand and a positive minimum that is only `OverflowError`, for an hour whose load is too
large for a float. -/
theorem pod_forecast_hours (before cfg : PredictSettings) (autoCreate : Bool) (s : S3State)
    (hnone : s.objects.get? podHistoryKey = none) (envs : List StoreEnv) (env : StoreEnv)
    (hanswers : PodForecast.Answers env) (hwindow : cfg.predictionWindowMinutes = 60)
    (haligned : PodForecast.HourAligned env.latest) {hoursHistory hoursForecast : Int} (hhistory : 0 ≤ hoursHistory)
    (hforecast : 0 ≤ hoursForecast) :
    let r := EventRun.run (PodHistoryRun.step before autoCreate) ⟨s, []⟩ envs
    let call := r.state.exec env (PodForecast.podForecast cfg hoursHistory hoursForecast)
    ∃ stored : List PodSnapshot, r.state.StoredList podHistoryKey (stored.map PodSnapshot.json) ∧
      LatestKeys.Sorted PodSnapshot.bucket stored ∧ (∀ snapshot ∈ stored, snapshot ∈ r.snapshots) ∧
      ((∃ points, call = (.ok points, r.state) ∧
          points.map PodForecastPoint.timestamp = (List.range (hoursHistory + hoursForecast + 1).toNat).map
            (fun i : ℕ => floorToHour env.clock + ((i : Int) - hoursHistory) * hourMicros) ∧
          ∀ p ∈ points, PodForecast.Shows cfg env stored p) ∨
        ∃ hour exc, 0 ≤ hour ∧ hour ≤ hoursForecast ∧
          PodForecast.predictedAt cfg env.latest (floorToHour env.clock + hour * hourMicros) = .error exc ∧
          call = (.error exc, r.state)) ∧
      (0 < cfg.scalingDemandPerPod → 1 ≤ cfg.scalingMinReplicas →
        (∃ points, call = (.ok points, r.state)) ∨
          call = (.error .overflowError, r.state) ∧ ∃ hour, 0 ≤ hour ∧ hour ≤ hoursForecast ∧
            ¬ PodForecast.FiniteLoad cfg env.latest (floorToHour env.clock + hour * hourMicros)) := by
  intro r call
  obtain ⟨stored, hstored, hsorted, hlogged⟩ : r.Logged :=
    EventRun.run_invariant (fun _ env h => h.step before autoCreate env) ⟨[], Or.inr ⟨hnone, rfl⟩, .nil, by simp⟩ envs
  have hcall := PodForecast.exec_podForecast hanswers hwindow haligned hstored hsorted hoursHistory hoursForecast
  refine ⟨stored, hstored, hsorted, hlogged, ?_, ?_⟩
  · rcases hcall with ⟨points, hexec, htimes, hshows⟩ | ⟨offset, hoffset, exc, hpos, hpredicted, hexec⟩
    · refine Or.inl ⟨points, hexec, ?_, hshows⟩
      have hcount : hoursForecast + 1 + hoursHistory = hoursHistory + hoursForecast + 1 := by omega
      rw [htimes, PodForecast.offsets, hcount, List.map_map]
      rfl
    · obtain ⟨i, hi, rfl⟩ := List.mem_map.mp hoffset
      have hlast := List.mem_range.mp hi
      exact Or.inr ⟨_, exc, hpos, by omega, hpredicted, hexec⟩
  · intro hpod hmin
    rcases hcall with ⟨points, hexec, _⟩ | ⟨offset, hoffset, exc, hpos, hpredicted, hexec⟩
    · exact Or.inl ⟨points, hexec⟩
    · obtain ⟨i, hi, rfl⟩ := List.mem_map.mp hoffset
      have hlast := List.mem_range.mp hi
      rcases PodForecast.predictedAt_ok hpod hmin env.latest _ with ⟨predicted, hok⟩ | ⟨herror, hload⟩
      · cases hok.symm.trans hpredicted
      · obtain rfl := Except.error.inj (herror.symm.trans hpredicted)
        exact Or.inr ⟨hexec, _, hpos, by omega, hload⟩

theorem nextHour_demand : (0 : ℚ) ≤ 1300 := by norm_num

/-- One item for the hour of the fourth call. -/
def nextHour : StoreEnv where
  clock := 10800000001
  latest := some ⟨0, "v1", 60, 1, 1300,
    [⟨10800000000, 1300, none, none, none, none, nextHour_demand, PredictionItem.confidence_mem_none⟩]⟩

theorem pod_forecast_hours_three :
    ∃ points, ((EventRun.run (PodHistoryRun.step {} false) ⟨{}, []⟩ threeCalls).state.exec nextHour
      (PodForecast.podForecast {} 24 4)).1 = .ok points := by
  obtain ⟨_, _, _, _, _, hreturns⟩ := pod_forecast_hours {} {} false {} rfl threeCalls nextHour (fun _ _ => rfl) rfl
    (by intro d hd item hitem; cases hd; simp at hitem; subst hitem; decide) (show (0 : Int) ≤ 24 by decide)
    (show (0 : Int) ≤ 4 by decide)
  rcases hreturns (by decide) (by decide) with ⟨points, hcall⟩ | ⟨_, hour, hfirst, hlast, hload⟩
  · exact ⟨points, congrArg Prod.fst hcall⟩
  · -- the only load is that of 1300 requests in the current hour
    refine absurd (fun demand hdemand => ?_) hload
    obtain rfl | rfl | rfl | rfl | rfl : hour = 0 ∨ hour = 1 ∨ hour = 2 ∨ hour = 3 ∨ hour = 4 := by omega
    · obtain rfl := Option.some.inj hdemand
      exact ⟨FloatFormat.binary64.round (1300 / 500), by decide +kernel⟩
    all_goals cases hdemand

end Hailcast
