import Hailcast.History.Lemmas
import Hailcast.Lib.LatestKeys
import Hailcast.Traffic.Shards

/-!
# The buckets of a run

A run of the services on the bucket, with the buckets that the aggregations have added to the history.
-/

namespace Hailcast

/-- A bucket, as a call of `aggregate` adds it to the history. -/
structure TrafficBucket where
  time : Int
  total : Int

def TrafficBucket.point (b : TrafficBucket) : Json := Traffic.historyPoint b.time b.total

def PyError.isClientError : PyError → Bool
  | .clientError _ => true
  | _ => false

theorem S3State.headRefused_iff {env : StoreEnv} {key : String} :
    (env.fault (.headObject key)).any PyError.isClientError = true ↔ HeadRefused env key := by
  unfold HeadRefused
  cases env.fault (.headObject key) with
  | none => simp
  | some exc => cases exc <;> simp [PyError.isClientError]

instance (env : StoreEnv) (key : String) : Decidable (S3State.HeadRefused env key) :=
  decidable_of_iff _ S3State.headRefused_iff

namespace Traffic

/-- The history that a call writes when it counts `total`. -/
def pointsWith (now : Int) (s : S3State) (total : Int) : List Json :=
  lastPoints historyMaxPoints (storedEntries (s.objects.get? trafficHistoryKey) ++ [historyPoint now total])

/-- The requests of the last hour, with those of a call that counts `total`, sum up to less than the greatest float. -/
def HourInRange (now : Int) (s : S3State) (total : Int) : Prop :=
  ∃ sum, sumSince (now - hourMicros) (pointsWith now s total) = .ok (.fin sum) ∧
    |FloatFormat.binary64.round sum| < 2 ^ 1024

/-- An aggregation up to the write of the history. -/
def recordBucket (autoCreate : Bool) : StoreM (TrafficBucket × List Json) := do
  let now ← storeRequest .now
  let total ← sumActiveInstances now
  let history ← appendHistory autoCreate now total
  return (⟨now, total⟩, history)

/-- The rest of it. -/
def writeHourly (autoCreate : Bool) (bucket : TrafficBucket) (history : List Json) : StoreM Int := do
  let hourly ← Prog.ofExcept (trailingHourSum bucket.time history)
  FileStore.writeJson autoCreate trafficJsonKey
    (.obj [("hourly_requests", .ofNumber hourly), ("current_bucket_requests", .num bucket.total),
      ("updated_at", isoformat bucket.time)])
  return bucket.total

theorem aggregate_eq (autoCreate : Bool) :
    aggregate autoCreate = recordBucket autoCreate >>= fun r => writeHourly autoCreate r.1 r.2 := by
  simp only [aggregate, recordBucket, writeHourly, Prog.bind_assoc]
  rfl

end Traffic

/-! ## Runs -/

/-- The store, with the buckets that calls have recorded, the latest last. -/
structure BucketRun where
  state : S3State
  buckets : List TrafficBucket := []
  /-- How many of them were there when a call last recorded a bucket without having found the history. -/
  forgotten : Nat := 0

namespace BucketRun

/-- The bucket that the event records. -/
def recorded (autoCreate : Bool) (r : BucketRun) : HistoryStep → Option TrafficBucket
  | .aggregate env =>
      match (r.state.exec env (Traffic.recordBucket autoCreate)).1 with
      | .ok (bucket, _) => some bucket
      | .error _ => none
  | _ => none

def Refused : HistoryStep → Prop
  | .aggregate env => S3State.HeadRefused env trafficHistoryKey
  | _ => False

instance : DecidablePred Refused
  | .aggregate env => inferInstanceAs (Decidable (S3State.HeadRefused env trafficHistoryKey))
  | .snapshot _ => inferInstanceAs (Decidable False)
  | .put _ _ => inferInstanceAs (Decidable False)
  | .restart => inferInstanceAs (Decidable False)

def step (cfg : PredictSettings) (autoCreate : Bool) (r : BucketRun) (e : HistoryStep) : BucketRun where
  state := r.state.step cfg autoCreate e
  buckets := r.buckets ++ (r.recorded autoCreate e).toList
  forgotten := if Refused e ∧ (r.recorded autoCreate e).isSome then r.buckets.length else r.forgotten

/-- How many of the recorded buckets the history has no longer. -/
def missing (r : BucketRun) : Nat := max r.forgotten (r.buckets.length - Traffic.historyMaxPoints)

/-- The history holds the recorded buckets that are not missing. -/
structure Kept (r : BucketRun) : Prop where
  forgotten : r.forgotten ≤ r.buckets.length
  stored : r.state.objects.get? trafficHistoryKey =
      some (.json (.arr ((r.buckets.drop r.missing).map TrafficBucket.point))) ∨
    r.state.objects.get? trafficHistoryKey = none ∧ r.buckets.drop r.missing = []

/-- The sum of the buckets of the last hour. -/
def hourSum (now : Int) (buckets : List TrafficBucket) : Int :=
  ((buckets.filter (fun b => now - hourMicros ≤ b.time ∧ b.time ≤ now)).map TrafficBucket.total).sum

/-- Calls are at least the interval apart. -/
def Spaced (r : BucketRun) : HistoryStep → Prop
  | .aggregate env => ∀ b ∈ r.buckets, b.time + Traffic.aggregateInterval ≤ env.clock
  | _ => True

end BucketRun

/-- A field of `traffic.json`, as a number. -/
def S3State.trafficNumber (s : S3State) (field : String) : Option ExtRat :=
  match loadBlob (s.objects.get? trafficJsonKey) with
  | .ok (some body) => (body.index field >>= Json.toNumber).toOption
  | _ => none

/-! ## Recording a bucket -/

variable {env : StoreEnv} {s : S3State} (cfg : PredictSettings) (autoCreate : Bool)

namespace Traffic

/-- The stored history, as a list; an absent one is empty. -/
def StoredPoints (s : S3State) (points : List Json) : Prop :=
  s.objects.get? trafficHistoryKey = some (.json (.arr points)) ∨
    s.objects.get? trafficHistoryKey = none ∧ points = []

theorem exec_readJson_refused {key : String} (h : S3State.HeadRefused env key) (s : S3State) :
    s.exec env (FileStore.readJson key) = (.ok none, s) := by
  obtain ⟨code, hf⟩ := h
  have hexists := S3State.exec_exists env key s
  rw [hf] at hexists
  unfold S3State.exec at hexists
  unfold S3State.exec FileStore.readJson FileStore.readText
  simp [Prog.exec_bind, hexists]

theorem readPoints {points history : List Json} {body : Option Json} {s' : S3State} (hs : StoredPoints s points)
    (hread : s.exec env (FileStore.readJson trafficHistoryKey) = (.ok body, s'))
    (hlist : listOrEmpty .attributeError body = .ok history) :
    history = if S3State.HeadRefused env trafficHistoryKey then [] else points := by
  split
  · rename_i hrefused
    rw [exec_readJson_refused hrefused] at hread
    obtain rfl := Except.ok.inj (Prod.mk.inj hread).1
    exact (Except.ok.inj hlist).symm
  · rename_i hrefused
    obtain ⟨_, ⟨rfl, hnone⟩ | ⟨blob, value, hget, hloads, rfl⟩⟩ := S3State.exec_readJson hread
    · have hget := hnone.resolve_left hrefused
      have hpoints : points = [] := by
        rcases hs with hs | ⟨_, hs⟩
        · rw [hget] at hs
          cases hs
        · exact hs
      rw [hpoints]
      exact (Except.ok.inj hlist).symm
    · rcases hs with hs | ⟨hs, _⟩
      · rw [hs] at hget
        obtain rfl := Option.some.inj hget
        have hentries := listOrEmpty_json hloads hlist
        exact hentries.symm
      · rw [hs] at hget
        cases hget

theorem storedEntries_arr {points : List Json} {s : S3State} (h : StoredPoints s points) :
    storedEntries (s.objects.get? trafficHistoryKey) = points := by
  have hlist : s.StoredList trafficHistoryKey points := h
  exact hlist.entries

/-- What a call that records its bucket leaves, from the points that were stored. -/
structure Recorded (env : StoreEnv) (s : S3State) (points : List Json) (bucket : TrafficBucket) (history : List Json)
    (s' : S3State) : Prop where
  time : bucket.time = env.clock
  points : history = lastPoints historyMaxPoints
    ((if S3State.HeadRefused env trafficHistoryKey then [] else points) ++ [bucket.point])
  objects : s'.objects = s.objects.set trafficHistoryKey (.json (.arr history))

theorem wp_recordBucket (env : StoreEnv) {points : List Json} (hs : StoredPoints s points) :
    Prog.wp (S3State.handler env) (recordBucket autoCreate) (fun r s' => Recorded env s points r.1 r.2 s')
      (fun _ s' => s'.objects = s.objects) s := by
  apply S3State.wp_bind_quiet (StoreRequest.quiet_request (by simp [StoreRequest.Quiet])) _ (fun _ _ h => h)
  intro now s₁ hnow h₁
  obtain rfl : env.clock = now := Except.ok.inj (Prod.mk.inj (PodHistory.exec_request_ok hnow).2).1
  apply S3State.wp_bind_quiet (quiet_sumActiveInstances _) _ (fun _ _ h => h.trans h₁)
  intro total s₂ _ h₂
  have h₂ := h₂.trans h₁
  simp only [appendHistory, Prog.bind_assoc]
  apply S3State.wp_bind_quiet (StoreRequest.quiet_readJson _) _ (fun _ _ h => h.trans h₂)
  intro body s₃ hread h₃
  have h₃ := h₃.trans h₂
  refine Prog.wp_bind_ofExcept.mpr ⟨?_, fun _ _ => h₃⟩
  intro history hlist
  have hs₂ : StoredPoints s₂ points := by
    unfold StoredPoints
    rwa [h₂]
  have hpoints := readPoints hs₂ hread hlist
  apply (Prog.wp_bind _ _).mpr
  apply (S3State.wp_writeJson env autoCreate trafficHistoryKey _ s₃).mono
  · intro _ s' hwritten
    rw [h₃] at hwritten
    have hkept : lastPoints historyMaxPoints (history ++ [historyPoint env.clock total]) =
        lastPoints historyMaxPoints ((if S3State.HeadRefused env trafficHistoryKey then [] else points) ++
          [TrafficBucket.point ⟨env.clock, total⟩]) := by
      rw [← hpoints, TrafficBucket.point]
    have hrecorded : Recorded env s points ⟨env.clock, total⟩
        (lastPoints historyMaxPoints (history ++ [historyPoint env.clock total])) s' := ⟨rfl, hkept, hwritten⟩
    simp only [Prog.pure_eq, Prog.ret_bind, Prog.wp_ret]
    exact hrecorded
  · exact fun _ _ h => h.trans h₃

theorem wp_writeHourly (env : StoreEnv) (bucket : TrafficBucket) (history : List Json)
    (s : S3State) :
    Prog.wp (S3State.handler env) (writeHourly autoCreate bucket history)
      (fun total s' => total = bucket.total ∧ ∃ hourly, trailingHourSum bucket.time history = .ok hourly ∧
        s'.objects = s.objects.set trafficJsonKey (.json (.obj [("hourly_requests", .ofNumber hourly),
          ("current_bucket_requests", .num bucket.total), ("updated_at", isoformat bucket.time)])))
      (fun _ s' => s'.objects = s.objects) s := by
  refine Prog.wp_bind_ofExcept.mpr ⟨?_, fun _ _ => rfl⟩
  intro hourly hhourly
  apply (Prog.wp_bind _ _).mpr
  apply (S3State.wp_writeJson env autoCreate trafficJsonKey _ s).mono _ (fun _ _ h => h)
  exact fun _ s' hwritten => ⟨rfl, hourly, hhourly, hwritten⟩

theorem sumSince_points (cutoff : Int) (buckets : List TrafficBucket) :
    sumSince cutoff (buckets.map TrafficBucket.point) =
      .ok (.fin (((buckets.filter (fun b => cutoff ≤ b.time)).map TrafficBucket.total).sum : Int)) := by
  induction buckets with
  | nil => rfl
  | cons b buckets ih =>
      have hstamp : b.point.index "timestamp" = .ok (isoformat b.time) := rfl
      have hrequests : b.point.index "requests" = .ok (.num b.total) := rfl
      simp only [List.map_cons, sumSince, hstamp, hrequests, ih, List.filter_cons]
      by_cases hin : cutoff ≤ b.time
      · simp [bind, Except.bind, timestamp, hin, Json.toNumber]
        rfl
      · simp [bind, Except.bind, timestamp, hin]
        rfl

theorem trailingHourSum_points (now : Int) (buckets : List TrafficBucket) :
    trailingHourSum now (buckets.map TrafficBucket.point) =
      pyFloat (.fin (((buckets.filter (fun b => now - hourMicros ≤ b.time)).map TrafficBucket.total).sum : Int)) := by
  unfold trailingHourSum
  rw [sumSince_points]
  rfl

end Traffic

/-- Cutting after each element keeps the last `cap` ones behind the first `k`. -/
theorem lastPoints_drop {α : Type} (cap : Nat) {k : Nat} {f : α → Json} (hcap : 0 < cap) {xs : List α} {x : α}
    (hk : k ≤ xs.length) :
    Traffic.lastPoints cap ((xs.drop (max k (xs.length - cap))).map f ++ [f x]) =
      ((xs ++ [x]).drop (max k ((xs ++ [x]).length - cap))).map f := by
  have hmax : max k (xs.length - cap) ≤ xs.length := by omega
  have hsplit : (xs.drop (max k (xs.length - cap))).map f ++ [f x] =
      ((xs ++ [x]).drop (max k (xs.length - cap))).map f := by
    rw [List.drop_append_of_le_length hmax, List.map_append]
    rfl
  rw [hsplit, Traffic.lastPoints, ← List.map_drop, List.drop_drop]
  congr 2
  simp only [List.length_map, List.length_drop, List.length_append, List.length_singleton]
  omega

/-! ## What a step keeps -/

namespace BucketRun

variable {r : BucketRun}

theorem Kept.storedPoints (h : r.Kept) :
    Traffic.StoredPoints r.state ((r.buckets.drop r.missing).map TrafficBucket.point) := by
  rcases h.stored with hs | ⟨hs, hnil⟩
  · exact Or.inl hs
  · exact Or.inr ⟨hs, by rw [hnil]; rfl⟩

/-- A call records its bucket and goes on, or it raises and the objects are as before. -/
theorem Kept.exec_aggregate (h : r.Kept) (env : StoreEnv) :
    (∃ bucket history s₁, r.recorded autoCreate (.aggregate env) = some bucket ∧
      Traffic.Recorded env r.state ((r.buckets.drop r.missing).map TrafficBucket.point) bucket history s₁ ∧
      r.state.exec env (Traffic.aggregate autoCreate) = s₁.exec env (Traffic.writeHourly autoCreate bucket history)) ∨
    (∃ exc s₁, r.recorded autoCreate (.aggregate env) = none ∧ s₁.objects = r.state.objects ∧
      r.state.exec env (Traffic.aggregate autoCreate) = (.error exc, s₁)) := by
  have hwp := Traffic.wp_recordBucket autoCreate env h.storedPoints
  unfold Prog.wp at hwp
  rw [Traffic.aggregate_eq]
  unfold recorded S3State.exec
  rw [Prog.exec_bind]
  rcases hrec : Prog.exec (S3State.handler env) (Traffic.recordBucket autoCreate) r.state with
    ⟨exc | ⟨bucket, history⟩, s₁⟩
  · rw [hrec] at hwp
    exact Or.inr ⟨exc, s₁, by simp only [hrec], hwp, rfl⟩
  · rw [hrec] at hwp
    exact Or.inl ⟨bucket, history, s₁, by simp only [hrec], hwp, rfl⟩

theorem step_recorded {env : StoreEnv} {bucket : TrafficBucket}
    (h : r.recorded autoCreate (.aggregate env) = some bucket) :
    (r.step cfg autoCreate (.aggregate env)).buckets = r.buckets ++ [bucket] ∧
      (r.step cfg autoCreate (.aggregate env)).forgotten =
        if S3State.HeadRefused env trafficHistoryKey then r.buckets.length else r.forgotten := by
  simp [step, h, Refused]

/-- The list that a call writes has the recorded buckets that are not missing after it. -/
theorem Kept.written {env : StoreEnv} {bucket : TrafficBucket} {history : List Json} {s₁ : S3State} (h : r.Kept)
    (hrec : r.recorded autoCreate (.aggregate env) = some bucket)
    (hw : Traffic.Recorded env r.state ((r.buckets.drop r.missing).map TrafficBucket.point) bucket history s₁) :
    history = ((r.step cfg autoCreate (.aggregate env)).buckets.drop
      (r.step cfg autoCreate (.aggregate env)).missing).map TrafficBucket.point := by
  obtain ⟨hbuckets, hforgotten⟩ := step_recorded cfg autoCreate hrec
  rw [hw.points]
  unfold missing
  rw [hbuckets, hforgotten]
  split
  · have hnil : r.buckets.drop (max r.buckets.length (r.buckets.length - Traffic.historyMaxPoints)) = [] :=
      List.drop_eq_nil_of_le (le_max_left _ _)
    have hdrop := lastPoints_drop Traffic.historyMaxPoints (f := TrafficBucket.point) (x := bucket)
      (by decide) (le_refl r.buckets.length)
    rw [hnil] at hdrop
    exact hdrop
  · exact lastPoints_drop _ (by decide) h.forgotten

theorem exec_writeHourly_get (env : StoreEnv) (bucket : TrafficBucket) (history : List Json)
    (s : S3State) {key : String} (hkey : key ≠ trafficJsonKey) :
    (s.exec env (Traffic.writeHourly autoCreate bucket history)).2.objects.get? key = s.objects.get? key := by
  have hwp := Traffic.wp_writeHourly autoCreate env bucket history s
  unfold Prog.wp at hwp
  unfold S3State.exec
  split at hwp
  · rename_i total s' he
    obtain ⟨_, hourly, _, hobjects⟩ := hwp
    rw [he, hobjects, Dict.get?_set, if_neg (Ne.symm hkey)]
  · rename_i exc s' he
    rw [he, hwp]

theorem snapshot_get (env : StoreEnv) (s : S3State) {key : String}
    (hkey : key ≠ podHistoryKey) : (s.step cfg autoCreate (.snapshot env)).objects.get? key = s.objects.get? key := by
  have hwp := PodHistory.wp_snapshotResult cfg autoCreate env s
  unfold Prog.wp at hwp
  simp only [S3State.step, S3State.exec]
  split at hwp
  · rename_i a s' he
    rw [he]
    cases hwp with
    | written _ _ _ _ _ _ _ _ _ _ _ _ _ _ _ _ hwritten => rw [hwritten, Dict.get?_set, if_neg (Ne.symm hkey)]
  · rename_i exc s' he
    rw [he, hwp]

theorem Kept.aggregate (h : r.Kept) (env : StoreEnv) : (r.step cfg autoCreate (.aggregate env)).Kept := by
  rcases h.exec_aggregate autoCreate env with ⟨bucket, history, s₁, hrec, hw, hexec⟩ |
    ⟨exc, s₁, hrec, hsame, hexec⟩
  · obtain ⟨hbuckets, hforgotten⟩ := step_recorded cfg autoCreate hrec
    refine ⟨?_, Or.inl ?_⟩
    · have hle := h.forgotten
      rw [hbuckets, hforgotten, List.length_append]
      split <;> omega
    · rw [← h.written cfg autoCreate hrec hw]
      simp only [step, S3State.step, hexec]
      rw [exec_writeHourly_get autoCreate env bucket history s₁ (by decide), hw.objects, Dict.get?_set, if_pos rfl]
  · have hstep : r.step cfg autoCreate (.aggregate env) = ⟨s₁, r.buckets, r.forgotten⟩ := by
      simp [step, S3State.step, hexec, hrec]
    rw [hstep]
    exact ⟨h.forgotten, by rw [hsame]; exact h.stored⟩

theorem Kept.aggregate_get (h : r.Kept) (env : StoreEnv) {key : String} (hhistory : key ≠ trafficHistoryKey)
    (hjson : key ≠ trafficJsonKey) :
    (r.step cfg autoCreate (.aggregate env)).state.objects.get? key = r.state.objects.get? key := by
  rcases h.exec_aggregate autoCreate env with ⟨bucket, history, s₁, _, hw, hexec⟩ | ⟨exc, s₁, _, hsame, hexec⟩
  · simp only [step, S3State.step, hexec]
    rw [exec_writeHourly_get autoCreate env bucket history s₁ hjson, hw.objects, Dict.get?_set,
      if_neg (Ne.symm hhistory)]
  · simp only [step, S3State.step, hexec, hsame]

/-- A step that records nothing and leaves the stored history. -/
theorem Kept.frame {e : HistoryStep} (h : r.Kept) (hrec : r.recorded autoCreate e = none)
    (hget : (r.state.step cfg autoCreate e).objects.get? trafficHistoryKey = r.state.objects.get? trafficHistoryKey) :
    (r.step cfg autoCreate e).Kept := by
  have hstep : r.step cfg autoCreate e = ⟨r.state.step cfg autoCreate e, r.buckets, r.forgotten⟩ := by
    simp [step, hrec]
  rw [hstep]
  exact ⟨h.forgotten, by rw [hget]; exact h.stored⟩

theorem Kept.step (h : r.Kept) (e : HistoryStep) : (r.step cfg autoCreate e).Kept := by
  cases e with
  | aggregate env => exact h.aggregate cfg autoCreate env
  | snapshot env => exact h.frame cfg autoCreate rfl (snapshot_get cfg autoCreate env r.state (by decide))
  | put key body =>
      refine h.frame cfg autoCreate rfl ?_
      simp only [S3State.step]
      split
      · rfl
      · rename_i hkey
        rw [not_or] at hkey
        rw [Dict.get?_set, if_neg hkey.1]
  | restart => exact h.frame cfg autoCreate rfl rfl

theorem Kept.start {s : S3State} (h : Traffic.StoredPoints s []) : Kept ⟨s, [], 0⟩ := by
  refine ⟨le_refl _, ?_⟩
  simpa only [List.drop_nil, List.map_nil, and_true, Traffic.StoredPoints] using h

theorem run_state (r : BucketRun) (steps : List HistoryStep) :
    (EventRun.run (BucketRun.step cfg autoCreate) r steps).state =
      EventRun.run (S3State.step cfg autoCreate) r.state steps := by
  induction steps generalizing r with
  | nil => rfl
  | cons e steps ih => exact ih (r.step cfg autoCreate e)

theorem Kept.last {env : StoreEnv} {bucket : TrafficBucket} (h : r.Kept)
    (hrec : r.recorded autoCreate (.aggregate env) = some bucket) :
    (storedEntries ((r.step cfg autoCreate (.aggregate env)).state.objects.get? trafficHistoryKey)).getLast? =
      some bucket.point := by
  obtain ⟨hbuckets, hforgotten⟩ := step_recorded cfg autoCreate hrec
  have hmissing : (r.step cfg autoCreate (.aggregate env)).missing ≤ r.buckets.length := by
    have hle := h.forgotten
    rw [missing, hbuckets, hforgotten, List.length_append, List.length_singleton, Traffic.historyMaxPoints]
    split <;> omega
  have hdrop : (r.step cfg autoCreate (.aggregate env)).buckets.drop (r.step cfg autoCreate (.aggregate env)).missing =
      r.buckets.drop (r.step cfg autoCreate (.aggregate env)).missing ++ [bucket] := by
    rw [hbuckets, List.drop_append_of_le_length hmissing]
  rw [Traffic.storedEntries_arr (h.aggregate cfg autoCreate env).storedPoints, hdrop]
  simp

/-! ## The hour that is written -/

theorem hourSum_append (now : Int) (buckets buckets' : List TrafficBucket) :
    hourSum now (buckets ++ buckets') = hourSum now buckets + hourSum now buckets' := by
  simp [hourSum]

theorem Kept.returned {env : StoreEnv} {total : Int} (h : r.Kept)
    (hret : (r.state.exec env (Traffic.aggregate autoCreate)).1 = .ok total) :
    ∃ bucket, r.recorded autoCreate (.aggregate env) = some bucket ∧ bucket.time = env.clock ∧ bucket.total = total ∧
      (r.step cfg autoCreate (.aggregate env)).state.trafficNumber "current_bucket_requests" = some (.fin total) ∧
      (r.step cfg autoCreate (.aggregate env)).state.trafficNumber "hourly_requests" =
        some (.fin (FloatFormat.binary64.round (((((r.step cfg autoCreate (.aggregate env)).buckets.drop
          (r.step cfg autoCreate (.aggregate env)).missing).filter
            (fun b => env.clock - hourMicros ≤ b.time)).map TrafficBucket.total).sum : Int))) := by
  rcases h.exec_aggregate autoCreate env with ⟨bucket, history, s₁, hrec, hw, hexec⟩ |
    ⟨exc, s₁, hrec, hsame, hexec⟩
  · have hwp := Traffic.wp_writeHourly autoCreate env bucket history s₁
    unfold Prog.wp at hwp
    have hstate : (r.step cfg autoCreate (.aggregate env)).state =
        (s₁.exec env (Traffic.writeHourly autoCreate bucket history)).2 := by
      simp [BucketRun.step, S3State.step, hexec]
    rw [hexec] at hret
    unfold S3State.exec at hret hstate
    split at hwp
    · rename_i total' s' he
      rw [he] at hret hstate
      obtain rfl := Except.ok.inj hret
      obtain ⟨htotal, hourly, hhourly, hobjects⟩ := hwp
      have hget : s'.objects.get? trafficJsonKey = some (.json (.obj [("hourly_requests", .ofNumber hourly),
          ("current_bucket_requests", .num bucket.total), ("updated_at", isoformat bucket.time)])) := by
        rw [hobjects, Dict.get?_set, if_pos rfl]
      rw [h.written cfg autoCreate hrec hw, Traffic.trailingHourSum_points, hw.time] at hhourly
      obtain ⟨_, rfl⟩ := pyFloat_fin_iff.mp hhourly
      refine ⟨bucket, hrec, hw.time, htotal.symm, ?_, ?_⟩
      · rw [hstate, S3State.trafficNumber, hget, htotal]
        rfl
      · rw [hstate, S3State.trafficNumber, hget]
        rfl
    · rename_i exc s' he
      rw [he] at hret
      cases hret
  · rw [hexec] at hret
    cases hret

/-! ## A store that works -/

theorem exec_recordBucket_working {env : StoreEnv} {s : S3State} {points : List Json} (hw : env.Working)
    (hs : Traffic.StoredPoints s points) :
    (s.exec env (Traffic.recordBucket autoCreate)).1 =
      (Traffic.countShards env.clock s (s.listObjects trafficInstancePrefix)).map fun total =>
        (⟨env.clock, total⟩, Traffic.lastPoints Traffic.historyMaxPoints
          (points ++ [Traffic.historyPoint env.clock total])) := by
  have hsum := Traffic.exec_sumActiveInstances hw s env.clock
  have hread := S3State.exec_readJson_working hw s trafficHistoryKey
  have hlist : (loadBlob (s.objects.get? trafficHistoryKey) >>= listOrEmpty .attributeError) = .ok points := by
    rcases hs with hs | ⟨hs, rfl⟩
    · rw [hs]
      cases points <;> rfl
    · rw [hs]
      rfl
  unfold S3State.exec at hsum hread
  unfold S3State.exec Traffic.recordBucket Traffic.appendHistory storeRequest
  simp only [Prog.exec_bind, Prog.exec_perform, S3State.handler_working hw, S3State.answer, hsum]
  cases Traffic.countShards env.clock s (s.listObjects trafficInstancePrefix) with
  | error exc => rfl
  | ok total =>
      obtain ⟨body, hload, hbody⟩ := bind_eq_ok hlist
      simp only [hread, hload, Prog.exec_ofExcept, hbody]
      have hwrite := S3State.exec_writeJson_working hw autoCreate trafficHistoryKey (.arr (Traffic.lastPoints
        Traffic.historyMaxPoints (points ++ [Traffic.historyPoint env.clock total]))) s
      unfold S3State.exec at hwrite
      rcases he : Prog.exec (S3State.handler env) (FileStore.writeJson autoCreate trafficHistoryKey (.arr
        (Traffic.lastPoints Traffic.historyMaxPoints (points ++ [Traffic.historyPoint env.clock total])))) s with
        ⟨_ | _, s₁⟩
      · rw [he] at hwrite
        cases hwrite
      · rfl

theorem exec_writeHourly_working {env : StoreEnv} {s : S3State} {bucket : TrafficBucket} {history : List Json}
    (hw : env.Working) :
    (s.exec env (Traffic.writeHourly autoCreate bucket history)).1 =
      (Traffic.trailingHourSum bucket.time history).map fun _ => bucket.total := by
  unfold S3State.exec Traffic.writeHourly
  cases hsum : Traffic.trailingHourSum bucket.time history with
  | error exc => rfl
  | ok hourly =>
      have hwrite := S3State.exec_writeJson_working hw autoCreate trafficJsonKey
        (.obj [("hourly_requests", .ofNumber hourly), ("current_bucket_requests", .num bucket.total),
          ("updated_at", isoformat bucket.time)]) s
      unfold S3State.exec at hwrite
      simp only [Prog.ofExcept_ok, Prog.ret_bind, Prog.exec_bind]
      rcases he : Prog.exec (S3State.handler env) (FileStore.writeJson autoCreate trafficJsonKey
        (.obj [("hourly_requests", .ofNumber hourly), ("current_bucket_requests", .num bucket.total),
          ("updated_at", isoformat bucket.time)])) s with ⟨_ | _, s₁⟩
      · rw [he] at hwrite
        cases hwrite
      · rfl

/-- The history of a call that counts `total` is one of buckets, at most as many as are kept. -/
theorem Kept.pointsWith (h : r.Kept) (now total : Int) :
    ∃ buckets : List TrafficBucket, Traffic.pointsWith now r.state total = buckets.map TrafficBucket.point ∧
      buckets.length ≤ Traffic.historyMaxPoints ∧ ∀ b ∈ buckets, b ∈ r.buckets ∨ b = ⟨now, total⟩ := by
  have hpoints : storedEntries (r.state.objects.get? trafficHistoryKey) ++ [Traffic.historyPoint now total] =
      (r.buckets.drop r.missing ++ [TrafficBucket.mk now total]).map TrafficBucket.point := by
    rw [Traffic.storedEntries_arr h.storedPoints, List.map_append]
    rfl
  refine ⟨(r.buckets.drop r.missing ++ [TrafficBucket.mk now total]).drop _,
    by rw [Traffic.pointsWith, hpoints, Traffic.lastPoints, ← List.map_drop], ?_, fun b hb => ?_⟩
  · rw [List.length_drop, List.length_map]
    omega
  · rcases List.mem_append.mp (List.mem_of_mem_drop hb) with hb | hb
    · exact Or.inl (List.mem_of_mem_drop hb)
    · exact Or.inr (List.mem_singleton.mp hb)

theorem Kept.hourInRange_iff (h : r.Kept) (now total : Int) :
    Traffic.HourInRange now r.state total ↔
      ∃ hourly, Traffic.trailingHourSum now (Traffic.pointsWith now r.state total) = .ok hourly := by
  obtain ⟨buckets, hbuckets, _, _⟩ := h.pointsWith now total
  unfold Traffic.HourInRange
  rw [hbuckets, Traffic.sumSince_points, Traffic.trailingHourSum_points]
  constructor
  · rintro ⟨sum, ⟨⟩, hlt⟩
    exact ⟨_, pyFloat_fin_iff.mpr ⟨hlt, rfl⟩⟩
  · rintro ⟨hourly, hok⟩
    exact ⟨_, rfl, (pyFloat_fin_iff.mp hok).1⟩

theorem abs_sum_lt {bound : Int} (hbound : Traffic.historyMaxPoints * bound < 2 ^ 53) {buckets : List TrafficBucket}
    (hlength : buckets.length ≤ Traffic.historyMaxPoints) (hsmall : ∀ b ∈ buckets, 0 ≤ b.total ∧ b.total ≤ bound)
    (p : TrafficBucket → Bool) : |((buckets.filter p).map TrafficBucket.total).sum| < 2 ^ 53 := by
  have hpart : ∀ n ∈ (buckets.filter p).map TrafficBucket.total, 0 ≤ n ∧ n ≤ bound := by
    intro n hn
    obtain ⟨b, hb, rfl⟩ := List.mem_map.mp hn
    exact hsmall b (List.mem_of_mem_filter hb)
  have hnonneg := List.sum_nonneg fun n hn => (hpart n hn).1
  have hle := List.sum_le_card_nsmul _ _ fun n hn => (hpart n hn).2
  have hcount : ((buckets.filter p).map TrafficBucket.total).length ≤ Traffic.historyMaxPoints := by
    rw [List.length_map]
    exact (List.length_filter_le _ _).trans hlength
  rw [abs_of_nonneg hnonneg]
  rcases le_or_gt 0 bound with hpos | hneg
  · rw [nsmul_eq_mul] at hle
    have hcount' : (((buckets.filter p).map TrafficBucket.total).length : Int) ≤ Traffic.historyMaxPoints := by
      exact_mod_cast hcount
    exact (hle.trans (mul_le_mul_of_nonneg_right hcount' hpos)).trans_lt hbound
  · have hnil : (buckets.filter p).map TrafficBucket.total = [] := by
      apply List.eq_nil_iff_forall_not_mem.mpr
      intro n hn
      have hboth := hpart n hn
      omega
    rw [hnil]
    norm_num

/-- Small totals have a float. -/
theorem Kept.hourInRange (h : r.Kept) {now total bound : Int} (hbound : Traffic.historyMaxPoints * bound < 2 ^ 53)
    (hsmall : ∀ b ∈ r.buckets, 0 ≤ b.total ∧ b.total ≤ bound) (htotal : 0 ≤ total ∧ total ≤ bound) :
    Traffic.HourInRange now r.state total := by
  obtain ⟨buckets, hbuckets, hlength, hmem⟩ := h.pointsWith now total
  have hsum := abs_sum_lt hbound hlength
    (fun b hb => by
      rcases hmem b hb with hb | rfl
      · exact hsmall b hb
      · exact htotal) (fun b => now - hourMicros ≤ b.time)
  refine ⟨_, by rw [hbuckets, Traffic.sumSince_points], ?_⟩
  have hsum' : |((((buckets.filter (fun b => now - hourMicros ≤ b.time)).map TrafficBucket.total).sum : Int) : ℚ)| <
      2 ^ 53 := by exact_mod_cast hsum
  rw [round_intCast hsum]
  exact hsum'.trans (pow_lt_pow_right₀ (by norm_num) (by norm_num))

/-- On a store that works a call returns what it has counted, and raises only for a shard, or for a sum without a
float. -/
theorem Kept.aggregate_working {env : StoreEnv} (h : r.Kept) (hw : env.Working) :
    (r.state.exec env (Traffic.aggregate autoCreate)).1 =
      Traffic.countShards env.clock r.state (r.state.listObjects trafficInstancePrefix) >>= fun total =>
        (Traffic.trailingHourSum env.clock (Traffic.pointsWith env.clock r.state total)).map fun _ => total := by
  have hrecord := exec_recordBucket_working autoCreate hw h.storedPoints
  cases hcount : Traffic.countShards env.clock r.state (r.state.listObjects trafficInstancePrefix) with
  | error exc =>
      rw [hcount] at hrecord
      unfold S3State.exec at hrecord
      unfold S3State.exec
      rw [Traffic.aggregate_eq, Prog.exec_bind]
      rcases he : Prog.exec (S3State.handler env) (Traffic.recordBucket autoCreate) r.state with ⟨_ | _, s₁⟩
      · rw [he] at hrecord
        obtain rfl := Except.error.inj hrecord
        rfl
      · rw [he] at hrecord
        cases hrecord
  | ok total =>
      rw [hcount] at hrecord
      have hrec : r.recorded autoCreate (.aggregate env) = some ⟨env.clock, total⟩ := by
        simp [recorded, hrecord, Except.map]
      rcases h.exec_aggregate autoCreate env with ⟨bucket, history, s₁, hrec', hr, hexec⟩ |
        ⟨exc, s₁, hnone, _, _⟩
      · obtain rfl := Option.some.inj (hrec.symm.trans hrec')
        have hhead : ¬ S3State.HeadRefused env trafficHistoryKey := by
          rintro ⟨code, hf⟩
          rw [hw] at hf
          cases hf
        have hhistory := hr.points
        rw [if_neg hhead, ← Traffic.storedEntries_arr h.storedPoints] at hhistory
        rw [hexec, exec_writeHourly_working autoCreate hw, hhistory]
        simp only [bind, Except.bind, Traffic.pointsWith, TrafficBucket.point]
      · rw [hrec] at hnone
        cases hnone

theorem Kept.counted (env : StoreEnv) (h : r.Kept) (hw : env.Working)
    (hb : ¬ Traffic.Blocked env.clock r.state (r.state.listObjects trafficInstancePrefix))
    (hrange : ∀ total, Traffic.countShards env.clock r.state (r.state.listObjects trafficInstancePrefix) = .ok total →
      Traffic.HourInRange env.clock r.state total) :
    ∃ total, (r.state.exec env (Traffic.aggregate autoCreate)).1 = .ok total ∧
      r.recorded autoCreate (.aggregate env) = some ⟨env.clock, total⟩ ∧
      Traffic.countShards env.clock r.state (r.state.listObjects trafficInstancePrefix) = .ok total := by
  have hcount := Traffic.countShards_ok hb
  obtain ⟨hourly, hhourly⟩ := (h.hourInRange_iff _ _).mp (hrange _ hcount)
  have hret := h.aggregate_working autoCreate hw
  rw [hcount] at hret
  simp only [bind, Except.bind, hhourly, Except.map] at hret
  obtain ⟨bucket, hrec, htime, htotal, _⟩ := h.returned {} autoCreate hret
  refine ⟨_, hret, ?_, hcount⟩
  rw [hrec, ← htotal, ← htime]

/-- The sum that a call which returns has written is the one of the last hour. -/
def HourlyExact (r : BucketRun) : HistoryStep → Prop
  | .aggregate env =>
      ∀ total, (r.state.exec env (Traffic.aggregate autoCreate)).1 = .ok total →
        (r.step cfg autoCreate (.aggregate env)).state.trafficNumber "hourly_requests" =
          some (.fin (hourSum env.clock (r.step cfg autoCreate (.aggregate env)).buckets))
  | _ => True

/-- The buckets of the last hour that a call which returns has no longer sum up to what the float adds to the sum of the
others: to nothing, as long as that has no more than 53 binary digits. -/
def HourFits (r : BucketRun) : HistoryStep → Prop
  | .aggregate env =>
      ∀ total, (r.state.exec env (Traffic.aggregate autoCreate)).1 = .ok total →
        let after := r.step cfg autoCreate (.aggregate env)
        let kept := hourSum env.clock (after.buckets.drop after.missing)
        (hourSum env.clock (after.buckets.take after.missing) : ℚ) = FloatFormat.binary64.round kept - kept
  | _ => True

theorem Kept.hourlyExact_iff (h : r.Kept) {e : HistoryStep} (hs : r.Spaced e) :
    r.HourlyExact cfg autoCreate e ↔ r.HourFits cfg autoCreate e := by
  cases e with
  | aggregate env =>
      refine forall_congr' fun total => forall_congr' fun hret => ?_
      obtain ⟨bucket, hrec, htime, _, _, hhourly⟩ := h.returned cfg autoCreate hret
      obtain ⟨hbuckets, _⟩ := step_recorded cfg autoCreate hrec
      have hpast : ∀ b ∈ (r.step cfg autoCreate (.aggregate env)).buckets, b.time ≤ env.clock := by
        intro b hb
        rw [hbuckets] at hb
        rcases List.mem_append.mp hb with hb | hb
        · have hspaced := hs b hb
          unfold Traffic.aggregateInterval at hspaced
          omega
        · rw [List.mem_singleton.mp hb, htime]
      have hlower : ((r.step cfg autoCreate (.aggregate env)).buckets.drop
          (r.step cfg autoCreate (.aggregate env)).missing).filter (fun b => env.clock - hourMicros ≤ b.time) =
        ((r.step cfg autoCreate (.aggregate env)).buckets.drop
          (r.step cfg autoCreate (.aggregate env)).missing).filter
            (fun b => env.clock - hourMicros ≤ b.time ∧ b.time ≤ env.clock) := by
        refine List.filter_congr fun b hb => ?_
        simp [hpast b (List.mem_of_mem_drop hb)]
      have hsplit := hourSum_append env.clock
        ((r.step cfg autoCreate (.aggregate env)).buckets.take (r.step cfg autoCreate (.aggregate env)).missing)
        ((r.step cfg autoCreate (.aggregate env)).buckets.drop (r.step cfg autoCreate (.aggregate env)).missing)
      rw [List.take_append_drop] at hsplit
      rw [hhourly, hlower, hsplit]
      change some (ExtRat.fin (FloatFormat.binary64.round (hourSum env.clock _ : Int))) = _ ↔ _
      rw [Option.some_inj, ExtRat.fin.injEq]
      push_cast
      constructor <;> intro heq <;> linarith
  | _ => exact Iff.rfl

end BucketRun

end Hailcast
