import Hailcast.Traffic.Buckets
import Hailcast.Traffic.Counter
import Hailcast.Traffic.Lemmas.Aggregation
import Hailcast.Traffic.Rebucket

/-!
# What the traffic figures count

Every call once, over every interleaving of the pods and the aggregator in which each shard is read once between two
flushes; the last hour, as far as the history holds it; and the shards that are well formed.
-/

namespace Hailcast

open Concurrent

section System

variable {ι : Type} [DecidableEq ι] [Fintype ι] {instanceId : ι → String} {autoCreate : Bool}

/-- No pod holds a count, and each pod's last flush has been followed by an aggregation. -/
def TrafficState.Quiescent (s : TrafficState ι) : Prop :=
  ∀ i, s.counts i = 0 ∧ s.ledger.taken i = 0 ∧ s.ledger.followed i = true

instance (s : TrafficState ι) : Decidable s.Quiescent := inferInstanceAs (Decidable (∀ _, _))

theorem TrafficState.Inv.environment {s : TrafficState ι} (h : s.Inv instanceId) (e : TrafficEvent ι) :
    (s.environment e).Inv instanceId := by
  cases e with
  | pass micros => exact ⟨h.shard, h.only, h.history, h.conserved, h.appended, h.followed⟩
  | record i =>
      refine ⟨h.shard, h.only, h.history, fun j => ?_, h.appended, h.followed⟩
      have hj := h.conserved j
      by_cases hji : j = i
      · subst hji
        simp only [TrafficState.environment, Ledger.uncounted, Function.update_self] at hj ⊢
        omega
      · simpa [TrafficState.environment, Ledger.uncounted, Function.update_of_ne hji] using hj

omit [Fintype ι] in
theorem TrafficState.rely_environment (s : TrafficState ι) (w : TrafficThread ι) (e : TrafficEvent ι) :
    s.Rely w (s.environment e) := by
  cases e <;> cases w <;> first
    | exact ⟨rfl, rfl⟩
    | exact ⟨rfl, rfl, rfl, fun _ h => h, fun _ h => ⟨h, rfl⟩⟩

theorem trafficSystem_sound (hinj : Function.Injective instanceId) :
    (trafficSystem instanceId autoCreate).Sound where
  body _ w s _ hd := by
    have hd := hd.resolve_left (by decide : ¬ false = true)
    cases w with
    | pod i => exact Traffic.safe_flush hinj hd
    | aggregator =>
        refine Safe.andThen (Traffic.safe_aggregate hinj hd) fun _ s₁ _ hs₁ => ?_
        exact Safe.ret fun s₂ hr _ i => by rw [hr.2.1]; exact hs₁ i
  reset_inv _ _ _ hi := hi
  reset_rely _ _ j s _ _ := s.rely_refl j
  environment_inv e _ hi := hi.environment e
  environment_rely e j s _ := s.rely_environment j e

/-- The bucket in which the services start: no shards yet, and at most a list as the history. -/
def startState (objects : Dict String Blob) (clock : Int) : TrafficState ι := { objects := objects, clock := clock }

omit [DecidableEq ι] in
theorem startState_inv {objects : Dict String Blob} {clock : Int}
    (hshards : ∀ key ∈ objects.keys, trafficInstancePrefix.toList.isPrefixOf key.toList = false)
    (hhistory : objects.get? trafficHistoryKey = none ∨
      ∃ points, objects.get? trafficHistoryKey = some (.json (.arr points))) :
    (startState objects clock : TrafficState ι).Inv instanceId := by
  refine ⟨fun i => ?_, fun key hkey hpre => ?_, hhistory, fun _ => rfl, by simp [startState], fun _ _ => ⟨rfl, rfl⟩⟩
  · cases hg : objects.get? (podKey instanceId i) with
    | none => exact hg
    | some body =>
        have hkey := hshards _ ((Dict.get?_isSome _ _).mp (by rw [hg]; rfl))
        rw [isPrefixOf_podKey] at hkey
        cases hkey
  · rw [hshards key hkey] at hpre
    cases hpre

/-- In every regular run, in which a thread starts again only after its end, whenever no pod holds a count and
each pod's last flush has been followed by an aggregation, the sum of the appended `requests` values is the number
of calls. -/
theorem traffic_counted_once (instanceId : ι → String) (autoCreate : Bool) (objects : Dict String Blob) (clock : Int)
    (hinj : Function.Injective instanceId)
    (hshards : ∀ key ∈ objects.keys, trafficInstancePrefix.toList.isPrefixOf key.toList = false)
    (hhistory : objects.get? trafficHistoryKey = none ∨
      ∃ points, objects.get? trafficHistoryKey = some (.json (.arr points)))
    (events : List (Event (TrafficThread ι) Unit (TrafficEvent ι)))
    (h : EventRun.Along (trafficSystem instanceId autoCreate).step (trafficSystem instanceId autoCreate).Allowed
      (System.initial (startState objects clock)) events)
    (hq : (EventRun.run (trafficSystem instanceId autoCreate).step
      (System.initial (startState objects clock)) events).shared.Quiescent) :
    let s := (EventRun.run (trafficSystem instanceId autoCreate).step
      (System.initial (startState objects clock)) events).shared
    s.ledger.appended = ∑ i, (s.ledger.recorded i : ℚ) := by
  have hgood : (trafficSystem instanceId autoCreate).Good (System.initial (startState objects clock)) := by
    refine System.good_initial (startState_inv hshards hhistory) fun w s hr _ => ?_
    cases w with
    | pod i => exact hr.1
    | aggregator => exact fun i => by rw [hr.2.1]; rfl
  obtain ⟨hinv, _⟩ := System.good_run (trafficSystem_sound hinj) hgood h
  intro s
  have hinv : s.Inv instanceId := hinv
  rw [hinv.appended]
  refine Finset.sum_congr rfl fun i _ => ?_
  -- nothing is left on the way of a call of the pod
  obtain ⟨hcounts, htaken, hfollowed⟩ := hq i
  obtain ⟨huncounted, hpending⟩ := hinv.followed i hfollowed
  have hcalls : s.ledger.recorded i = s.ledger.passed i := by
    have hcounts : s.counts i = 0 := hcounts
    have htaken : s.ledger.taken i = 0 := htaken
    rw [hinv.conserved i, hcounts, htaken, huncounted, hpending]
    omega
  rw [hcalls]

end System

/-! ## One pod -/

def onePod : Unit → String := fun _ => "5f1c0a9d2b7e"

abbrev PodConfig := Config (TrafficThread Unit) StoreRequest StoreRequest.Answer (TrafficState Unit) PyError

abbrev PodEvent := Event (TrafficThread Unit) Unit (TrafficEvent Unit)

def oneFlush : List PodEvent := .start (.pod ()) :: List.replicate 3 (.act (.pod ()) ())

/-- An aggregation of so many requests. -/
def oneAggregation (requests : Nat) : List PodEvent :=
  .start .aggregator :: List.replicate requests (.act .aggregator ())

/-- Two calls and one round of the timers. -/
def oneRound : List PodEvent :=
  [.environment (.record ()), .environment (.record ())] ++ oneFlush ++ [.environment (.pass 5000000)] ++
    oneAggregation 7

def podStart : PodConfig := System.initial (startState Dict.empty 0)

def podRun (events : List PodEvent) : TrafficState Unit :=
  (EventRun.run (trafficSystem onePod false).step podStart events).shared

instance (w : TrafficThread Unit) (o : StoreRequest) (c : Unit) (s : TrafficState Unit) :
    Decidable ((trafficSystem onePod false).allow w o c s) :=
  inferInstanceAs (Decidable (TrafficState.Regular onePod s w o))

/-- One flush, and one aggregation after it. -/
theorem traffic_counted_once_round :
    (podRun oneRound).ledger.appended = ∑ i, ((podRun oneRound).ledger.recorded i : ℚ) :=
  traffic_counted_once onePod false Dict.empty 0 (by decide) (by rintro _ ⟨⟩) (Or.inl rfl) oneRound
    (by decide +kernel) (by decide +kernel)

def Sequential (p : PodConfig) : PodEvent → Prop
  | .start w => (p.threads w).ended = true
  | _ => True

instance (p : PodConfig) (e : PodEvent) : Decidable (Sequential p e) := by
  cases e <;> unfold Sequential <;> infer_instance

/-- A second aggregation ten seconds later, before the next flush, counts the two calls again. -/
theorem traffic_counted_twice :
    let events := oneRound ++ [.environment (.pass 10000000)] ++ oneAggregation 8
    EventRun.Along (trafficSystem onePod false).step Sequential podStart events ∧
      (podRun events).Quiescent ∧ (podRun events).ledger.appended = 4 ∧
      ∑ i, ((podRun events).ledger.recorded i : ℚ) = 2 := by
  decide +kernel

/-! ## The last hour -/

section Hourly

variable (cfg : PredictSettings) (autoCreate : Bool)

/-- Along every run from an empty history with calls at least the interval apart, the sum that a call writes is the one
of the last hour exactly if the buckets of that hour that the history has no longer sum up to nothing. -/
theorem hourly_requests_exact_iff (s : S3State) (hempty : Traffic.StoredPoints s []) (steps : List HistoryStep)
    (hspaced : EventRun.Along (BucketRun.step cfg autoCreate) BucketRun.Spaced ⟨s, [], 0⟩ steps) :
    EventRun.Along (BucketRun.step cfg autoCreate)
      (fun r e => r.HourlyExact cfg autoCreate e ↔ r.HourFits cfg autoCreate e) ⟨s, [], 0⟩ steps :=
  EventRun.Along.imp (fun _ e hr _ => hr.step cfg autoCreate e) (fun _ _ hr hs => hr.hourlyExact_iff cfg autoCreate hs)
    (BucketRun.Kept.start hempty) hspaced

theorem hourly_requests_exact_iff_two :
    EventRun.Along (BucketRun.step {} false) (fun r e => r.HourlyExact {} false e ↔ r.HourFits {} false e)
      ⟨{}, [], 0⟩ [.aggregate { clock := 0 }, .aggregate { clock := 2000000 }] := by
  refine hourly_requests_exact_iff {} false {} (Or.inr ⟨rfl, rfl⟩) _ ⟨by simp [BucketRun.Spaced], ?_, trivial⟩
  have hstart : BucketRun.Kept ⟨{}, [], 0⟩ := BucketRun.Kept.start (Or.inr ⟨rfl, rfl⟩)
  obtain ⟨total, _, hrec, _⟩ := hstart.counted false { clock := 0 } (fun _ => rfl)
    (by rintro ⟨key, _, blob, hblob, _⟩; cases hblob)
    (fun total htotal => by
      have hzero : Traffic.countShards 0 {} (S3State.listObjects {} trafficInstancePrefix) = .ok 0 := by decide +kernel
      obtain rfl := Except.ok.inj (hzero.symm.trans htotal)
      exact hstart.hourInRange (show Traffic.historyMaxPoints * (0 : Int) < 2 ^ 53 by decide) (by rintro b ⟨⟩)
        (by decide))
  intro b hb
  rw [(BucketRun.step_recorded {} false hrec).1] at hb
  obtain rfl := List.mem_singleton.mp hb
  simp [Traffic.aggregateInterval]

/-- A shard that counts five calls. -/
def fiveCalls : Blob := .json (.obj [("count", .num 5), ("updated_at", isoformat 0)])

def denseCall (i : Nat) : StoreEnv := { clock := 2000000 * i }

/-- The shard, and `n` aggregations two seconds apart. -/
def denseRun (n : Nat) : List HistoryStep :=
  .put "traffic/instances/pod-a.json" fiveCalls :: (List.range n).map (fun i => .aggregate (denseCall i))

def afterDense (n : Nat) : BucketRun := EventRun.run (BucketRun.step {} false) ⟨{}, [], 0⟩ (denseRun n)

theorem denseRun_succ (n : Nat) : denseRun (n + 1) = denseRun n ++ [.aggregate (denseCall n)] := by
  simp [denseRun, List.range_succ]

theorem afterDense_succ (n : Nat) :
    afterDense (n + 1) = (afterDense n).step {} false (.aggregate (denseCall n)) := by
  rw [afterDense, denseRun_succ, EventRun.run_append]
  rfl

theorem not_blocks_fiveCalls (now : Int) : ¬ Traffic.ShardBlocks now fiveCalls := by
  intro h
  obtain ⟨exc, herror⟩ := h.error
  rw [fiveCalls, Traffic.shardResult_aware (t := 0) rfl rfl] at herror
  split at herror
  · rw [show (Json.field "count" [("count", Json.num 5), ("updated_at", isoformat 0)]).getD (.num 0) = .num 5 from rfl]
      at herror
    cases herror
  · cases herror

/-- Each of the calls records a bucket, and the first one the five calls. -/
structure Dense (n : Nat) (r : BucketRun) : Prop where
  kept : r.Kept
  shards : ∀ key, trafficInstancePrefix.toList.isPrefixOf key.toList = true →
    r.state.objects.get? key = none ∨ r.state.objects.get? key = some fiveCalls
  forgotten : r.forgotten = 0
  length : r.buckets.length = n
  times : ∀ b ∈ r.buckets, b.time + Traffic.aggregateInterval ≤ 2000000 * n
  first : 0 < n → r.buckets.head? = some ⟨0, 5⟩
  totals : ∀ b ∈ r.buckets, 0 ≤ b.total ∧ b.total ≤ 5000

theorem dense_zero : Dense 0 (afterDense 0) := by
  refine ⟨((BucketRun.Kept.start (Or.inr ⟨rfl, rfl⟩)).step {} false _), fun key _ => ?_, rfl, rfl, ?_, ?_, ?_⟩
  · have hobjects : (afterDense 0).state.objects = Dict.empty.set "traffic/instances/pod-a.json" fiveCalls := rfl
    rw [hobjects, Dict.get?_set]
    split
    · exact Or.inr rfl
    · exact Or.inl rfl
  · rintro b ⟨⟩
  · rintro ⟨⟩
  · rintro b ⟨⟩

theorem Dense.notBlocked {n : Nat} {r : BucketRun} (h : Dense n r) (now : Int) :
    ¬ Traffic.Blocked now r.state (r.state.listObjects trafficInstancePrefix) := by
  rintro ⟨key, hkey, blob, hblob, hblocks⟩
  have hmem := List.mem_of_mem_take hkey
  rcases h.shards key (S3State.mem_keysWith.mp hmem).2 with hnone | hfive
  · rw [hnone] at hblob
    cases hblob
  · rw [hfive] at hblob
    obtain rfl := Option.some.inj hblob
    exact not_blocks_fiveCalls now hblocks

theorem countShards_first :
    Traffic.countShards 0 (afterDense 0).state ((afterDense 0).state.listObjects trafficInstancePrefix) = .ok 5 := by
  have hlist : (afterDense 0).state.listObjects trafficInstancePrefix = ["traffic/instances/pod-a.json"] := by
    have hkeys : (afterDense 0).state.objects.keys.filter
        (fun key => trafficInstancePrefix.toList.isPrefixOf key.toList) = ["traffic/instances/pod-a.json"] := by decide
    rw [S3State.listObjects_eq_take, S3State.keysWith, hkeys, List.mergeSort_singleton]
    rfl
  rw [hlist]
  decide +kernel

/-- At most a thousand shards are counted, each with five calls. -/
theorem Dense.count_le {n : Nat} {r : BucketRun} (h : Dense n r) {now total : Int}
    (hcount : Traffic.countShards now r.state (r.state.listObjects trafficInstancePrefix) = .ok total) :
    0 ≤ total ∧ total ≤ 5000 := by
  obtain rfl := Except.ok.inj ((Traffic.countShards_ok (h.notBlocked now)).symm.trans hcount)
  have hshard : ∀ key ∈ r.state.listObjects trafficInstancePrefix,
      r.state.objects.get? key = none ∨ r.state.objects.get? key = some fiveCalls :=
    fun key hkey => h.shards key (S3State.mem_keysWith.mp (List.mem_of_mem_take hkey)).2
  have hloose : Traffic.shardSum r.state (Traffic.looseCount now) (r.state.listObjects trafficInstancePrefix) = 0 := by
    refine List.sum_eq_zero fun n hn => ?_
    obtain ⟨key, hkey, rfl⟩ := List.mem_map.mp hn
    rcases hshard key hkey with hnone | hfive
    · rw [hnone]
      rfl
    · rw [hfive]
      exact (ite_eq_right_iff.mpr fun _ => rfl : Traffic.looseCount now fiveCalls = 0)
  have hcounts : ∀ n ∈ (r.state.listObjects trafficInstancePrefix).map
      (fun key => ((r.state.objects.get? key).map (Traffic.wellFormedCount now)).getD 0), 0 ≤ n ∧ n ≤ 5 := by
    intro n hn
    obtain ⟨key, hkey, rfl⟩ := List.mem_map.mp hn
    rcases hshard key hkey with hnone | hfive
    · rw [hnone, Option.map_none, Option.getD_none]
      decide
    · have hvalue : Traffic.wellFormedCount now fiveCalls = if Traffic.Fresh now 0 then 5 else 0 := rfl
      rw [hfive, Option.map_some, Option.getD_some, hvalue]
      split <;> decide
  have hlength : (r.state.listObjects trafficInstancePrefix).length ≤ 1000 := List.length_take_le _ _
  have hnonneg := List.sum_nonneg fun n hn => (hcounts n hn).1
  have hle := List.sum_le_card_nsmul _ _ fun n hn => (hcounts n hn).2
  rw [List.length_map, nsmul_eq_mul] at hle
  rw [hloose, add_zero]
  unfold Traffic.shardSum
  omega

theorem Dense.counted {n : Nat} {r : BucketRun} (h : Dense n r) (env : StoreEnv) (hw : env.Working) :
    ∃ total, (r.state.exec env (Traffic.aggregate false)).1 = .ok total ∧
      r.recorded false (.aggregate env) = some ⟨env.clock, total⟩ ∧
      Traffic.countShards env.clock r.state (r.state.listObjects trafficInstancePrefix) = .ok total :=
  h.kept.counted false env hw (h.notBlocked _) fun _ hcount =>
    h.kept.hourInRange (show Traffic.historyMaxPoints * (5000 : Int) < 2 ^ 53 by decide) h.totals (h.count_le hcount)

theorem Dense.succ {n : Nat} (h : Dense n (afterDense n)) : Dense (n + 1) (afterDense (n + 1)) := by
  obtain ⟨total, hret, hrec, hcount⟩ := h.counted (denseCall n) (fun _ => rfl)
  obtain ⟨hbuckets, hforgotten⟩ := BucketRun.step_recorded {} false hrec
  rw [afterDense_succ]
  refine ⟨h.kept.step {} false _, fun key hkey => ?_, ?_, ?_, fun b hb => ?_, fun _ => ?_, fun b hb => ?_⟩
  · rw [h.kept.aggregate_get {} false _ (by rintro rfl; exact absurd hkey (by decide))
      (by rintro rfl; exact absurd hkey (by decide))]
    exact h.shards key hkey
  · rw [hforgotten, if_neg, h.forgotten]
    rintro ⟨code, hf⟩
    cases hf
  · rw [hbuckets, List.length_append, h.length]
    rfl
  · rw [hbuckets] at hb
    rcases List.mem_append.mp hb with hb | hb
    · have hle := h.times b hb
      push_cast
      omega
    · obtain rfl := List.mem_singleton.mp hb
      simp only [denseCall, Traffic.aggregateInterval]
      push_cast
      omega
  · rw [hbuckets]
    cases n with
    | zero =>
        rw [List.eq_nil_of_length_eq_zero h.length]
        obtain rfl := Except.ok.inj (countShards_first.symm.trans hcount)
        rfl
    | succ n =>
        rw [List.head?_append, h.first (Nat.succ_pos n)]
        rfl
  · rw [hbuckets] at hb
    rcases List.mem_append.mp hb with hb | hb
    · exact h.totals b hb
    · rw [List.mem_singleton.mp hb]
      exact h.count_le hcount

theorem dense (n : Nat) : Dense n (afterDense n) := by
  induction n with
  | zero => exact dense_zero
  | succ n ih => exact ih.succ

theorem denseRun_spaced (n : Nat) :
    EventRun.Along (BucketRun.step {} false) BucketRun.Spaced ⟨{}, [], 0⟩ (denseRun n) := by
  induction n with
  | zero => exact ⟨trivial, trivial⟩
  | succ n ih =>
      rw [denseRun_succ]
      refine EventRun.along_append.mpr ⟨ih, fun b hb => ?_, trivial⟩
      exact (dense n).times b hb

/-- After 1081 calls in 36 minutes, none of which fails, the first bucket of the hour is not in the sum. -/
theorem hourly_requests_drops_bucket :
    EventRun.Along (BucketRun.step {} false) BucketRun.Spaced ⟨{}, [], 0⟩ (denseRun 1081) ∧
      ¬ EventRun.Along (BucketRun.step {} false) (fun r e => r.HourlyExact {} false e) ⟨{}, [], 0⟩ (denseRun 1081) := by
  refine ⟨denseRun_spaced 1081, fun hexact => ?_⟩
  rw [denseRun_succ 1080] at hexact
  have hlast := (EventRun.along_append.mp hexact).2.1
  have hdense := dense 1080
  obtain ⟨total, hret, _⟩ := hdense.counted (denseCall 1080) (fun _ => rfl)
  have hspaced : (afterDense 1080).Spaced (.aggregate (denseCall 1080)) := hdense.times
  have hfits := (hdense.kept.hourlyExact_iff {} false hspaced).mp hlast total hret
  rw [← afterDense_succ] at hfits
  have hdense := dense (1080 + 1)
  have hmissing : (afterDense (1080 + 1)).missing = 1 := by
    rw [BucketRun.missing, hdense.forgotten, hdense.length]
    simp [Traffic.historyMaxPoints]
  obtain ⟨rest, hbuckets⟩ := List.head?_eq_some_iff.mp (hdense.first (Nat.succ_pos 1080))
  -- the others sum up to no more than a float holds
  have hlength : ((afterDense (1080 + 1)).buckets.drop 1).length ≤ Traffic.historyMaxPoints := by
    rw [List.length_drop, hdense.length]
    decide
  have hkept := BucketRun.abs_sum_lt (show Traffic.historyMaxPoints * (5000 : Int) < 2 ^ 53 by decide) hlength
    (fun b hb => hdense.totals b (List.mem_of_mem_drop hb))
    (fun b => (denseCall 1080).clock - hourMicros ≤ b.time ∧ b.time ≤ (denseCall 1080).clock)
  have hexact := round_intCast hkept
  simp only [hmissing] at hfits
  rw [BucketRun.hourSum, BucketRun.hourSum, hexact, sub_self, hbuckets] at hfits
  -- the first bucket is in the hour, and is not missing for nothing
  simp [denseCall, hourMicros] at hfits

end Hourly

/-! ## The history in buckets -/

/-- The returned buckets are contiguous. Their sum is the one of the window exactly if the points between the end of the
last bucket and now sum up to nothing, or, when that end is later than now, those after now and before it. -/
theorem traffic_history_sum_iff (minutes bucketSeconds : Int) (hm : 1 ≤ minutes) (hb : 1 ≤ bucketSeconds)
    (env : StoreEnv) (hw : env.Working) (s : S3State) (buckets : List TrafficBucket)
    (hs : Traffic.StoredPoints s (buckets.map TrafficBucket.point)) :
    let window := timedeltaMinutes minutes
    let since := env.clock - window
    let width := bucketSeconds * 1000000
    ∃ points, s.exec env (Traffic.trafficHistory minutes bucketSeconds) = (.ok points, s) ∧
      points.map TrafficPoint.timestamp =
        (List.range points.length).map (fun i : ℕ => since - since % width + i * width) ∧
      ((points.map TrafficPoint.requests).sum = Traffic.requestsBetween since env.clock buckets ↔
        if width ≤ since % width + window % width then
          Traffic.requestsBetween (Traffic.bucketsEnd since window width) env.clock buckets = 0
        else Traffic.requestsBetween (env.clock + 1) (Traffic.bucketsEnd since window width - 1) buckets = 0) := by
  intro window since width
  obtain ⟨points, hexec, htimes, hsum⟩ := Traffic.exec_trafficHistory hw hs (show 0 ≤ minutes by omega)
    (show 0 < bucketSeconds by omega)
  have hlength : points.length = (minutes * 60 / bucketSeconds + 1).toNat := by
    simpa using congrArg List.length htimes
  refine ⟨points, hexec, by rw [hlength]; exact htimes, ?_⟩
  have hiff := Traffic.requestsBetween_bucketsEnd_iff buckets since
    (show 0 ≤ window by simp only [window, timedeltaMinutes]; omega) (show 0 < width by simp only [width]; omega)
  rw [show since + window = env.clock from sub_add_cancel _ _] at hiff
  rw [hsum]
  exact hiff

/-- A bucket with these points as its history. -/
def historyOf (buckets : List TrafficBucket) : S3State where
  objects := Dict.empty.set trafficHistoryKey (.json (.arr (buckets.map TrafficBucket.point)))

/-- Ten minutes in buckets of ten seconds, with a point of a minute ago. -/
theorem traffic_history_sum_iff_minute :
    ∃ points, S3State.exec { clock := 600000000 } (Traffic.trafficHistory 10 10) (historyOf [⟨540000000, 5⟩]) =
        (.ok points, historyOf [⟨540000000, 5⟩]) ∧
      (points.map TrafficPoint.requests).sum = 5 := by
  obtain ⟨points, hexec, _, hiff⟩ := traffic_history_sum_iff 10 10 (by decide) (by decide) { clock := 600000000 }
    (fun _ => rfl) (historyOf [⟨540000000, 5⟩]) [⟨540000000, 5⟩] (Or.inl rfl)
  exact ⟨points, hexec, (hiff.mpr (by decide)).trans (by decide)⟩

/-- One minute in buckets of seven seconds, from 3 s on: the nine buckets end at 63 s, which is now. -/
theorem traffic_history_drops_point :
    ∃ points, S3State.exec { clock := 63000000 } (Traffic.trafficHistory 1 7) (historyOf [⟨63000000, 5⟩]) =
        (.ok points, historyOf [⟨63000000, 5⟩]) ∧
      (points.map TrafficPoint.requests).sum = 0 ∧
      Traffic.requestsBetween (63000000 - timedeltaMinutes 1) 63000000 [⟨63000000, 5⟩] = 5 := by
  obtain ⟨points, hexec, _, hsum⟩ := @Traffic.exec_trafficHistory { clock := 63000000 } (historyOf [⟨63000000, 5⟩])
    [⟨63000000, 5⟩] (fun _ => rfl) (Or.inl rfl) 1 7 (by decide) (by decide)
  exact ⟨points, hexec, hsum.trans (by decide), by decide⟩

/-! ## The counter of a pod -/

/-- At every point of a run the calls are those in the memory and in the written versions of the shard, exactly as long
as no write of a flush that has taken calls raises. -/
theorem traffic_counter_conserved_iff (autoCreate : Bool) (instanceId : String) (store : S3State)
    (events : List CounterEvent) :
    EventRun.Along (CounterState.step autoCreate instanceId) (fun s e => ¬ s.Loses autoCreate instanceId e)
        { store := store } events ↔
      ∀ pre post, events = pre ++ post →
        (EventRun.run (CounterState.step autoCreate instanceId) { store := store } pre).Conserved :=
  EventRun.along_iff_invariant (I := CounterState.Conserved) (fun _ e h => h.step_iff e)
    (by simp [CounterState.Conserved])

/-- One call, and a flush whose write is refused. -/
theorem traffic_counter_loses_call :
    ¬ (EventRun.run (CounterState.step false "5f1c0a9d2b7e") {}
      [.record, .flush { clock := 0, fault := fun _ => some (.clientError "SlowDown") }]).Conserved := by
  unfold CounterState.Conserved
  decide +kernel

/-! ## The shards -/

/-- The call returns, and records the sum of the counts of the well-formed shards that are fresh. -/
def Traffic.ShardsCounted (autoCreate : Bool) (env : StoreEnv) (s : S3State) : Prop :=
  let total := shardSum s (wellFormedCount env.clock) (s.keysWith trafficInstancePrefix)
  let after := (s.exec env (aggregate autoCreate)).2
  (s.exec env (aggregate autoCreate)).1 = .ok total ∧
    after.trafficNumber "current_bucket_requests" = some (.fin total) ∧
    (storedEntries (after.objects.get? trafficHistoryKey)).getLast? = some (historyPoint env.clock total)

/-- After every run from an empty history, whatever files were put under the prefix, a call on a store that works counts
the shards exactly if none of the thousand that are listed stops it, the counts among them that are no whole numbers
add up to what the shards that are not listed count, and the sum of the last hour has a float. -/
theorem shards_counted_iff (cfg : PredictSettings) (autoCreate : Bool) (s₀ : S3State)
    (hempty : Traffic.StoredPoints s₀ []) (steps : List HistoryStep) (env : StoreEnv) (hw : env.Working) :
    let s := EventRun.run (S3State.step cfg autoCreate) s₀ steps
    let listed := (s.keysWith trafficInstancePrefix).take 1000
    let unlisted := (s.keysWith trafficInstancePrefix).drop 1000
    Traffic.ShardsCounted autoCreate env s ↔
      ¬ Traffic.Blocked env.clock s listed ∧
        Traffic.shardSum s (Traffic.looseCount env.clock) listed =
          Traffic.shardSum s (Traffic.wellFormedCount env.clock) unlisted ∧
        Traffic.HourInRange env.clock s
          (Traffic.shardSum s (Traffic.wellFormedCount env.clock) (s.keysWith trafficInstancePrefix)) := by
  intro s listed unlisted
  let r := EventRun.run (BucketRun.step cfg autoCreate) ⟨s₀, [], 0⟩ steps
  have hkept : r.Kept :=
    EventRun.run_invariant (fun _ e hr => hr.step cfg autoCreate e) (BucketRun.Kept.start hempty) steps
  have hs : r.state = s := BucketRun.run_state cfg autoCreate ⟨s₀, [], 0⟩ steps
  have hcount := hkept.aggregate_working autoCreate hw
  have hrange := hkept.hourInRange_iff env.clock
  have hsplit : Traffic.shardSum s (Traffic.wellFormedCount env.clock) (s.keysWith trafficInstancePrefix) =
      Traffic.shardSum s (Traffic.wellFormedCount env.clock) listed +
        Traffic.shardSum s (Traffic.wellFormedCount env.clock) unlisted := by
    rw [← Traffic.shardSum_append, List.take_append_drop]
  have hlisted : s.listObjects trafficInstancePrefix = listed := S3State.listObjects_eq_take s trafficInstancePrefix
  rw [hs, hlisted] at hcount
  rw [hs] at hrange
  constructor
  · rintro ⟨hret, _, _⟩
    have hblocked : ¬ Traffic.Blocked env.clock s listed := by
      intro hblocked
      obtain ⟨exc, herror⟩ := Traffic.countShards_blocked hblocked
      rw [herror] at hcount
      cases hcount.symm.trans hret
    obtain ⟨total, htotal, hok⟩ := bind_eq_ok (hcount.symm.trans hret)
    obtain rfl := Except.ok.inj ((Traffic.countShards_ok hblocked).symm.trans htotal)
    cases hhourly : Traffic.trailingHourSum env.clock (Traffic.pointsWith env.clock s
        (Traffic.shardSum s (Traffic.wellFormedCount env.clock) listed +
          Traffic.shardSum s (Traffic.looseCount env.clock) listed)) with
    | error exc =>
        rw [hhourly] at hok
        cases hok
    | ok hourly =>
        rw [hhourly] at hok
        have hsum : Traffic.shardSum s (Traffic.wellFormedCount env.clock) listed +
          Traffic.shardSum s (Traffic.looseCount env.clock) listed = _ := Except.ok.inj hok
        exact ⟨hblocked, by omega, (hrange _).mpr ⟨hourly, hsum ▸ hhourly⟩⟩
  · rintro ⟨hblocked, hloose, hfloat⟩
    obtain ⟨hourly, hhourly⟩ := (hrange _).mp hfloat
    have hret := hcount
    rw [Traffic.countShards_ok hblocked, hloose, ← hsplit] at hret
    simp only [bind, Except.bind, hhourly, Except.map] at hret
    rw [← hs] at hret
    obtain ⟨bucket, hrec, htime, htotal, hcurrent, _⟩ := hkept.returned cfg autoCreate hret
    have hlast := hkept.last cfg autoCreate hrec
    rw [← hs]
    refine ⟨hret, hcurrent, hlast.trans ?_⟩
    rw [TrafficBucket.point, htime, htotal]

theorem shards_counted_iff_five :
    let s := EventRun.run (S3State.step {} false) {} [.put "traffic/instances/pod-a.json" fiveCalls]
    let listed := (s.keysWith trafficInstancePrefix).take 1000
    let unlisted := (s.keysWith trafficInstancePrefix).drop 1000
    Traffic.ShardsCounted false (denseCall 3) s ↔
      ¬ Traffic.Blocked (denseCall 3).clock s listed ∧
        Traffic.shardSum s (Traffic.looseCount (denseCall 3).clock) listed =
          Traffic.shardSum s (Traffic.wellFormedCount (denseCall 3).clock) unlisted ∧
        Traffic.HourInRange (denseCall 3).clock s
          (Traffic.shardSum s (Traffic.wellFormedCount (denseCall 3).clock) (s.keysWith trafficInstancePrefix)) :=
  shards_counted_iff {} false {} (Or.inr ⟨rfl, rfl⟩) [.put "traffic/instances/pod-a.json" fiveCalls] (denseCall 3)
    (fun _ => rfl)

/-- A shard whose time has no zone, beside one that counts five calls. -/
def naiveShard : List HistoryStep :=
  [.put "traffic/instances/pod-a.json" fiveCalls,
    .put "traffic/instances/pod-b.json" (.json (.obj [("count", .num 1), ("updated_at", .str (.naive 0))]))]

/-- The call raises, and the five calls are not counted. -/
theorem shards_blocked_by_naive_time :
    let s := EventRun.run (S3State.step {} false) {} naiveShard
    (∃ exc, (s.exec (denseCall 3) (Traffic.aggregate false)).1 = .error exc) ∧
      ¬ Traffic.ShardsCounted false (denseCall 3) s := by
  intro s
  have hkept : BucketRun.Kept ⟨s, [], 0⟩ := BucketRun.Kept.start (Or.inr ⟨rfl, rfl⟩)
  have hblocked : Traffic.Blocked (denseCall 3).clock s (s.listObjects trafficInstancePrefix) := by
    refine ⟨"traffic/instances/pod-b.json", ?_, _, rfl, .withoutZone rfl rfl⟩
    exact (Traffic.mem_listObjects s _ (by decide)).mpr (by decide)
  obtain ⟨exc, herror⟩ := Traffic.countShards_blocked hblocked
  have hworking : (denseCall 3).Working := fun _ => rfl
  have hraise := hkept.aggregate_working false hworking
  rw [herror] at hraise
  refine ⟨⟨exc, hraise⟩, ?_⟩
  rintro ⟨hret, _⟩
  cases hraise.symm.trans hret

end Hailcast
