import Hailcast.Lib.Concurrent
import Hailcast.Store.Lemmas
import Hailcast.Traffic.Aggregator
import Mathlib.Algebra.BigOperators.Fin
import Mathlib.Data.Fintype.BigOperators

/-!
# Pods and aggregator

The counting pods and the aggregator as threads over one bucket. A ledger, which no thread reads, follows each
recorded call from the memory of its pod to the history.
-/

namespace Hailcast

inductive TrafficThread (ι : Type) where
  | pod (i : ι)
  | aggregator
deriving DecidableEq

/-- A shard file: its count, its `updated_at`, and whether the aggregator has read it. -/
structure Shard where
  count : Nat
  time : Int
  counted : Bool

def Shard.body (shard : Shard) : Blob :=
  .json (.obj [("count", .num shard.count), ("updated_at", isoformat shard.time)])

def Shard.uncounted (shard : Shard) : Nat := if shard.counted then 0 else shard.count

def Shard.stale (since : Int) (shard : Shard) : Prop := staleAfterSeconds < totalSeconds (since - shard.time)

instance (since : Int) (shard : Shard) : Decidable (shard.stale since) :=
  inferInstanceAs (Decidable (_ < _))

def Shard.added (since : Int) (shard : Shard) : Nat := if shard.stale since then 0 else shard.count

structure Ledger (ι : Type) where
  recorded : ι → Nat := fun _ => 0
  /-- The count of a flush that has not written its shard. -/
  taken : ι → Nat := fun _ => 0
  /-- The time that the flush has read. -/
  stamped : ι → Int := fun _ => 0
  /-- The last shard that each pod has written. -/
  shards : ι → Option Shard := fun _ => none
  /-- The start of the current aggregation. -/
  since : Int := 0
  /-- No flush of the pod has written since then. -/
  covered : ι → Bool := fun _ => false
  /-- An aggregation has been appended that started after the last flush of the pod. -/
  followed : ι → Bool := fun _ => true
  /-- What the current aggregation has read. -/
  pending : ι → Nat := fun _ => 0
  passed : ι → Nat := fun _ => 0
  /-- The sum of the `requests` values appended to the history. -/
  appended : ℚ := 0

/-- The count of the pod's last shard that has not been read. -/
def Ledger.uncounted {ι : Type} (l : Ledger ι) (i : ι) : Nat := ((l.shards i).map Shard.uncounted).getD 0

def Ledger.added {ι : Type} (l : Ledger ι) (i : ι) : Nat := ((l.shards i).map (Shard.added l.since)).getD 0

structure TrafficState (ι : Type) where
  objects : Dict String Blob
  ensured : TrafficThread ι → Bool := fun _ => false
  clock : Int := 0
  /-- `TrafficCounter._count` -/
  counts : ι → Nat := fun _ => 0
  ledger : Ledger ι := {}

/-- The `requests` value of the last point of a history. -/
def lastRequests : Blob → ℚ
  | .json (.arr points) =>
      match points.getLast? with
      | some point =>
          match point.index "requests" >>= Json.toNumber with
          | .ok (.fin requests) => requests
          | _ => 0
      | none => 0
  | _ => 0

section System

variable {ι : Type} [DecidableEq ι] (instanceId : ι → String)

def podKey (i : ι) : String := Traffic.shardKey (instanceId i)

/-! ## One request -/

/-- The ledger after a request. -/
def Ledger.observe (l : Ledger ι) (clock : Int) (counts : ι → Nat) : TrafficThread ι → StoreRequest → Ledger ι
  | .pod i, .takeCount => { l with taken := Function.update l.taken i (counts i) }
  | .pod i, .now => { l with stamped := Function.update l.stamped i clock }
  | .pod i, .putObject _ _ =>
      { l with
        shards := Function.update l.shards i (some ⟨l.taken i, l.stamped i, false⟩)
        taken := Function.update l.taken i 0
        covered := Function.update l.covered i false
        followed := Function.update l.followed i false }
  | .aggregator, .now => { l with since := clock, covered := fun _ => true }
  | .aggregator, .getObject key =>
      { l with
        shards := fun i =>
          if podKey instanceId i = key then (l.shards i).map (fun shard => { shard with counted := true })
          else l.shards i
        pending := fun i => if podKey instanceId i = key then l.pending i + l.added i else l.pending i }
  | .aggregator, .putObject key body =>
      if key = trafficHistoryKey then
        { l with
          passed := fun i => l.passed i + l.pending i
          pending := fun _ => 0
          followed := fun i => l.followed i || l.covered i
          appended := l.appended + lastRequests body }
      else l
  | _, _ => l

/-- What a thread finds outside of the store. -/
def TrafficState.env (s : TrafficState ι) : TrafficThread ι → StoreEnv
  | .pod i => { clock := s.clock, count := s.counts i }
  | .aggregator => { clock := s.clock }

/-- `takeCount` resets the count of the pod. -/
def countsAfter (counts : ι → Nat) : TrafficThread ι → StoreRequest → ι → Nat
  | .pod i, .takeCount => Function.update counts i 0
  | _, _ => counts

def TrafficState.answer (s : TrafficState ι) (w : TrafficThread ι) (o : StoreRequest) :
    Except PyError o.Answer × TrafficState ι :=
  let (r, bucket) := S3State.answer (s.env w) ⟨s.objects, s.ensured w⟩ o
  (r, { s with
    objects := bucket.objects
    ensured := Function.update s.ensured w bucket.ensured
    counts := countsAfter s.counts w o
    ledger := s.ledger.observe instanceId s.clock s.counts w o })

/-! ## Regular runs -/

/-- A flush replaces only a shard that has been read or has no count; a listing has room for every shard; and the
aggregator skips exactly the shards that it has read before, except for those without a count. -/
def TrafficState.Regular (s : TrafficState ι) : TrafficThread ι → StoreRequest → Prop
  | .pod i, .putObject _ _ => s.ledger.uncounted i = 0
  | .aggregator, .listObjects pfx =>
      (s.objects.keys.filter (fun key => pfx.toList.isPrefixOf key.toList)).length ≤ 1000
  | .aggregator, .getObject key => ∀ i, podKey instanceId i = key → ∀ shard ∈ s.ledger.shards i,
      shard.count = 0 ∨ (shard.counted = true ↔ shard.stale s.ledger.since)
  | _, _ => True

instance TrafficState.decidableRegular [Fintype ι] (s : TrafficState ι) (w : TrafficThread ι) (o : StoreRequest) :
    Decidable (s.Regular instanceId w o) := by
  unfold TrafficState.Regular
  split <;> infer_instance

/-! ## What holds between two requests -/

structure TrafficState.Inv [Fintype ι] (s : TrafficState ι) : Prop where
  shard : ∀ i, s.objects.get? (podKey instanceId i) = (s.ledger.shards i).map Shard.body
  only : ∀ key ∈ s.objects.keys, trafficInstancePrefix.toList.isPrefixOf key.toList = true →
    ∃ i, podKey instanceId i = key
  history : s.objects.get? trafficHistoryKey = none ∨
    ∃ points, s.objects.get? trafficHistoryKey = some (.json (.arr points))
  conserved : ∀ i, s.ledger.recorded i =
    s.counts i + s.ledger.taken i + s.ledger.uncounted i + s.ledger.pending i + s.ledger.passed i
  appended : s.ledger.appended = ∑ i, (s.ledger.passed i : ℚ)
  followed : ∀ i, s.ledger.followed i = true → s.ledger.uncounted i = 0 ∧ s.ledger.pending i = 0

/-- What a thread can rely on. -/
def TrafficState.Rely : TrafficThread ι → TrafficState ι → TrafficState ι → Prop
  | .pod i, s, s' => s'.ledger.taken i = s.ledger.taken i ∧ s'.ledger.stamped i = s.ledger.stamped i
  | .aggregator, s, s' => s'.ledger.since = s.ledger.since ∧ s'.ledger.pending = s.ledger.pending ∧
      s'.objects.get? trafficHistoryKey = s.objects.get? trafficHistoryKey ∧
      (∀ i, (s.ledger.shards i).isSome → (s'.ledger.shards i).isSome) ∧
      ∀ i, s'.ledger.covered i = true → s.ledger.covered i = true ∧ s'.ledger.shards i = s.ledger.shards i

omit [DecidableEq ι] in
theorem TrafficState.rely_refl (w : TrafficThread ι) (s : TrafficState ι) : s.Rely w s := by
  cases w with
  | pod i => exact ⟨rfl, rfl⟩
  | aggregator => exact ⟨rfl, rfl, rfl, fun _ h => h, fun _ h => ⟨h, rfl⟩⟩

omit [DecidableEq ι] in
theorem TrafficState.rely_trans (w : TrafficThread ι) (s s' s'' : TrafficState ι) (h : Rely w s s')
    (h' : Rely w s' s'') : Rely w s s'' := by
  cases w with
  | pod i => exact ⟨h'.1.trans h.1, h'.2.trans h.2⟩
  | aggregator =>
      obtain ⟨h₁, h₂, h₃, h₄, h₅⟩ := h
      obtain ⟨h₁', h₂', h₃', h₄', h₅'⟩ := h'
      refine ⟨h₁'.trans h₁, h₂'.trans h₂, h₃'.trans h₃, fun i hi => h₄' i (h₄ i hi), fun i hi => ?_⟩
      obtain ⟨hc', hs'⟩ := h₅' i hi
      obtain ⟨hc, hs⟩ := h₅ i hc'
      exact ⟨hc, hs'.trans hs⟩

/-! ## The system -/

inductive TrafficEvent (ι : Type) where
  /-- `TrafficCounter.record` -/
  | record (i : ι)
  | pass (micros : Nat)

def TrafficState.environment (s : TrafficState ι) : TrafficEvent ι → TrafficState ι
  | .record i =>
      { s with
        counts := Function.update s.counts i (s.counts i + 1)
        ledger := { s.ledger with recorded := Function.update s.ledger.recorded i (s.ledger.recorded i + 1) } }
  | .pass micros => { s with clock := s.clock + micros }

def trafficSystem [Fintype ι] (autoCreate : Bool) :
    Concurrent.System (TrafficThread ι) StoreRequest StoreRequest.Answer Unit (TrafficEvent ι) (TrafficState ι)
      PyError where
  answer w o _ s := some (s.answer instanceId w o)
  allow w o _ s := s.Regular instanceId w o
  inv := TrafficState.Inv instanceId
  rely := TrafficState.Rely
  rely_refl := TrafficState.rely_refl
  rely_trans := TrafficState.rely_trans
  body
    | .pod i => Traffic.flush autoCreate (instanceId i)
    | .aggregator => do let _ ← Traffic.aggregate autoCreate
  crashes := false
  reset _ _ s := s
  environment e s := s.environment e
  done
    | .pod i, s => s.ledger.taken i = 0
    | .aggregator, s => ∀ i, s.ledger.pending i = 0

end System

end Hailcast
