import Hailcast.Lib.EventRun
import Hailcast.Store.Lemmas
import Hailcast.Traffic.Aggregator

/-!
# The counter of one pod

Calls and flushes in sequence. A flush takes the count before its write, so the calls that come during the write are
counted for the next one; an exception of a flush ends it, and the scheduler goes on.
-/

namespace Hailcast

structure CounterState where
  store : S3State := {}
  /-- `TrafficCounter._count` -/
  count : Nat := 0
  /-- The calls of `record` so far. -/
  recorded : Nat := 0
  /-- The versions of the shard that have been written. -/
  versions : List Blob := []

/-- What happens during a flush: `between` calls come after the reset, and the requests to the store may raise. -/
structure FlushEnv where
  clock : Int
  between : Nat := 0
  fault : StoreRequest → Option PyError := fun _ => none

/-- Neither the lock of the counter nor the clock raises. -/
def FlushEnv.storeEnv (env : FlushEnv) (count : Nat) : StoreEnv where
  fault
    | .takeCount => none
    | .now => none
    | o => env.fault o
  clock := env.clock
  count := count

inductive CounterEvent where
  | record
  | flush (env : FlushEnv)

/-- The `count` of a version of the shard. -/
def versionCount : Blob → ℚ
  | .json body =>
      match body.index "count" >>= Json.toNumber with
      | .ok (.fin count) => count
      | _ => 0
  | .text _ => 0

namespace CounterState

def flush (autoCreate : Bool) (instanceId : String) (s : CounterState) (env : FlushEnv) : CounterState :=
  let (result, store) := s.store.exec (env.storeEnv s.count) (Traffic.flush autoCreate instanceId)
  { store := store
    count := env.between
    recorded := s.recorded + env.between
    versions :=
      match result with
      | .ok _ => s.versions ++ (store.objects.get? (Traffic.shardKey instanceId)).toList
      | .error _ => s.versions }

def step (autoCreate : Bool) (instanceId : String) (s : CounterState) : CounterEvent → CounterState
  | .record => { s with count := s.count + 1, recorded := s.recorded + 1 }
  | .flush env => s.flush autoCreate instanceId env

/-! ## What a flush loses -/

/-- Every call is in the memory or in a version that has been written. -/
def Conserved (s : CounterState) : Prop := (s.recorded : ℚ) = s.count + (s.versions.map versionCount).sum

def shard (count : Nat) (time : Int) : Json := .obj [("count", .num count), ("updated_at", isoformat time)]

/-- The write of the shard raises. -/
def WriteRaises (autoCreate : Bool) (instanceId : String) (s : CounterState) (env : FlushEnv) : Prop :=
  ∃ exc, (s.store.exec (env.storeEnv s.count)
    (FileStore.writeJson autoCreate (Traffic.shardKey instanceId) (shard s.count env.clock))).1 = .error exc

/-- A flush that has taken calls does not write them. -/
def Loses (autoCreate : Bool) (instanceId : String) (s : CounterState) : CounterEvent → Prop
  | .record => False
  | .flush env => 0 < s.count ∧ s.WriteRaises autoCreate instanceId env

variable {autoCreate : Bool} {instanceId : String} {s : CounterState}

theorem exec_flush (env : FlushEnv) (s : CounterState) :
    s.store.exec (env.storeEnv s.count) (Traffic.flush autoCreate instanceId) =
      s.store.exec (env.storeEnv s.count)
        (FileStore.writeJson autoCreate (Traffic.shardKey instanceId) (shard s.count env.clock)) := by
  unfold S3State.exec Traffic.flush storeRequest
  rw [Prog.exec_bind, Prog.exec_perform]
  simp only [S3State.handler, FlushEnv.storeEnv, S3State.answer]
  rw [Prog.exec_bind, Prog.exec_perform]
  rfl

theorem versionCount_shard (count : Nat) (time : Int) : versionCount (.json (shard count time)) = count := rfl

/-- The version that a flush leaves when it returns, and the calls of the pod afterwards in any case. -/
theorem flush_eq (autoCreate : Bool) (instanceId : String) (env : FlushEnv) (s : CounterState) :
    (s.flush autoCreate instanceId env).count = env.between ∧
      (s.flush autoCreate instanceId env).recorded = s.recorded + env.between ∧
      (s.WriteRaises autoCreate instanceId env → (s.flush autoCreate instanceId env).versions = s.versions) ∧
      (¬ s.WriteRaises autoCreate instanceId env →
        (s.flush autoCreate instanceId env).versions = s.versions ++ [.json (shard s.count env.clock)]) := by
  have hwrite := S3State.wp_writeJson (env.storeEnv s.count) autoCreate (Traffic.shardKey instanceId)
    (shard s.count env.clock) s.store
  unfold Prog.wp at hwrite
  unfold flush WriteRaises
  rw [exec_flush]
  unfold S3State.exec
  split at hwrite
  · rename_i a store hexec
    rw [hexec]
    refine ⟨rfl, rfl, ?_, fun _ => ?_⟩
    · rintro ⟨exc, he⟩
      cases he
    · simp [hwrite, Dict.get?_set]
  · rename_i exc store hexec
    rw [hexec]
    exact ⟨rfl, rfl, fun _ => rfl, fun hno => absurd ⟨exc, rfl⟩ hno⟩

theorem Conserved.flush_iff (h : s.Conserved) (env : FlushEnv) :
    (s.flush autoCreate instanceId env).Conserved ↔ ¬ s.Loses autoCreate instanceId (.flush env) := by
  obtain ⟨hcount, hrecorded, hraises, hwritten⟩ := flush_eq autoCreate instanceId env s
  have hkept : s.count = 0 ↔ (s.count : ℚ) = 0 := Nat.cast_eq_zero.symm
  unfold Conserved at h ⊢
  rw [hcount, hrecorded, Loses]
  push_cast
  by_cases hr : s.WriteRaises autoCreate instanceId env
  · rw [hraises hr, and_iff_left hr, not_lt, Nat.le_zero, hkept]
    constructor
    · intro hsum
      linarith
    · intro hzero
      linarith
  · rw [hwritten hr]
    refine iff_of_true ?_ fun hl => hr hl.2
    rw [List.map_append, List.sum_append, List.map_singleton, List.sum_singleton, versionCount_shard]
    linarith

theorem Conserved.step_iff (h : s.Conserved) (e : CounterEvent) :
    (s.step autoCreate instanceId e).Conserved ↔ ¬ s.Loses autoCreate instanceId e := by
  cases e with
  | record =>
      refine iff_of_true ?_ id
      unfold Conserved at h ⊢
      simp only [step]
      push_cast
      linarith
  | flush env => exact h.flush_iff env

end CounterState

end Hailcast
