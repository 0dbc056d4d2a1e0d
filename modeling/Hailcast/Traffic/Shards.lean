import Hailcast.Store.Working
import Hailcast.Traffic.Aggregator

/-!
# What an aggregation makes of the shards

The contents of a shard file by what `_sum_active_instances` does with them: a shard that stops the call, a
well-formed one, and one whose count is no whole number but is accepted by `int`.
-/

namespace Hailcast

variable {env : StoreEnv} {s : S3State} {now : Int}

namespace Traffic

/-! ## One shard -/

/-- The time is at most 30 seconds old. -/
def Fresh (now t : Int) : Prop := totalSeconds (now - t) ≤ staleAfterSeconds

instance (now t : Int) : Decidable (Fresh now t) := inferInstanceAs (Decidable (_ ≤ _))

def shardResult (now : Int) (blob : Option Blob) : Except PyError Int := loadBlob blob >>= shardCount now

/-- The contents at which the call stops with an exception. -/
inductive ShardBlocks (now : Int) : Blob → Prop where
  | notJson (text : String) : ShardBlocks now (.text text)
  | notObject {body : Json} (htruthy : body.truthy = true) (hobj : ∀ kvs, body ≠ .obj kvs) :
      ShardBlocks now (.json body)
  | notString {kvs : List (String × Json)} {v : Json} (hfield : Json.field "updated_at" kvs = some v)
      (hstr : ∀ x, v ≠ .str x) : ShardBlocks now (.json (.obj kvs))
  | withoutZone {kvs : List (String × Json)} {x : Json} {wall : Int} (hfield : Json.field "updated_at" kvs = some x)
      (hnaive : fromisoformat x = .ok (.naive wall)) : ShardBlocks now (.json (.obj kvs))
  | notInt {kvs : List (String × Json)} {x : Json} {t : Int} {v : Json} {exc : PyError}
      (hfield : Json.field "updated_at" kvs = some x) (haware : fromisoformat x = .ok (.aware t))
      (hfresh : Fresh now t) (hcount : Json.field "count" kvs = some v) (hint : v.toInt = .error exc) :
      ShardBlocks now (.json (.obj kvs))

/-- A whole number. -/
def wholeInt : Json → Int
  | .num q => if q.den = 1 then q.num else 0
  | _ => 0

/-- What `int` makes of a value that is no whole number. -/
def looseInt : Json → Int
  | .num q => if q.den = 1 then 0 else if 0 ≤ q then ⌊q⌋ else ⌈q⌉
  | v =>
      match v.toInt with
      | .ok n => n
      | .error _ => 0

/-- The count, as it is read, of an object with an aware time that is fresh. -/
def freshCount (read : Json → Int) (now : Int) : Blob → Int
  | .json (.obj kvs) =>
      match (Json.field "updated_at" kvs).map fromisoformat, Json.field "count" kvs with
      | some (.ok (.aware t)), some v => if Fresh now t then read v else 0
      | _, _ => 0
  | _ => 0

/-- What a shard is to count: a well-formed one its whole number, if it is fresh. -/
def wellFormedCount (now : Int) (blob : Blob) : Int := freshCount wholeInt now blob

/-- What a shard adds besides, by a count that is no whole number. -/
def looseCount (now : Int) (blob : Blob) : Int := freshCount looseInt now blob

theorem toInt_whole {q : ℚ} (h : q.den = 1) : Json.toInt (.num q) = .ok q.num := by
  have hq : q = (q.num : ℚ) := ((Rat.den_eq_one_iff q).mp h).symm
  rw [Json.toInt, hq]
  simp

theorem toInt_eq {v : Json} {n : Int} (h : v.toInt = .ok n) : n = wholeInt v + looseInt v := by
  cases v with
  | num q =>
      by_cases hq : q.den = 1
      · rw [toInt_whole hq] at h
        simp only [wholeInt, looseInt, if_pos hq]
        exact (Except.ok.inj h).symm.trans (add_zero _).symm
      · simp only [wholeInt, looseInt, if_neg hq, zero_add]
        exact (Except.ok.inj h).symm
  | _ => simp [wholeInt, looseInt, h]

section Object

variable {kvs : List (String × Json)} {v : Json}

theorem shardResult_missing (h : Json.field "updated_at" kvs = none) :
    shardResult now (some (.json (.obj kvs))) = .ok 0 := by
  cases kvs with
  | nil => rfl
  | cons kv kvs =>
      change shardCount now (some (.obj (kv :: kvs))) = .ok 0
      simp [shardCount, Json.truthy, Json.index, h, bind, Except.bind]

theorem shardResult_valueError (h : Json.field "updated_at" kvs = some v) (hv : fromisoformat v = .error .valueError) :
    shardResult now (some (.json (.obj kvs))) = .ok 0 := by
  cases kvs with
  | nil => cases h
  | cons kv kvs =>
      change shardCount now (some (.obj (kv :: kvs))) = .ok 0
      simp [shardCount, Json.truthy, Json.index, h, bind, Except.bind, hv]

theorem shardResult_typeError (h : Json.field "updated_at" kvs = some v)
    (hv : fromisoformat v = .error .typeError ∨ ∃ wall, fromisoformat v = .ok (.naive wall)) :
    shardResult now (some (.json (.obj kvs))) = .error .typeError := by
  cases kvs with
  | nil => cases h
  | cons kv kvs =>
      change shardCount now (some (.obj (kv :: kvs))) = .error .typeError
      rcases hv with hv | ⟨wall, hv⟩ <;>
        simp [shardCount, Json.truthy, Json.index, h, bind, Except.bind, hv, Stamp.before]

theorem shardResult_aware {t : Int} (h : Json.field "updated_at" kvs = some v) (hv : fromisoformat v = .ok (.aware t)) :
    shardResult now (some (.json (.obj kvs))) =
      if Fresh now t then ((Json.field "count" kvs).getD (.num 0)).toInt else .ok 0 := by
  cases kvs with
  | nil => cases h
  | cons kv kvs =>
      change shardCount now (some (.obj (kv :: kvs))) = _
      by_cases hfresh : totalSeconds (now - t) ≤ staleAfterSeconds
      · simp [shardCount, Json.truthy, Json.index, Json.get, h, bind, Except.bind, hv, Stamp.before, Fresh, hfresh,
          not_lt.mpr hfresh]
      · simp [shardCount, Json.truthy, Json.index, h, bind, Except.bind, hv, Stamp.before, Fresh, hfresh,
          not_le.mp hfresh]
        rfl

theorem freshCount_aware {read : Json → Int} {t : Int} (h : Json.field "updated_at" kvs = some v)
    (hv : fromisoformat v = .ok (.aware t)) :
    freshCount read now (.json (.obj kvs)) = if Fresh now t then ((Json.field "count" kvs).map read).getD 0 else 0 := by
  cases hcount : Json.field "count" kvs <;> simp [freshCount, h, hv, hcount]

theorem freshCount_other {read : Json → Int}
    (h : ∀ v t, Json.field "updated_at" kvs = some v → fromisoformat v ≠ .ok (.aware t)) :
    freshCount read now (.json (.obj kvs)) = 0 := by
  simp only [freshCount]
  split
  · rename_i t v hstamp hcount
    obtain ⟨x, hfield, hx⟩ := Option.map_eq_some_iff.mp hstamp
    exact absurd hx (h x t hfield)
  · rfl

end Object

theorem ShardBlocks.error {blob : Blob} (h : ShardBlocks now blob) :
    ∃ exc, shardResult now (some blob) = .error exc := by
  cases h with
  | notJson text => exact ⟨_, rfl⟩
  | @notObject body htruthy hobj =>
      refine ⟨.typeError, ?_⟩
      cases body with
      | obj kvs => exact absurd rfl (hobj kvs)
      | _ => simp [shardResult, loadBlob, Blob.loads, Except.map, bind, Except.bind, shardCount, htruthy, Json.index]
  | @notString kvs v hfield hstr =>
      refine ⟨.typeError, shardResult_typeError hfield (Or.inl ?_)⟩
      cases v with
      | str x => exact absurd rfl (hstr x)
      | _ => rfl
  | withoutZone hfield hnaive => exact ⟨.typeError, shardResult_typeError hfield (Or.inr ⟨_, hnaive⟩)⟩
  | @notInt kvs x t v exc hfield haware hfresh hcount hint =>
      refine ⟨exc, ?_⟩
      rw [shardResult_aware hfield haware, if_pos hfresh, hcount]
      exact hint

theorem shardResult_obj {kvs : List (String × Json)} (h : ¬ ShardBlocks now (.json (.obj kvs))) :
    shardResult now (some (.json (.obj kvs))) =
      .ok (wellFormedCount now (.json (.obj kvs)) + looseCount now (.json (.obj kvs))) := by
  unfold wellFormedCount looseCount
  by_cases haware : ∃ x t, Json.field "updated_at" kvs = some x ∧ fromisoformat x = .ok (.aware t)
  · obtain ⟨x, t, hfield, hstamp⟩ := haware
    rw [shardResult_aware hfield hstamp, freshCount_aware hfield hstamp, freshCount_aware hfield hstamp]
    by_cases hfresh : Fresh now t
    · simp only [if_pos hfresh]
      cases hcount : Json.field "count" kvs with
      | none => rfl
      | some v =>
          cases hint : v.toInt with
          | error exc => exact absurd (.notInt hfield hstamp hfresh hcount hint) h
          | ok n => simp [hint, toInt_eq hint]
    · simp [hfresh]
  · have hother : ∀ v t, Json.field "updated_at" kvs = some v → fromisoformat v ≠ .ok (.aware t) :=
      fun v t hfield hstamp => haware ⟨v, t, hfield, hstamp⟩
    rw [freshCount_other hother, freshCount_other hother]
    cases hfield : Json.field "updated_at" kvs with
    | none => exact shardResult_missing hfield
    | some v =>
        cases hstamp : fromisoformat v with
        | ok stamp =>
            cases stamp with
            | aware t => exact absurd hstamp (hother v t hfield)
            | naive wall => exact absurd (.withoutZone hfield hstamp) h
        | error exc =>
            cases v with
            | str x =>
                cases x with
                | text s => exact shardResult_valueError hfield rfl
                | _ => cases hstamp
            | _ => exact absurd (.notString hfield (by simp)) h

/-- A shard that does not stop the call adds its count, and what `int` makes of a count that is no whole number. -/
theorem shardResult_counts {blob : Blob} (h : ¬ ShardBlocks now blob) :
    shardResult now (some blob) = .ok (wellFormedCount now blob + looseCount now blob) := by
  cases blob with
  | text t => exact absurd (.notJson t) h
  | json body =>
      have hfalsy : (∀ kvs, body ≠ .obj kvs) → body.truthy = false := by
        intro hobj
        by_contra htruthy
        exact h (.notObject (by simpa using htruthy) hobj)
      cases body with
      | obj kvs => exact shardResult_obj h
      | _ =>
          have hfalsy := hfalsy (by simp)
          simp [shardResult, loadBlob, Blob.loads, Except.map, bind, Except.bind, shardCount, hfalsy, wellFormedCount,
            looseCount, freshCount]

/-! ## The sum of the listed shards -/

theorem foldlM_add_ok {α ε : Type} {f : α → Except ε Int} {g : α → Int} {xs : List α} (h : ∀ x ∈ xs, f x = .ok (g x))
    (a : Int) : xs.foldlM (fun n x => do return n + (← f x)) a = .ok (a + (xs.map g).sum) := by
  induction xs generalizing a with
  | nil => simp; rfl
  | cons x xs ih =>
      have hx : f x = .ok (g x) := h x List.mem_cons_self
      have hxs := ih (fun y hy => h y (List.mem_cons_of_mem _ hy)) (a + g x)
      simp only [List.foldlM_cons, hx, List.map_cons, List.sum_cons, ← add_assoc]
      exact hxs

theorem foldlM_add_error {α ε : Type} {f : α → Except ε Int} {xs : List α} (h : ∃ x ∈ xs, ∃ e, f x = .error e)
    (a : Int) : ∃ e, xs.foldlM (fun n x => do return n + (← f x)) a = .error e := by
  obtain ⟨x, hx, e, he⟩ := h
  induction xs generalizing a with
  | nil => cases hx
  | cons y ys ih =>
      rw [List.foldlM_cons]
      cases hy : f y with
      | error e' => exact ⟨e', rfl⟩
      | ok n =>
          rcases List.mem_cons.mp hx with rfl | hmem
          · rw [he] at hy
            cases hy
          · exact ih (a + n) hmem

/-- The objects under the keys, counted one by one. -/
def shardSum (s : S3State) (count : Blob → Int) (keys : List String) : Int :=
  (keys.map fun key => ((s.objects.get? key).map count).getD 0).sum

theorem shardSum_append (s : S3State) (count : Blob → Int) (keys keys' : List String) :
    shardSum s count (keys ++ keys') = shardSum s count keys + shardSum s count keys' := by
  simp [shardSum]

/-- A shard among those under the keys stops the call. -/
def Blocked (now : Int) (s : S3State) (keys : List String) : Prop :=
  ∃ key ∈ keys, ∃ blob, s.objects.get? key = some blob ∧ ShardBlocks now blob

def countShards (now : Int) (s : S3State) (keys : List String) : Except PyError Int :=
  keys.foldlM (fun total key => do return total + (← shardResult now (s.objects.get? key))) 0

theorem countShards_blocked {keys : List String} (h : Blocked now s keys) :
    ∃ exc, countShards now s keys = .error exc := by
  obtain ⟨key, hkey, blob, hblob, hblocks⟩ := h
  refine foldlM_add_error ⟨key, hkey, ?_⟩ 0
  rw [hblob]
  exact hblocks.error

theorem countShards_ok {keys : List String} (h : ¬ Blocked now s keys) :
    countShards now s keys = .ok (shardSum s (wellFormedCount now) keys + shardSum s (looseCount now) keys) := by
  have hcount : ∀ key ∈ keys, shardResult now (s.objects.get? key) =
      .ok (((s.objects.get? key).map (wellFormedCount now)).getD 0 +
        ((s.objects.get? key).map (looseCount now)).getD 0) := by
    intro key hkey
    cases hblob : s.objects.get? key with
    | none => rfl
    | some blob => exact shardResult_counts fun hblocks => h ⟨key, hkey, blob, hblob, hblocks⟩
  unfold countShards
  rw [foldlM_add_ok hcount, List.sum_map_add, zero_add]
  rfl

theorem exec_sumActiveInstances (h : env.Working) (s : S3State) (now : Int) :
    s.exec env (sumActiveInstances now) = (countShards now s (s.listObjects trafficInstancePrefix), s) := by
  have hlist := S3State.exec_listKeys_working h s trafficInstancePrefix
  unfold S3State.exec at hlist
  unfold S3State.exec sumActiveInstances countShards
  rw [Prog.exec_bind, hlist]
  apply Prog.exec_foldEach
  intro total key
  have hread := S3State.exec_readJson_working h s key
  unfold S3State.exec at hread
  rw [Prog.exec_bind, hread]
  unfold shardResult
  cases hload : loadBlob (s.objects.get? key) with
  | error exc => rfl
  | ok body =>
      simp only [Prog.exec_bind, Prog.exec_ofExcept]
      cases hcount : shardCount now body with
      | error exc => simp [bind, Except.bind, hcount]
      | ok count =>
          simp [bind, Except.bind, hcount]
          rfl

end Traffic

end Hailcast
