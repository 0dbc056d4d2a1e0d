import Hailcast.Traffic.System

/-!
# Pods and aggregator keep the ledger
-/

namespace Hailcast

open Concurrent

variable {ι : Type} {instanceId : ι → String}

/-! ## Keys -/

theorem isPrefixOf_podKey (i : ι) :
    trafficInstancePrefix.toList.isPrefixOf (podKey instanceId i).toList = true := by
  simp [podKey, Traffic.shardKey, String.toList_append, List.isPrefixOf_iff_prefix, List.append_assoc]

theorem podKey_injective (h : Function.Injective instanceId) : Function.Injective (podKey instanceId) := by
  intro i j hij
  have hl := congrArg String.toList hij
  simp only [podKey, Traffic.shardKey, String.toList_append, List.append_cancel_left_eq,
    List.append_cancel_right_eq] at hl
  exact h (String.toList_inj.mp hl)

theorem podKey_ne (i : ι) {key : String} (h : trafficInstancePrefix.toList.isPrefixOf key.toList = false) :
    podKey instanceId i ≠ key := by
  rintro rfl
  rw [isPrefixOf_podKey] at h
  cases h

theorem podKey_ne_history (i : ι) : podKey instanceId i ≠ trafficHistoryKey := podKey_ne i (by decide)

theorem podKey_ne_json (i : ι) : podKey instanceId i ≠ trafficJsonKey := podKey_ne i (by decide)

/-! ## Shards -/

theorem Shard.added_eq_uncounted {shard : Shard} {since : Int}
    (h : shard.count = 0 ∨ (shard.counted = true ↔ shard.stale since)) : shard.added since = shard.uncounted := by
  unfold added uncounted
  rcases h with h | h
  · simp [h]
  · by_cases hs : shard.stale since
    · rw [if_pos hs, if_pos (h.mpr hs)]
    · rw [if_neg hs, if_neg (fun hc => hs (h.mp hc))]

theorem Shard.shardCount_body (shard : Shard) (since : Int) :
    Traffic.shardCount since (some (.obj [("count", .num shard.count), ("updated_at", isoformat shard.time)])) =
      .ok (shard.added since) := by
  have hindex : Json.index (.obj [("count", .num shard.count), ("updated_at", isoformat shard.time)]) "updated_at" =
      .ok (isoformat shard.time) := rfl
  have hcount : Json.get (.obj [("count", .num shard.count), ("updated_at", isoformat shard.time)]) "count" (.num 0) =
      .ok (.num shard.count) := rfl
  have hint : Json.toInt (.num (shard.count : ℚ)) = .ok (shard.count : Int) := by
    simp [Json.toInt]
  simp only [Traffic.shardCount, Json.truthy, List.isEmpty_cons, Bool.not_false, ↓reduceIte, hindex]
  change (do
    let age ← (Except.ok (since - shard.time) : Except PyError Int)
    if staleAfterSeconds < totalSeconds age then return 0
    else (← Json.get _ "count" (.num 0)).toInt) = _
  rw [hcount]
  unfold added stale
  by_cases hs : staleAfterSeconds < totalSeconds (since - shard.time)
  · simp [hs, bind, Except.bind, pure, Except.pure]
  · simp [hs, bind, Except.bind, hint]

section System

variable [DecidableEq ι] {autoCreate : Bool} {w : TrafficThread ι} {s s' : TrafficState ι}

def TrafficState.Stable (w : TrafficThread ι) (Q : TrafficState ι → Prop) : Prop :=
  ∀ s s', Q s → s.Rely w s' → Q s'

omit [DecidableEq ι] in
theorem TrafficState.rely_ensured (w : TrafficThread ι) (s : TrafficState ι) (flags : TrafficThread ι → Bool) :
    s.Rely w { s with ensured := flags } := by
  cases w with
  | pod i => exact ⟨rfl, rfl⟩
  | aggregator => exact ⟨rfl, rfl, rfl, fun _ h => h, fun _ h => ⟨h, rfl⟩⟩

variable [Fintype ι]

omit [DecidableEq ι] in
theorem TrafficState.Inv.ensured (h : s.Inv instanceId) (flags : TrafficThread ι → Bool) :
    TrafficState.Inv instanceId { s with ensured := flags } :=
  ⟨h.shard, h.only, h.history, h.conserved, h.appended, h.followed⟩

/-! ## Single requests -/

theorem Traffic.safe_request {o : StoreRequest} {Q : o.Answer → TrafficState ι → Prop}
    {E : PyError → TrafficState ι → Prop}
    (h : ∀ s₁, s.Rely w s₁ → s₁.Inv instanceId → s₁.Regular instanceId w o →
      (s₁.answer instanceId w o).2.Inv instanceId ∧
      (∀ j, j ≠ w → s₁.Rely j (s₁.answer instanceId w o).2) ∧
      ∀ s₂, (s₁.answer instanceId w o).2.Rely w s₂ → s₂.Inv instanceId →
        match (s₁.answer instanceId w o).1 with
        | .ok a => Q a s₂
        | .error e => E e s₂) :
    Safe (trafficSystem instanceId autoCreate).toProtocol w Q E (storeRequest o) s := by
  refine Safe.perform fun s₁ hr hi c r s₂ ha he => ?_
  obtain ⟨hinv, hrely, hpost⟩ := h s₁ hr hi ha
  have he : s₁.answer instanceId w o = (r, s₂) := Option.some.inj he
  rw [he] at hinv hrely hpost
  refine ⟨hinv, hrely, fun s₃ hr₃ hi₃ => ?_⟩
  cases r <;> exact hpost s₃ hr₃ hi₃

def StoreRequest.IsBucket : StoreRequest → Prop
  | .headBucket | .createBucket | .isEnsured | .setEnsured => True
  | _ => False

omit [Fintype ι] in
theorem TrafficState.answer_bucket (instanceId : ι → String) {o : StoreRequest} (ho : o.IsBucket)
    (w : TrafficThread ι) (s : TrafficState ι) :
    ∃ a flags, s.answer instanceId w o = (.ok a, { s with ensured := flags }) := by
  cases o with
  | headBucket | createBucket | isEnsured | setEnsured => cases w <;> exact ⟨_, _, rfl⟩
  | _ => exact ho.elim

theorem Traffic.safe_bucket {o : StoreRequest} {Q : TrafficState ι → Prop} {E : PyError → TrafficState ι → Prop}
    (ho : o.IsBucket) (hQ : TrafficState.Stable w Q) (hs : Q s) :
    Safe (trafficSystem instanceId autoCreate).toProtocol w (fun _ => Q) E (storeRequest o) s := by
  refine Traffic.safe_request fun s₁ hr hi _ => ?_
  obtain ⟨a, flags, he⟩ := s₁.answer_bucket instanceId ho w
  rw [he]
  refine ⟨hi.ensured flags, fun j _ => s₁.rely_ensured j flags, fun s₂ hr₂ _ => ?_⟩
  exact hQ _ _ (hQ _ _ (hQ _ _ hs hr) (s₁.rely_ensured w flags)) hr₂

theorem Traffic.safe_ensureBucket {Q : TrafficState ι → Prop} {E : PyError → TrafficState ι → Prop}
    (create : Bool) (hQ : TrafficState.Stable w Q) (hs : Q s) :
    Safe (trafficSystem instanceId autoCreate).toProtocol w (fun _ => Q) E (S3Adapter.ensureBucket create) s := by
  unfold S3Adapter.ensureBucket
  cases create with
  | false => exact Safe.ret fun s' hr _ => hQ _ _ hs hr
  | true =>
      refine Safe.andThen (Traffic.safe_bucket (o := .isEnsured) trivial hQ hs) fun ensured s₁ _ hs₁ => ?_
      cases ensured with
      | true => exact Safe.ret fun s' hr _ => hQ _ _ hs₁ hr
      | false =>
          refine Safe.bind (Safe.tryCatch ((Traffic.safe_bucket (o := .headBucket) trivial hQ hs₁).mono
            (fun _ s₂ _ hs₂ => ?_) fun e s₂ _ (h : False) => h.elim))
          exact Traffic.safe_bucket (o := .setEnsured) trivial hQ hs₂

theorem Traffic.safe_wrap {α : Type} {operation key : String} {p : StoreM α} {Q : α → TrafficState ι → Prop}
    {E : PyError → TrafficState ι → Prop}
    (h : Safe (trafficSystem instanceId autoCreate).toProtocol w Q (fun _ _ => False) p s) :
    Safe (trafficSystem instanceId autoCreate).toProtocol w Q E (S3Adapter.wrap operation key p) s :=
  Safe.tryCatch (h.mono (fun _ _ _ h => h) fun _ _ _ h => h.elim)

theorem Traffic.safe_writeJson {key : String} {data : Json} {Q : TrafficState ι → Prop}
    {E : PyError → TrafficState ι → Prop}
    (h : ∀ s₁, s.Rely w s₁ → s₁.Inv instanceId → s₁.Regular instanceId w (.putObject key (.json data)) →
      let s₂ := (s₁.answer instanceId w (.putObject key (.json data))).2
      s₂.Inv instanceId ∧ (∀ j, j ≠ w → s₁.Rely j s₂) ∧ ∀ s₃, s₂.Rely w s₃ → s₃.Inv instanceId → Q s₃) :
    Safe (trafficSystem instanceId autoCreate).toProtocol w (fun _ => Q) E
      (FileStore.writeJson autoCreate key data) s := by
  refine Traffic.safe_wrap (Safe.andThen (Traffic.safe_ensureBucket autoCreate
    (Q := fun s₁ => s.Rely w s₁) (fun s₁ s₂ => TrafficState.rely_trans w s s₁ s₂) (s.rely_refl w))
      fun _ s₁ hi hs₁ => ?_)
  refine Traffic.safe_request fun s₂ hr hi₂ ha => ?_
  obtain ⟨hinv, hrely, hpost⟩ := h s₂ (TrafficState.rely_trans w s s₁ s₂ hs₁ hr) hi₂ ha
  exact ⟨hinv, hrely, hpost⟩

/-! ## The moves of a count -/

namespace TrafficState

omit [DecidableEq ι] in
theorem Inv.only_set {key : String} {body : Blob} (h : s.Inv instanceId)
    (hkey : trafficInstancePrefix.toList.isPrefixOf key.toList = false) :
    ∀ k ∈ (s.objects.set key body).keys, trafficInstancePrefix.toList.isPrefixOf k.toList = true →
      ∃ i, podKey instanceId i = k := by
  intro k hk hpre
  rw [Dict.keys_set] at hk
  split at hk
  · exact h.only k hk hpre
  · rcases List.mem_append.mp hk with hk | hk
    · exact h.only k hk hpre
    · obtain rfl := List.mem_singleton.mp hk
      rw [hkey] at hpre
      cases hpre

theorem Inv.take {i : ι} (h : s.Inv instanceId) (ht : s.ledger.taken i = 0) :
    (s.answer instanceId (.pod i) .takeCount).2.Inv instanceId := by
  refine ⟨h.shard, h.only, h.history, fun j => ?_, h.appended, h.followed⟩
  have hj := h.conserved j
  by_cases hji : j = i
  · subst hji
    simpa [answer, countsAfter, Ledger.observe, Ledger.uncounted, ht] using hj
  · simpa [answer, countsAfter, Ledger.observe, Ledger.uncounted, Function.update_of_ne hji] using hj

theorem Inv.stamp {i : ι} (h : s.Inv instanceId) : (s.answer instanceId (.pod i) .now).2.Inv instanceId :=
  ⟨h.shard, h.only, h.history, h.conserved, h.appended, h.followed⟩

theorem Inv.flush {i : ι} {body : Blob} (hinj : Function.Injective instanceId) (h : s.Inv instanceId)
    (hr : s.ledger.uncounted i = 0)
    (hbody : body = Shard.body ⟨s.ledger.taken i, s.ledger.stamped i, false⟩) :
    (s.answer instanceId (.pod i) (.putObject (podKey instanceId i) body)).2.Inv instanceId := by
  refine ⟨fun j => ?_, fun key hkey hpre => ?_, ?_, fun j => ?_, h.appended, fun j hj => ?_⟩
  · have hj := h.shard j
    simp only [answer, S3State.answer, Ledger.observe, Dict.get?_set]
    by_cases hji : j = i
    · subst hji
      simp [hbody]
    · rw [if_neg (fun he => hji (podKey_injective hinj he).symm), Function.update_of_ne hji, hj]
  · simp only [answer, S3State.answer, Dict.keys_set] at hkey
    split at hkey
    · exact h.only key hkey hpre
    · rcases List.mem_append.mp hkey with hkey | hkey
      · exact h.only key hkey hpre
      · exact ⟨i, (List.mem_singleton.mp hkey).symm⟩
  · simpa [answer, S3State.answer, Dict.get?_set, podKey_ne_history] using h.history
  · have hj := h.conserved j
    by_cases hji : j = i
    · subst hji
      simp only [answer, countsAfter, Ledger.observe, Ledger.uncounted, Function.update_self] at hj ⊢
      simp only [Ledger.uncounted] at hr
      simp only [Option.map_some, Option.getD_some, Shard.uncounted, Bool.false_eq_true, ↓reduceIte]
      omega
    · simpa [answer, countsAfter, Ledger.observe, Ledger.uncounted, Function.update_of_ne hji] using hj
  · have hji : j ≠ i := by
      rintro rfl
      simp [answer, Ledger.observe] at hj
    simpa [answer, Ledger.observe, Ledger.uncounted, Function.update_of_ne hji] using
      h.followed j (by simpa [answer, Ledger.observe, Function.update_of_ne hji] using hj)

omit [Fintype ι] in
theorem answer_getObject (key : String) (s : TrafficState ι) :
    (s.answer instanceId .aggregator (.getObject key)).2 =
      { s with
        ensured := Function.update s.ensured .aggregator (s.ensured .aggregator)
        ledger := s.ledger.observe instanceId s.clock s.counts .aggregator (.getObject key) } := by
  simp only [answer, S3State.answer, countsAfter]
  split <;> rfl

omit [DecidableEq ι] [Fintype ι] in
theorem added_eq_uncounted {l : Ledger ι} {i : ι}
    (h : ∀ shard ∈ l.shards i, shard.count = 0 ∨ (shard.counted = true ↔ shard.stale l.since)) :
    l.added i = l.uncounted i := by
  unfold Ledger.added Ledger.uncounted
  cases hs : l.shards i with
  | none => rfl
  | some shard => exact Shard.added_eq_uncounted (h shard hs)

omit [Fintype ι] in
theorem uncounted_read (l : Ledger ι) (clock : Int) (counts : ι → Nat) {key : String} {i : ι}
    (hk : podKey instanceId i = key) :
    (l.observe instanceId clock counts .aggregator (.getObject key)).uncounted i = 0 := by
  simp only [Ledger.observe, Ledger.uncounted, if_pos hk, Option.map_map]
  cases l.shards i with
  | none => rfl
  | some shard => simp [Shard.uncounted]

theorem Inv.read {key : String} (h : s.Inv instanceId) (hr : s.Regular instanceId .aggregator (.getObject key)) :
    (s.answer instanceId .aggregator (.getObject key)).2.Inv instanceId := by
  rw [answer_getObject]
  refine ⟨fun j => ?_, h.only, h.history, fun j => ?_, h.appended, fun j hj => ?_⟩
  · have hj := h.shard j
    simp only [Ledger.observe]
    split
    · rw [hj, Option.map_map]
      rfl
    · exact hj
  · have hj := h.conserved j
    by_cases hk : podKey instanceId j = key
    · have hadd := added_eq_uncounted (hr j hk)
      rw [uncounted_read _ _ _ hk]
      simp only [Ledger.observe, if_pos hk]
      omega
    · simpa [Ledger.observe, Ledger.uncounted, hk] using hj
  · obtain ⟨hu, hp⟩ := h.followed j hj
    by_cases hk : podKey instanceId j = key
    · have hadd := added_eq_uncounted (hr j hk)
      refine ⟨uncounted_read s.ledger s.clock s.counts hk, ?_⟩
      simp only [Ledger.observe, if_pos hk]
      omega
    · simpa [Ledger.observe, Ledger.uncounted, hk] using And.intro hu hp

theorem Inv.append {points : List Json} (point : Json) (h : s.Inv instanceId)
    (hsum : point.index "requests" = .ok (.num (∑ i, (s.ledger.pending i : ℚ))))
    (hlast : points.getLast? = some point)
    (hcovered : ∀ i, s.ledger.covered i = true → s.ledger.uncounted i = 0) :
    (s.answer instanceId .aggregator (.putObject trafficHistoryKey (.json (.arr points)))).2.Inv instanceId := by
  refine ⟨fun j => ?_, fun key hkey hpre => ?_, Or.inr ⟨points, ?_⟩, fun j => ?_, ?_, fun j hj => ?_⟩
  · simpa [answer, S3State.answer, Ledger.observe, Dict.get?_set, (podKey_ne_history j).symm] using h.shard j
  · exact h.only_set (by decide) key hkey hpre
  · simp [answer, S3State.answer, Dict.get?_set]
  · have hj := h.conserved j
    simp only [answer, countsAfter, Ledger.observe, Ledger.uncounted, ↓reduceIte] at hj ⊢
    omega
  · have hrequests : lastRequests (.json (.arr points)) = ∑ i, (s.ledger.pending i : ℚ) := by
      simp [lastRequests, hlast, hsum, bind, Except.bind, Json.toNumber]
    simp only [answer, Ledger.observe, ↓reduceIte, h.appended, hrequests, Nat.cast_add, Finset.sum_add_distrib]
  · simp only [answer, Ledger.observe, ↓reduceIte, Bool.or_eq_true] at hj
    rcases hj with hj | hj
    · exact ⟨(h.followed j hj).1, rfl⟩
    · exact ⟨hcovered j hj, rfl⟩

omit [Fintype ι] in
theorem observe_putJson (l : Ledger ι) (clock : Int) (counts : ι → Nat) (body : Blob) :
    l.observe instanceId clock counts .aggregator (.putObject trafficJsonKey body) = l := by
  simp only [Ledger.observe]
  exact if_neg (by decide)

omit [Fintype ι] in
theorem observe_getHistory (l : Ledger ι) (clock : Int) (counts : ι → Nat) :
    l.observe instanceId clock counts .aggregator (.getObject trafficHistoryKey) = l := by
  simp [Ledger.observe, podKey_ne_history]

theorem Inv.start (h : s.Inv instanceId) : (s.answer instanceId .aggregator .now).2.Inv instanceId :=
  ⟨h.shard, h.only, h.history, h.conserved, h.appended, h.followed⟩

theorem Inv.putJson {body : Blob} (h : s.Inv instanceId) :
    (s.answer instanceId .aggregator (.putObject trafficJsonKey body)).2.Inv instanceId := by
  simp only [answer, observe_putJson]
  refine ⟨fun j => ?_, fun key hkey hpre => ?_, ?_, h.conserved, h.appended, h.followed⟩
  · simpa [S3State.answer, Dict.get?_set, (podKey_ne_json j).symm] using h.shard j
  · exact h.only_set (by decide) key hkey hpre
  · have hne : trafficJsonKey ≠ trafficHistoryKey := by decide
    simpa [S3State.answer, Dict.get?_set, hne] using h.history

/-! ## What the others notice -/

omit [Fintype ι] in
theorem rely_take {i : ι} {j : TrafficThread ι} (hj : j ≠ .pod i) :
    s.Rely j (s.answer instanceId (.pod i) .takeCount).2 := by
  cases j with
  | pod j => exact ⟨Function.update_of_ne (fun h => hj (congrArg _ h)) _ _, rfl⟩
  | aggregator => exact ⟨rfl, rfl, rfl, fun _ h => h, fun _ h => ⟨h, rfl⟩⟩

omit [Fintype ι] in
theorem rely_stamp {i : ι} {j : TrafficThread ι} (hj : j ≠ .pod i) :
    s.Rely j (s.answer instanceId (.pod i) .now).2 := by
  cases j with
  | pod j => exact ⟨rfl, Function.update_of_ne (fun h => hj (congrArg _ h)) _ _⟩
  | aggregator => exact ⟨rfl, rfl, rfl, fun _ h => h, fun _ h => ⟨h, rfl⟩⟩

omit [Fintype ι] in
theorem rely_flush {i : ι} {body : Blob} {j : TrafficThread ι} (hj : j ≠ .pod i) :
    s.Rely j (s.answer instanceId (.pod i) (.putObject (podKey instanceId i) body)).2 := by
  cases j with
  | pod j => exact ⟨Function.update_of_ne (fun h => hj (congrArg _ h)) _ _, rfl⟩
  | aggregator =>
      refine ⟨rfl, rfl, ?_, fun j hs => ?_, fun j hc => ?_⟩
      · simp [answer, S3State.answer, Dict.get?_set, podKey_ne_history]
      · by_cases hji : j = i
        · subst hji; simp [answer, Ledger.observe]
        · simpa [answer, Ledger.observe, Function.update_of_ne hji] using hs
      · have hji : j ≠ i := by
          rintro rfl
          simp [answer, Ledger.observe] at hc
        simpa [answer, Ledger.observe, Function.update_of_ne hji] using hc

omit [Fintype ι] in
/-- The pods do not notice the aggregator. -/
theorem rely_aggregator {o : StoreRequest} {j : TrafficThread ι} (hj : j ≠ .aggregator) :
    s.Rely j (s.answer instanceId .aggregator o).2 := by
  cases j with
  | aggregator => exact absurd rfl hj
  | pod j =>
      cases o with
      | putObject key body =>
          simp only [Rely, answer, Ledger.observe]
          split <;> exact ⟨rfl, rfl⟩
      | _ => exact ⟨rfl, rfl⟩

end TrafficState

/-! ## A flush -/

/-- A flush that starts when no other one of its pod is under way writes the count that it takes. -/
theorem Traffic.safe_flush {i : ι} (hinj : Function.Injective instanceId) (hs : s.ledger.taken i = 0) :
    Safe (trafficSystem instanceId autoCreate).toProtocol (.pod i) (fun _ s => s.ledger.taken i = 0)
      (fun _ s => s.ledger.taken i = 0) (Traffic.flush autoCreate (instanceId i)) s := by
  refine Safe.bind (Traffic.safe_request fun s₁ hr hi _ =>
    ⟨hi.take (hr.1.trans hs), fun j hj => TrafficState.rely_take hj, fun s₂ hr₂ _ => ?_⟩)
  have htaken : s₂.ledger.taken i = s₁.counts i := hr₂.1.trans (Function.update_self ..)
  refine Safe.bind (Traffic.safe_request fun s₃ hr₃ hi₃ _ =>
    ⟨hi₃.stamp, fun j hj => TrafficState.rely_stamp hj, fun s₄ hr₄ _ => ?_⟩)
  have htaken : s₄.ledger.taken i = s₁.counts i := hr₄.1.trans (hr₃.1.trans htaken)
  have hstamped : s₄.ledger.stamped i = s₃.clock := hr₄.2.trans (Function.update_self ..)
  refine Traffic.safe_writeJson fun s₅ hr₅ hi₅ ha =>
    ⟨hi₅.flush hinj ha ?_, fun j hj => TrafficState.rely_flush hj, fun s₆ hr₆ _ => ?_⟩
  · rw [hr₅.1, hr₅.2, htaken, hstamped]
    rfl
  · exact hr₆.1.trans (Function.update_self ..)

/-! ## Reads of the aggregator -/

namespace Traffic

theorem safe_exists {key : String} {Q : Bool → TrafficState ι → Prop} {E : PyError → TrafficState ι → Prop}
    (h : ∀ s₁, s.Rely .aggregator s₁ → s₁.Inv instanceId →
      ∀ s₂, s₁.Rely .aggregator s₂ → s₂.Inv instanceId → Q (s₁.objects.get? key).isSome s₂) :
    Safe (trafficSystem instanceId autoCreate).toProtocol .aggregator Q E (S3Adapter.exists key) s := by
  refine Safe.tryCatch (Safe.bind (safe_request fun s₁ hr hi _ =>
    ⟨hi.ensured _, fun j hj => TrafficState.rely_aggregator hj, fun s₂ hr₂ hi₂ => ?_⟩))
  have hr₂ : s₁.Rely .aggregator s₂ := hr₂
  have hq := h s₁ hr hi
  cases hg : s₁.objects.get? key with
  | some blob =>
      rw [hg] at hq
      simp only [TrafficState.answer, S3State.answer, hg]
      exact Safe.ret fun s₃ hr₃ hi₃ => hq s₃ (TrafficState.rely_trans _ _ _ _ hr₂ hr₃) hi₃
  | none =>
      rw [hg] at hq
      simp only [TrafficState.answer, S3State.answer, hg]
      exact Safe.ret fun s₃ hr₃ hi₃ => hq s₃ (TrafficState.rely_trans _ _ _ _ hr₂ hr₃) hi₃

theorem safe_downloadText {key : String} {Q : Blob → TrafficState ι → Prop} {E : PyError → TrafficState ι → Prop}
    (h : ∀ s₁, s.Rely .aggregator s₁ → s₁.Inv instanceId → s₁.Regular instanceId .aggregator (.getObject key) →
      ∃ blob, s₁.objects.get? key = some blob ∧
        ∀ s₂, (s₁.answer instanceId .aggregator (.getObject key)).2.Rely .aggregator s₂ → s₂.Inv instanceId →
          Q blob s₂) :
    Safe (trafficSystem instanceId autoCreate).toProtocol .aggregator Q E (S3Adapter.downloadText key) s := by
  refine safe_wrap (safe_request fun s₁ hr hi ha =>
    ⟨hi.read ha, fun j hj => TrafficState.rely_aggregator hj, fun s₂ hr₂ hi₂ => ?_⟩)
  obtain ⟨blob, hg, hq⟩ := h s₁ hr hi ha
  simp only [TrafficState.answer, S3State.answer, hg] at hr₂ ⊢
  refine hq s₂ ?_ hi₂
  simpa only [TrafficState.answer, S3State.answer, hg] using hr₂

theorem safe_readJson {key : String} {Q : Option Json → TrafficState ι → Prop} {E : PyError → TrafficState ι → Prop}
    (hnone : ∀ s₁, s.Rely .aggregator s₁ → s₁.Inv instanceId → s₁.objects.get? key = none → Q none s₁)
    (hQ : ∀ body, TrafficState.Stable .aggregator (Q body))
    (hsome : ∀ s₁, s.Rely .aggregator s₁ → s₁.Inv instanceId → (s₁.objects.get? key).isSome →
      ∀ s₂, s₁.Rely .aggregator s₂ → s₂.Inv instanceId → s₂.Regular instanceId .aggregator (.getObject key) →
        ∃ value, s₂.objects.get? key = some (.json value) ∧
          Q (some value) (s₂.answer instanceId .aggregator (.getObject key)).2) :
    Safe (trafficSystem instanceId autoCreate).toProtocol .aggregator Q E (FileStore.readJson key) s := by
  refine Safe.bind (Safe.bind (safe_exists fun s₁ hr hi s₂ hr₂ _ => ?_))
  cases hg : s₁.objects.get? key with
  | none =>
      refine Safe.ret fun s₃ hr₃ _ => Safe.ret fun s₄ hr₄ _ => ?_
      exact hQ none _ _ (hQ none _ _ (hQ none _ _ (hnone s₁ hr hi hg) hr₂) hr₃) hr₄
  | some blob =>
      refine Safe.bind (safe_downloadText fun s₃ hr₃ hi₃ ha => ?_)
      obtain ⟨value, hvalue, hq⟩ := hsome s₁ hr hi (by simp [hg]) s₃ (TrafficState.rely_trans _ _ _ _ hr₂ hr₃) hi₃ ha
      refine ⟨.json value, hvalue, fun s₄ hr₄ _ => Safe.ret fun s₅ hr₅ _ => Safe.ret fun s₆ hr₆ _ => ?_⟩
      exact hQ _ _ _ (hQ _ _ _ (hQ _ _ _ hq hr₄) hr₅) hr₆

end Traffic

end System

end Hailcast
