import Hailcast.Traffic.Lemmas.Ledger

/-!
# An aggregation passes on what it reads
-/

namespace Hailcast

open Concurrent

variable {ι : Type} [DecidableEq ι] [Fintype ι] {instanceId : ι → String} {autoCreate : Bool} {s s' : TrafficState ι}

/-- In the middle of an aggregation: the sum so far, and the keys that are still to be read. -/
structure TrafficState.Gathering (instanceId : ι → String) (now total : Int) (keys : List String)
    (s : TrafficState ι) : Prop where
  since : s.ledger.since = now
  total : total = ∑ i, (s.ledger.pending i : Int)
  shard : ∀ key ∈ keys, ∃ i, podKey instanceId i = key ∧ (s.ledger.shards i).isSome
  rest : ∀ i, s.ledger.covered i = true → s.ledger.uncounted i = 0 ∨ podKey instanceId i ∈ keys

namespace TrafficState

variable {now total : Int} {keys : List String}

omit [DecidableEq ι] in
theorem Gathering.stable :
    TrafficState.Stable .aggregator (TrafficState.Gathering instanceId now total keys : TrafficState ι → Prop) := by
  rintro s s' h ⟨hsince, hpending, _, hshards, hcovered⟩
  refine ⟨hsince.trans h.since, by rw [hpending]; exact h.total, fun key hkey => ?_, fun i hi => ?_⟩
  · obtain ⟨i, hik, hs⟩ := h.shard key hkey
    exact ⟨i, hik, hshards i hs⟩
  · obtain ⟨hc, hsame⟩ := hcovered i hi
    simpa [Ledger.uncounted, hsame] using h.rest i hc

/-- Reading the next shard moves its count into the sum. -/
theorem Gathering.read {i : ι} (hinj : Function.Injective instanceId)
    (h : s.Gathering instanceId now total (podKey instanceId i :: keys)) :
    (s.answer instanceId .aggregator (.getObject (podKey instanceId i))).2.Gathering instanceId now
      (total + s.ledger.added i) keys := by
  rw [answer_getObject]
  refine ⟨h.since, ?_, fun key hkey => ?_, fun j hj => ?_⟩
  · have hpending : ∀ j, ((s.ledger.observe instanceId s.clock s.counts .aggregator
        (.getObject (podKey instanceId i))).pending j : Int) =
          s.ledger.pending j + if i = j then (s.ledger.added i : Int) else 0 := by
      intro j
      by_cases hij : i = j
      · subst hij; simp [Ledger.observe]
      · have hne : podKey instanceId j ≠ podKey instanceId i := fun he => hij (podKey_injective hinj he).symm
        simp [Ledger.observe, hne, hij]
    simp only [hpending, Finset.sum_add_distrib, Finset.sum_ite_eq, Finset.mem_univ, ↓reduceIte, ← h.total]
  · obtain ⟨j, hjk, hs⟩ := h.shard key (List.mem_cons_of_mem _ hkey)
    refine ⟨j, hjk, ?_⟩
    simp only [Ledger.observe]
    split
    · simpa using hs
    · exact hs
  · by_cases hij : podKey instanceId j = podKey instanceId i
    · exact Or.inl (uncounted_read s.ledger s.clock s.counts hij)
    · have hrest := h.rest j hj
      simp only [List.mem_cons, hij, false_or] at hrest
      simpa [Ledger.observe, Ledger.uncounted, hij] using hrest

end TrafficState

namespace Traffic

theorem safe_round (hinj : Function.Injective instanceId) {now total : Int} {key : String} {keys : List String}
    (hs : s.Gathering instanceId now total (key :: keys)) {E : PyError → TrafficState ι → Prop} :
    Safe (trafficSystem instanceId autoCreate).toProtocol .aggregator
      (fun total' => TrafficState.Gathering instanceId now total' keys) E
      (do
        let body ← FileStore.readJson key
        let count ← Prog.ofExcept (shardCount now body)
        return total + count) s := by
  obtain ⟨i, rfl, _⟩ := hs.shard key List.mem_cons_self
  have hfound : ∀ s₁, s.Rely .aggregator s₁ → s₁.Inv instanceId →
      ∃ shard, s₁.ledger.shards i = some shard ∧ s₁.objects.get? (podKey instanceId i) = some shard.body := by
    intro s₁ hr hi
    obtain ⟨j, hji, hsome⟩ := (TrafficState.Gathering.stable s s₁ hs hr).shard _ List.mem_cons_self
    obtain rfl := podKey_injective hinj hji
    obtain ⟨shard, hshard⟩ := Option.isSome_iff_exists.mp hsome
    exact ⟨shard, hshard, by rw [hi.shard, hshard]; rfl⟩
  refine Safe.andThen (safe_readJson (Q := fun body s₁ => ∃ count, shardCount now body = .ok count ∧
    s₁.Gathering instanceId now (total + count) keys) ?_ ?_ ?_) ?_
  · intro s₁ hr hi hnone
    obtain ⟨shard, _, hg⟩ := hfound s₁ hr hi
    rw [hg] at hnone
    cases hnone
  · rintro body s₁ s₂ ⟨count, hcount, hg⟩ hr
    exact ⟨count, hcount, TrafficState.Gathering.stable _ _ hg hr⟩
  · intro s₁ hr _ _ s₂ hr₂ hi₂ _
    have hr₂ := TrafficState.rely_trans _ _ _ _ hr hr₂
    obtain ⟨shard, hshard, hget⟩ := hfound s₂ hr₂ hi₂
    have hgather := TrafficState.Gathering.stable _ _ hs hr₂
    refine ⟨_, hget, shard.added now, shard.shardCount_body now, ?_⟩
    have hread := hgather.read hinj
    rwa [show s₂.ledger.added i = shard.added now by simp [Ledger.added, hshard, hgather.since]] at hread
  · rintro body s₁ _ ⟨count, hcount, hg⟩
    rw [hcount]
    exact Safe.ret fun s₂ hr _ => TrafficState.Gathering.stable _ _ hg hr

theorem mem_listObjects (s₀ : S3State) {pfx : String} (key : String)
    (h : (s₀.objects.keys.filter (fun k => pfx.toList.isPrefixOf k.toList)).length ≤ 1000) :
    key ∈ s₀.listObjects pfx ↔ key ∈ s₀.objects.keys ∧ pfx.toList.isPrefixOf key.toList = true := by
  unfold S3State.listObjects
  rw [List.take_of_length_le (by rwa [List.length_mergeSort]), List.mem_mergeSort, List.mem_filter]

theorem safe_listKeys {now : Int} (hsince : s.ledger.since = now) (hpending : ∀ i, s.ledger.pending i = 0)
    {E : PyError → TrafficState ι → Prop} :
    Safe (trafficSystem instanceId autoCreate).toProtocol .aggregator
      (fun keys => TrafficState.Gathering instanceId now 0 keys) E (S3Adapter.listKeys trafficInstancePrefix) s := by
  refine safe_wrap (safe_request fun s₁ hr hi ha =>
    ⟨hi.ensured _, fun j hj => TrafficState.rely_aggregator hj, fun s₂ hr₂ _ => ?_⟩)
  have hmem := fun key => mem_listObjects ⟨s₁.objects, s₁.ensured .aggregator⟩ key ha
  have hgather : s₁.Gathering instanceId now 0 (S3State.listObjects ⟨s₁.objects, s₁.ensured .aggregator⟩
      trafficInstancePrefix) := by
    refine ⟨hr.1.trans hsince, ?_, fun key hkey => ?_, fun i _ => ?_⟩
    · simp [hr.2.1, hpending]
    · obtain ⟨hkey, hpre⟩ := (hmem key).mp hkey
      obtain ⟨i, rfl⟩ := hi.only key hkey hpre
      exact ⟨i, rfl, by simpa [hi.shard] using (Dict.get?_isSome _ _).mpr hkey⟩
    · cases hs : s₁.ledger.shards i with
      | none => exact Or.inl (by simp [Ledger.uncounted, hs])
      | some shard =>
          refine Or.inr ((hmem _).mpr ⟨(Dict.get?_isSome _ _).mp ?_, isPrefixOf_podKey i⟩)
          simp [hi.shard, hs]
  exact TrafficState.Gathering.stable _ _ hgather hr₂

theorem safe_sumActiveInstances (hinj : Function.Injective instanceId) {now : Int} (hsince : s.ledger.since = now)
    (hpending : ∀ i, s.ledger.pending i = 0) {E : PyError → TrafficState ι → Prop} :
    Safe (trafficSystem instanceId autoCreate).toProtocol .aggregator
      (fun total => TrafficState.Gathering instanceId now total []) E (sumActiveInstances now) s := by
  refine Safe.andThen (safe_listKeys hsince hpending) fun keys s₁ _ hg => ?_
  exact Safe.foldEach (J := fun total keys => TrafficState.Gathering instanceId now total keys)
    (fun total keys s s' h hr => TrafficState.Gathering.stable s s' h hr)
    (fun total key keys s₂ _ hs₂ => safe_round hinj hs₂) hg

theorem getLast?_lastPoints {cap : Nat} (hcap : 0 < cap) (history : List Json) (point : Json) :
    (lastPoints cap (history ++ [point])).getLast? = some point := by
  unfold lastPoints
  rw [List.getLast?_drop, if_neg (by simp; omega), List.getLast?_append]
  rfl

theorem safe_appendHistory {now total : Int} (hs : s.Gathering instanceId now total [])
    {E : PyError → TrafficState ι → Prop} :
    Safe (trafficSystem instanceId autoCreate).toProtocol .aggregator
      (fun _ s => ∀ i, s.ledger.pending i = 0) E (appendHistory autoCreate now total) s := by
  refine Safe.andThen (safe_readJson (Q := fun body s₁ => s₁.Gathering instanceId now total [] ∧
    ∃ history, listOrEmpty .attributeError body = .ok history) ?_ ?_ ?_) ?_
  · exact fun s₁ hr _ _ => ⟨TrafficState.Gathering.stable _ _ hs hr, [], rfl⟩
  · exact fun body s₁ s₂ h hr => ⟨TrafficState.Gathering.stable _ _ h.1 hr, h.2⟩
  · intro s₁ hr hi hsome s₂ hr₂ hi₂ _
    have hhistory : s₂.objects.get? trafficHistoryKey = s₁.objects.get? trafficHistoryKey := hr₂.2.2.1
    rcases hi.history with hnone | ⟨points, hpoints⟩
    · rw [hnone] at hsome
      cases hsome
    · refine ⟨.arr points, hhistory.trans hpoints, ?_, points, by cases points <;> rfl⟩
      rw [TrafficState.answer_getObject, TrafficState.observe_getHistory]
      exact TrafficState.Gathering.stable _ _ (TrafficState.Gathering.stable _ _
        (TrafficState.Gathering.stable _ _ hs hr) hr₂) (s₂.rely_ensured _ _)
  · rintro body s₁ _ ⟨hg, history, hhistory⟩
    rw [hhistory, Prog.ofExcept_ok, Prog.ret_bind]
    refine Safe.bind (safe_writeJson fun s₂ hr hi _ => ?_)
    have hg := TrafficState.Gathering.stable _ _ hg hr
    refine ⟨hi.append (historyPoint now total) ?_ (getLast?_lastPoints (by decide) history _) ?_,
      fun j hj => TrafficState.rely_aggregator hj, fun s₃ hr₃ _ => Safe.ret fun s₄ hr₄ _ i => ?_⟩
    · have htotal : (total : ℚ) = ∑ i, (s₂.ledger.pending i : ℚ) := by
        rw [hg.total]
        push_cast
        rfl
      rw [← htotal]
      rfl
    · intro i hi
      simpa using hg.rest i hi
    · rw [hr₄.2.1, hr₃.2.1]
      rfl

/-- An aggregation that starts with nothing pending ends with nothing pending. -/
theorem safe_aggregate (hinj : Function.Injective instanceId) (hs : ∀ i, s.ledger.pending i = 0) :
    Safe (trafficSystem instanceId autoCreate).toProtocol .aggregator (fun _ s => ∀ i, s.ledger.pending i = 0)
      (fun _ s => ∀ i, s.ledger.pending i = 0) (aggregate autoCreate) s := by
  have hstable : TrafficState.Stable .aggregator (fun s : TrafficState ι => ∀ i, s.ledger.pending i = 0) :=
    fun s s' h hr i => by rw [hr.2.1]; exact h i
  refine Safe.bind (safe_request fun s₁ hr hi _ => ⟨hi.start, fun j hj => TrafficState.rely_aggregator hj,
    fun s₂ hr₂ _ => ?_⟩)
  have hpending : ∀ i, s₂.ledger.pending i = 0 := by
    intro i
    rw [hr₂.2.1]
    exact hstable _ _ hs hr i
  refine Safe.andThen (safe_sumActiveInstances hinj hr₂.1 hpending) fun total s₃ _ hg => ?_
  refine Safe.andThen (safe_appendHistory hg) fun history s₄ _ hp => ?_
  cases trailingHourSum _ history with
  | error exc => exact Safe.raise fun s₅ hr₅ _ => hstable _ _ hp hr₅
  | ok hourly =>
      rw [Prog.ofExcept_ok, Prog.ret_bind]
      refine Safe.bind (safe_writeJson fun s₅ hr₅ hi₅ _ => ⟨hi₅.putJson, fun j hj => TrafficState.rely_aggregator hj,
        fun s₆ hr₆ _ => Safe.ret fun s₇ hr₇ _ => hstable _ _ (hstable _ _ ?_ hr₆) hr₇⟩)
      have hp₅ := hstable _ _ hp hr₅
      simpa only [TrafficState.answer, TrafficState.observe_putJson] using hp₅

end Traffic

end Hailcast
