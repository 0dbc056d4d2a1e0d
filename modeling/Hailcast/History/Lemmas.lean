import Hailcast.Forecast.Snapshot
import Hailcast.Lib.EventRun
import Hailcast.Store.Working
import Hailcast.Traffic.Aggregator

/-!
# The two histories of the dashboard

The traffic history and the pod history are lists in the bucket that their writers read, extend, cut and write
back.
-/

namespace Hailcast

variable {env : StoreEnv} {s s' : S3State} {key : String}

/-- The entries of a stored list. -/
def storedEntries : Option Blob → List Json
  | some blob =>
      match blob.loads with
      | .ok (.arr entries) => entries
      | _ => []
  | none => []

theorem storedEntries_list (entries : List Json) : storedEntries (some (.json (.arr entries))) = entries := rfl

theorem S3State.StoredList.entries {entries : List Json} (h : s.StoredList key entries) :
    storedEntries (s.objects.get? key) = entries := by
  rcases h with h | ⟨h, rfl⟩
  · rw [h, storedEntries_list]
  · rw [h]
    rfl

def PodHistory.ofBucket (bucket : Int) (h : Json) : Bool :=
  match h.index "bucket_time" with
  | .ok time => isBucket bucket time
  | .error _ => false

/-- Either the operation raised and the object is the one from before, or it holds the last `cap` elements of a
list with a new entry and every entry from before that is not excused. -/
def HistoryKept {α : Type} (cap : Nat) (excused : Json → Bool) (before : Option Blob)
    (result : Except PyError α) (after : Option Blob) : Prop :=
  ((∃ exc, result = .error exc) ∧ after = before) ∨
  ∃ full new, full.Perm ((storedEntries before).filter (fun h => !excused h) ++ [new]) ∧
    after = some (.json (.arr (Traffic.lastPoints cap full)))

/-- The HEAD of a stored history with an entry that is not excused is refused. -/
def S3State.Hidden (env : StoreEnv) (s : S3State) (key : String) (excused : Json → Bool) : Prop :=
  HeadRefused env key ∧ ∃ h ∈ storedEntries (s.objects.get? key), excused h = false

/-! ## Runs -/

inductive HistoryStep where
  | aggregate (env : StoreEnv)
  | snapshot (env : StoreEnv)
  | put (key : String) (body : Blob)
  | restart

namespace S3State

def step (cfg : PredictSettings) (autoCreate : Bool) (s : S3State) : HistoryStep → S3State
  | .aggregate env => (s.exec env (Traffic.aggregate autoCreate)).2
  | .snapshot env => (s.exec env (PodHistory.snapshotCurrentHour cfg autoCreate)).2
  | .put key body =>
      if key = trafficHistoryKey ∨ key = podHistoryKey then s
      else { s with objects := s.objects.set key body }
  | .restart => { s with ensured := false }

/-- The step keeps what the histories had. -/
def KeepsHistories (cfg : PredictSettings) (autoCreate : Bool) (s : S3State) (e : HistoryStep) : Prop :=
  let before := fun key => s.objects.get? key
  let after := fun key => (s.step cfg autoCreate e).objects.get? key
  match e with
  | .aggregate env =>
      HistoryKept Traffic.historyMaxPoints (fun _ => false) (before trafficHistoryKey)
        (s.exec env (Traffic.aggregate autoCreate)).1 (after trafficHistoryKey) ∧
      after podHistoryKey = before podHistoryKey
  | .snapshot env =>
      HistoryKept PodHistory.maxPoints (PodHistory.ofBucket (floorToHour env.clock)) (before podHistoryKey)
        (s.exec env (PodHistory.snapshotCurrentHour cfg autoCreate)).1 (after podHistoryKey) ∧
      after trafficHistoryKey = before trafficHistoryKey
  | _ => after trafficHistoryKey = before trafficHistoryKey ∧ after podHistoryKey = before podHistoryKey

/-- The operation of the step is told that its history is absent, and it is not. -/
def Hides (s : S3State) : HistoryStep → Prop
  | .aggregate env => s.Hidden env trafficHistoryKey (fun _ => false)
  | .snapshot env => s.Hidden env podHistoryKey (PodHistory.ofBucket (floorToHour env.clock))
  | _ => False

end S3State

/-! ## The list that is read -/

theorem listOrEmpty_json {exc : PyError} {blob : Blob} {value : Json} {history : List Json}
    (hb : blob.loads = .ok value) (h : listOrEmpty exc (some value) = .ok history) :
    storedEntries (some blob) = history := by
  simp only [listOrEmpty] at h
  simp only [storedEntries, hb]
  split at h
  · split at h
    · exact Except.ok.inj h
    · cases h
  · rename_i hfalsy
    obtain rfl := Except.ok.inj h
    cases value with
    | arr entries => simpa [Json.truthy] using hfalsy
    | _ => rfl

/-- The list that `read_json(key) or []` gives: the stored entries, or none when the HEAD is refused. -/
theorem S3State.readEntries {exc : PyError} {body : Option Json} {history : List Json}
    (hread : s.exec env (FileStore.readJson key) = (.ok body, s')) (hlist : listOrEmpty exc body = .ok history) :
    history = storedEntries (s.objects.get? key) ∨ HeadRefused env key ∧ history = [] := by
  obtain ⟨_, ⟨rfl, hnone⟩ | ⟨blob, value, hget, hloads, rfl⟩⟩ := exec_readJson hread
  · obtain rfl : [] = history := Except.ok.inj hlist
    rcases hnone with hrefused | hget
    · exact Or.inr ⟨hrefused, rfl⟩
    · exact Or.inl (by rw [hget]; rfl)
  · rw [hget, listOrEmpty_json hloads hlist]
    exact Or.inl rfl

/-- Of a history that is not hidden the entries that are not excused are read. -/
theorem S3State.readList {exc : PyError} {body : Option Json} {history : List Json} {excused : Json → Bool}
    (hread : s.exec env (FileStore.readJson key) = (.ok body, s')) (hlist : listOrEmpty exc body = .ok history)
    (hh : ¬ s.Hidden env key excused) :
    history.filter (fun h => !excused h) = (storedEntries (s.objects.get? key)).filter (fun h => !excused h) := by
  rcases S3State.readEntries hread hlist with rfl | ⟨hrefused, rfl⟩
  · rfl
  · refine (List.filter_eq_nil_iff.mpr ?_).symm
    intro h hmem hkeep
    exact hh ⟨hrefused, h, hmem, by simpa using hkeep⟩

/-! ## The two writers -/

/-- What the cut list of an operation has, once it is written. -/
def S3State.Extended (cap : Nat) (key : String) (excused : Json → Bool) (s s' : S3State) : Prop :=
  (∃ full new, full.Perm ((storedEntries (s.objects.get? key)).filter (fun h => !excused h) ++ [new]) ∧
    s'.objects.get? key = some (.json (.arr (Traffic.lastPoints cap full)))) ∧
  ∀ other, other ≠ key → (other = trafficHistoryKey ∨ other = podHistoryKey) →
    s'.objects.get? other = s.objects.get? other

theorem S3State.Extended.of_written {cap : Nat} {excused : Json → Bool} {full : List Json} {new : Json}
    (hperm : full.Perm ((storedEntries (s.objects.get? key)).filter (fun h => !excused h) ++ [new]))
    (hwritten : s'.objects = s.objects.set key (.json (.arr (Traffic.lastPoints cap full)))) :
    s.Extended cap key excused s' := by
  refine ⟨⟨full, new, hperm, ?_⟩, fun other hne _ => ?_⟩
  · rw [hwritten, Dict.get?_set, if_pos rfl]
  · rw [hwritten, Dict.get?_set, if_neg (Ne.symm hne)]

theorem S3State.wp_writeHistory (env : StoreEnv) (cap : Nat) {autoCreate : Bool} {excused : Json → Bool}
    {full : List Json} {new : Json}
    (hperm : full.Perm ((storedEntries (s.objects.get? key)).filter (fun h => !excused h) ++ [new])) :
    Prog.wp (S3State.handler env) (FileStore.writeJson autoCreate key (.arr (Traffic.lastPoints cap full)))
      (fun _ => S3State.Extended cap key excused s) (fun _ s' => s'.objects = s.objects) s := by
  apply (wp_writeJson env autoCreate key _ s).mono _ (fun _ _ h => h)
  exact fun _ _ hwritten => .of_written hperm hwritten

theorem S3State.Extended.congr {cap : Nat} {excused : Json → Bool} {s₀ : S3State} (h : s'.Extended cap key excused s)
    (hsame : s'.objects = s₀.objects) : s₀.Extended cap key excused s := by
  unfold Extended at h ⊢
  rwa [hsame] at h

theorem S3State.Extended.writeOther {autoCreate : Bool} {cap : Nat} {excused : Json → Bool} {s₀ : S3State}
    {other : String} {data : Json} (env : StoreEnv) (h : s₀.Extended cap key excused s) (hkey : other ≠ key)
    (hother : other ≠ trafficHistoryKey ∧ other ≠ podHistoryKey) :
    Prog.wp (S3State.handler env) (FileStore.writeJson autoCreate other data)
      (fun _ => s₀.Extended cap key excused) (fun _ => s₀.Extended cap key excused) s := by
  obtain ⟨⟨full, new, hperm, hget⟩, hframe⟩ := h
  apply (wp_writeJson env autoCreate other data s).mono
  · intro _ s' ho
    refine ⟨⟨full, new, hperm, ?_⟩, fun k hk hhist => ?_⟩
    · rw [ho, Dict.get?_set, if_neg hkey, hget]
    · rw [ho, Dict.get?_set, if_neg (by rintro rfl; exact hhist.elim hother.1 hother.2), hframe k hk hhist]
  · intro _ s' ho
    unfold Extended
    rw [ho]
    exact ⟨⟨full, new, hperm, hget⟩, hframe⟩

/-! ## Aggregation -/

theorem Traffic.quiet_sumActiveInstances (now : Int) : (sumActiveInstances now).All StoreRequest.Quiet := by
  refine (StoreRequest.quiet_listKeys _).bind fun keys => Prog.All.foldEach (fun total key => ?_) keys 0
  exact (StoreRequest.quiet_readJson key).bind fun body => (Prog.All.ofExcept _).bind fun count => trivial

theorem Traffic.wp_appendHistory {autoCreate : Bool} {now count : Int}
    (hh : ¬ s.Hidden env trafficHistoryKey (fun _ => false)) :
    Prog.wp (S3State.handler env) (appendHistory autoCreate now count)
      (fun _ => s.Extended historyMaxPoints trafficHistoryKey (fun _ => false))
      (fun _ s' => s'.objects = s.objects) s := by
  apply S3State.wp_bind_quiet (StoreRequest.quiet_readJson _) _ (fun _ _ h => h)
  intro body s₁ hread h₁
  refine Prog.wp_bind_ofExcept.mpr ⟨?_, fun _ _ => h₁⟩
  intro history hlist
  have hkept := S3State.readList hread hlist hh
  have hperm : (history ++ [historyPoint now count]).Perm
      ((storedEntries (s₁.objects.get? trafficHistoryKey)).filter (fun _ => !false) ++
        [historyPoint now count]) := by
    simp only [Bool.not_false, List.filter_true, h₁] at hkept ⊢
    rw [hkept]
  apply (Prog.wp_bind _ _).mpr
  apply (S3State.wp_writeHistory env historyMaxPoints hperm).mono
  · exact fun _ _ h => h.congr h₁
  · exact fun _ _ h => h.trans h₁

/-- `aggregate` adds a point to the history, or raises before it is written. -/
theorem Traffic.wp_aggregate {autoCreate : Bool} (hh : ¬ s.Hidden env trafficHistoryKey (fun _ => false)) :
    Prog.wp (S3State.handler env) (aggregate autoCreate)
      (fun _ => s.Extended historyMaxPoints trafficHistoryKey (fun _ => false))
      (fun _ s' => s'.objects = s.objects ∨ s.Extended historyMaxPoints trafficHistoryKey (fun _ => false) s') s := by
  apply S3State.wp_bind_quiet (StoreRequest.quiet_request (by simp [StoreRequest.Quiet])) _ (fun _ _ => Or.inl)
  intro now s₁ _ h₁
  apply S3State.wp_bind_quiet (quiet_sumActiveInstances now) _ (fun _ _ h => Or.inl (h.trans h₁))
  intro total s₂ _ h₂
  have h₂ := h₂.trans h₁
  have hhidden : ¬ s₂.Hidden env trafficHistoryKey (fun _ => false) := by
    unfold S3State.Hidden
    rwa [h₂]
  apply (Prog.wp_bind _ _).mpr
  apply (wp_appendHistory hhidden).mono _ (fun _ _ h => Or.inl (h.trans h₂))
  intro history s₃ h₃
  have h₃ := h₃.congr h₂
  refine Prog.wp_bind_ofExcept.mpr ⟨?_, fun _ _ => Or.inr h₃⟩
  intro hourly _
  apply (Prog.wp_bind _ _).mpr
  apply (h₃.writeOther env (by decide) (by decide)).mono
  · exact fun _ _ h => h
  · exact fun _ _ h => Or.inr h

/-! ## The snapshot of an hour -/

namespace PodHistory

theorem withoutBucket_eq_filter {bucket : Int} {history rest : List Json}
    (h : withoutBucket bucket history = .ok rest) : rest = history.filter (fun h => !ofBucket bucket h) := by
  induction history generalizing rest with
  | nil => exact (Except.ok.inj h).symm
  | cons h history ih =>
      obtain ⟨time, htime, h⟩ := bind_eq_ok h
      obtain ⟨rest', hrest, h⟩ := bind_eq_ok h
      obtain rfl := Except.ok.inj h
      rw [List.filter_cons, ih hrest]
      simp only [ofBucket, htime]
      cases isBucket bucket time <;> simp

theorem bucketTimes_entries {history : List Json} {pairs : List (Json × Json)} (h : bucketTimes history = .ok pairs) :
    pairs.map Prod.snd = history := by
  induction history generalizing pairs with
  | nil => obtain rfl := Except.ok.inj h; rfl
  | cons h history ih =>
      obtain ⟨time, _, h⟩ := bind_eq_ok h
      obtain ⟨rest, hrest, h⟩ := bind_eq_ok h
      obtain rfl := Except.ok.inj h
      simp [ih hrest]

theorem strings_entries {pairs : List (Json × Json)} {keyed : List (Str × Json)} (h : strings pairs = some keyed) :
    keyed.map Prod.snd = pairs.map Prod.snd := by
  induction pairs using strings.induct generalizing keyed with
  | case1 => obtain rfl := Option.some.inj h; rfl
  | case2 x h rest ih =>
      obtain ⟨keyed', hk, rfl⟩ := Option.map_eq_some_iff.mp h
      simp [ih hk]
  | case3 pairs hnil hstr => rw [strings.eq_3 pairs hnil hstr] at h; cases h

theorem numbers_entries {pairs : List (Json × Json)} {keyed : List (ℚ × Json)} (h : numbers pairs = some keyed) :
    keyed.map Prod.snd = pairs.map Prod.snd := by
  induction pairs using numbers.induct generalizing keyed with
  | case1 => obtain rfl := Option.some.inj h; rfl
  | case2 q h rest ih | case3 b h rest ih =>
      obtain ⟨keyed', hk, rfl⟩ := Option.map_eq_some_iff.mp h
      simp [ih hk]
  | case4 pairs hnil hnum hbool => rw [numbers.eq_4 pairs hnil hnum hbool] at h; cases h

theorem sortByBucket_perm {history sorted : List Json} (h : sortByBucket history = .ok sorted) :
    sorted.Perm history := by
  obtain ⟨pairs, hpairs, h⟩ := bind_eq_ok h
  have hentries := bucketTimes_entries hpairs
  split at h
  · obtain rfl := Except.ok.inj h
    exact List.Perm.refl _
  · split at h
    · rename_i keyed hs
      obtain rfl := Except.ok.inj h
      rw [← hentries, ← strings_entries hs]
      exact (List.mergeSort_perm _ _).map _
    · split at h
      · rename_i keyed hn
        obtain rfl := Except.ok.inj h
        rw [← hentries, ← numbers_entries hn]
        exact (List.mergeSort_perm _ _).map _
      · cases h

theorem quiet_getActual :
    (tryCatch (do return some (← storeRequest .getActualReplicas)) (fun _ => return none) :
      StoreM (Option Int)).All StoreRequest.Quiet :=
  ((StoreRequest.quiet_request (by simp [StoreRequest.Quiet])).bind fun _ => by trivial).tryCatch fun _ => by trivial

theorem exec_request_ok {o : StoreRequest} {a : o.Answer} (h : s.exec env (storeRequest o) = (.ok a, s')) :
    env.fault o = none ∧ s.answer env o = (.ok a, s') := by
  rw [S3State.exec_request] at h
  unfold S3State.handler at h
  split at h
  · cases (Prod.mk.inj h).1
  · rename_i hf
    exact ⟨hf, h⟩

/-- What a call that returns has found, from its requests to the list that it cuts and writes. -/
inductive SnapshotResult (cfg : PredictSettings) (env : StoreEnv) (s s' : S3State) : Prop where
  | written (predicted actual : Option Int) (body : Option Json) (history rest full : List Json) (s₁ s₂ s₃ : S3State)
      (hpredicted : predictedForBucket cfg env.latest (floorToHour env.clock) = .ok predicted)
      (hactual : s₁.exec env (tryCatch (do return some (← storeRequest .getActualReplicas)) (fun _ => return none)) =
        (.ok actual, s₂))
      (hsame : s₂.objects = s.objects)
      (hread : s₂.exec env (FileStore.readJson podHistoryKey) = (.ok body, s₃))
      (hlist : listOrEmpty .typeError body = .ok history)
      (hrest : withoutBucket (floorToHour env.clock) history = .ok rest)
      (hfull : sortByBucket (rest ++ [entry (floorToHour env.clock) predicted actual
        (env.latest.map PredictionDocument.modelVersion)]) = .ok full)
      (hwritten : s'.objects = s.objects.set podHistoryKey (.json (.arr (full.drop (full.length - maxPoints)))))

theorem wp_snapshotResult (cfg : PredictSettings) (autoCreate : Bool) (env : StoreEnv) (s : S3State) :
    Prog.wp (S3State.handler env) (snapshotCurrentHour cfg autoCreate) (fun _ => SnapshotResult cfg env s)
      (fun _ s' => s'.objects = s.objects) s := by
  apply S3State.wp_bind_quiet (StoreRequest.quiet_request (by simp [StoreRequest.Quiet])) _ (fun _ _ h => h)
  intro time s₁ htime h₁
  obtain rfl : env.clock = time := Except.ok.inj (Prod.mk.inj (exec_request_ok htime).2).1
  apply S3State.wp_bind_quiet (StoreRequest.quiet_request (by simp [StoreRequest.Quiet])) _ (fun _ _ h => h.trans h₁)
  intro document s₂ hdocument h₂
  obtain rfl : env.latest = document := Except.ok.inj (Prod.mk.inj (exec_request_ok hdocument).2).1
  have h₂ := h₂.trans h₁
  refine Prog.wp_bind_ofExcept.mpr ⟨?_, fun _ _ => h₂⟩
  intro predicted hpredicted
  apply S3State.wp_bind_quiet quiet_getActual _ (fun _ _ h => h.trans h₂)
  intro actual s₃ hactual h₃
  have h₃ := h₃.trans h₂
  apply S3State.wp_bind_quiet (StoreRequest.quiet_readJson _) _ (fun _ _ h => h.trans h₃)
  intro body s₄ hread h₄
  have h₄ := h₄.trans h₃
  refine Prog.wp_bind_ofExcept.mpr ⟨?_, fun _ _ => h₄⟩
  intro history hlist
  refine Prog.wp_bind_ofExcept.mpr ⟨?_, fun _ _ => h₄⟩
  intro rest hrest
  refine Prog.wp_bind_ofExcept.mpr ⟨?_, fun _ _ => h₄⟩
  intro full hfull
  apply (S3State.wp_writeJson env autoCreate podHistoryKey _ s₄).mono
  · intro _ s' hwritten
    rw [h₄] at hwritten
    exact .written predicted actual body history rest full s₂ s₃ s₄ hpredicted hactual h₃ hread hlist hrest hfull
      hwritten
  · exact fun _ _ h => h.trans h₄

/-- A snapshot adds the entry of its hour to the history, or raises and writes nothing. -/
theorem wp_snapshotCurrentHour {cfg : PredictSettings} {autoCreate : Bool}
    (hh : ¬ s.Hidden env podHistoryKey (ofBucket (floorToHour env.clock))) :
    Prog.wp (S3State.handler env) (snapshotCurrentHour cfg autoCreate)
      (fun _ => s.Extended maxPoints podHistoryKey (ofBucket (floorToHour env.clock)))
      (fun _ s' => s'.objects = s.objects) s := by
  apply (wp_snapshotResult cfg autoCreate env s).mono _ (fun _ _ h => h)
  intro _ s' hresult
  cases hresult with
  | written predicted actual body history rest full s₁ s₂ s₃ _ _ hsame hread hlist hrest hfull hwritten =>
      have hhidden : ¬ s₂.Hidden env podHistoryKey (ofBucket (floorToHour env.clock)) := by
        unfold S3State.Hidden
        rwa [hsame]
      have hkept := S3State.readList hread hlist hhidden
      have hperm := sortByBucket_perm hfull
      rw [withoutBucket_eq_filter hrest, hkept, hsame] at hperm
      exact .of_written hperm hwritten

end PodHistory

end Hailcast
