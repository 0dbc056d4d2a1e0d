import Hailcast.Common.Isoformat
import Hailcast.History.Lemmas
import Hailcast.Lib.LatestKeys

/-!
# The pod history as the latest of its snapshots
-/

namespace Hailcast

structure PodSnapshot where
  bucket : Int
  predicted : Option Int
  actual : Option Int
  modelVersion : Option String

def PodSnapshot.json (snapshot : PodSnapshot) : Json :=
  PodHistory.entry snapshot.bucket snapshot.predicted snapshot.actual snapshot.modelVersion

/-- The snapshot that a call takes; without an answer of Kubernetes it has no actual replicas. -/
def StoreEnv.podSnapshot (cfg : PredictSettings) (env : StoreEnv) : Except PyError PodSnapshot := do
  let predicted ← predictedForBucket cfg env.latest (floorToHour env.clock)
  let actual :=
    match env.fault .getActualReplicas with
    | some _ => none
    | none => some env.actualReplicas
  return ⟨floorToHour env.clock, predicted, actual, env.latest.map PredictionDocument.modelVersion⟩

/-- The bucket, with the snapshots that the calls which have returned have taken, the latest last. -/
structure PodHistoryRun where
  state : S3State
  snapshots : List PodSnapshot := []

def PodHistoryRun.step (cfg : PredictSettings) (autoCreate : Bool) (r : PodHistoryRun) (env : StoreEnv) :
    PodHistoryRun :=
  match r.state.exec env (PodHistory.snapshotCurrentHour cfg autoCreate) with
  | (.ok _, s') => ⟨s', r.snapshots ++ (env.podSnapshot cfg).toOption.toList⟩
  | (.error _, s') => ⟨s', r.snapshots⟩

namespace PodHistory

variable {env : StoreEnv} {s : S3State} {stored : List PodSnapshot}

/-! ## Replacing and sorting -/

@[simp] theorem index_json (snapshot : PodSnapshot) :
    snapshot.json.index "bucket_time" = .ok (isoformat snapshot.bucket) := rfl

@[simp] theorem ofBucket_json (bucket : Int) (snapshot : PodSnapshot) :
    ofBucket bucket snapshot.json = decide (snapshot.bucket = bucket) := by
  simp [ofBucket, isBucket, isoformat]

theorem bucketTimes_json (snapshots : List PodSnapshot) :
    bucketTimes (snapshots.map PodSnapshot.json) =
      .ok (snapshots.map (fun snapshot => (isoformat snapshot.bucket, snapshot.json))) := by
  induction snapshots with
  | nil => rfl
  | cons snapshot snapshots ih => simp [bucketTimes, ih]; rfl

theorem strings_json (snapshots : List PodSnapshot) :
    strings (snapshots.map (fun snapshot => (isoformat snapshot.bucket, snapshot.json))) =
      some (snapshots.map (fun snapshot => (.aware snapshot.bucket, snapshot.json))) := by
  induction snapshots with
  | nil => rfl
  | cons snapshot snapshots ih => simp [strings, isoformat] at ih ⊢; simp [ih]

/-- The texts of the buckets are sorted as the buckets are. -/
theorem sortByBucket_json (snapshots : List PodSnapshot) :
    sortByBucket (snapshots.map PodSnapshot.json) =
      .ok ((snapshots.mergeSort (fun x y => decide (x.bucket ≤ y.bucket))).map PodSnapshot.json) := by
  unfold sortByBucket
  rw [bucketTimes_json]
  simp only [bind, Except.bind, List.length_map]
  split
  · rename_i hshort
    have hsorted : snapshots.mergeSort (fun x y => decide (x.bucket ≤ y.bucket)) = snapshots := by
      rcases snapshots with _ | ⟨x, _ | ⟨y, rest⟩⟩
      · simp
      · simp
      · simp at hshort
    rw [hsorted]
    rfl
  · simp only [strings_json]
    have hmap := List.map_mergeSort (l := snapshots)
      (f := fun snapshot => ((Str.aware snapshot.bucket, snapshot.json) : Str × Json))
      (r := fun x y => decide (x.bucket ≤ y.bucket)) (s := fun x y => x.1.le y.1) (fun _ _ _ _ => rfl)
    rw [← hmap, List.map_map]
    rfl

/-- Without the entry of its bucket, with the new one, sorted: the snapshot in its place. -/
theorem replace_json (hsorted : LatestKeys.Sorted PodSnapshot.bucket stored) {snapshot : PodSnapshot}
    {rest full : List Json} (hrest : withoutBucket snapshot.bucket (stored.map PodSnapshot.json) = .ok rest)
    (hfull : sortByBucket (rest ++ [snapshot.json]) = .ok full) :
    full = (LatestKeys.insert PodSnapshot.bucket snapshot stored).map PodSnapshot.json := by
  have hkept : rest ++ [snapshot.json] =
      (stored.filter (fun x => decide (x.bucket ≠ snapshot.bucket)) ++ [snapshot]).map PodSnapshot.json := by
    rw [withoutBucket_eq_filter hrest, List.filter_map, List.map_append]
    congr 3
    funext x
    simp
  rw [hkept, sortByBucket_json] at hfull
  rw [← Except.ok.inj hfull]
  congr 1
  refine LatestKeys.eq_insert_of_perm hsorted (List.mergeSort_perm _ _) ?_
  have hpair : ((stored.filter (fun x => decide (x.bucket ≠ snapshot.bucket)) ++ [snapshot]).mergeSort
      (fun x y => decide (x.bucket ≤ y.bucket))).Pairwise (fun x y => decide (x.bucket ≤ y.bucket)) :=
    List.pairwise_mergeSort (fun a b c hab hbc => by simp at hab hbc ⊢; omega) (fun a b => by simp; omega) _
  exact hpair.imp (by simp)

/-! ## One call -/

theorem exec_getActual (env : StoreEnv) (s : S3State) :
    s.exec env (tryCatch (do return some (← storeRequest .getActualReplicas)) (fun _ => return none)) =
      (.ok (match env.fault .getActualReplicas with
        | some _ => none
        | none => some env.actualReplicas), s) := by
  simp only [S3State.exec, Prog.tryCatch_eq, Prog.exec_tryCatch, Prog.exec_bind, storeRequest, Prog.exec_perform,
    S3State.handler]
  cases env.fault .getActualReplicas <;> rfl

/-- A call that returns puts its snapshot into the stored ones, or into none of them if their HEAD is refused, and cuts
them; one that raises writes nothing. -/
theorem wp_snapshotLatest (env : StoreEnv) (cfg : PredictSettings) (autoCreate : Bool)
    (hstored : storedEntries (s.objects.get? podHistoryKey) = stored.map PodSnapshot.json)
    (hsorted : LatestKeys.Sorted PodSnapshot.bucket stored) :
    Prog.wp (S3State.handler env) (snapshotCurrentHour cfg autoCreate)
      (fun _ s' => ∃ snapshot kept, env.podSnapshot cfg = .ok snapshot ∧
        (kept = stored ∨ S3State.HeadRefused env podHistoryKey ∧ kept = []) ∧
        s'.objects.get? podHistoryKey = some (.json (.arr
          ((LatestKeys.lastN maxPoints (LatestKeys.insert PodSnapshot.bucket snapshot kept)).map PodSnapshot.json))))
      (fun _ s' => s'.objects = s.objects) s := by
  apply (wp_snapshotResult cfg autoCreate env s).mono _ (fun _ _ h => h)
  intro _ s' hresult
  cases hresult with
  | written predicted actual body history rest full s₁ s₂ s₃ hpredicted hactual hsame hread hlist hrest hfull
      hwritten =>
      obtain ⟨kept, hkept, hhistory, hsorted⟩ : ∃ kept : List PodSnapshot,
          (kept = stored ∨ S3State.HeadRefused env podHistoryKey ∧ kept = []) ∧ history = kept.map PodSnapshot.json ∧
            LatestKeys.Sorted PodSnapshot.bucket kept := by
        rcases S3State.readEntries hread hlist with hentries | ⟨hrefused, rfl⟩
        · exact ⟨stored, Or.inl rfl, by rw [hentries, hsame, hstored], hsorted⟩
        · exact ⟨[], Or.inr ⟨hrefused, rfl⟩, rfl, List.Pairwise.nil⟩
      let snapshot : PodSnapshot :=
        ⟨floorToHour env.clock, predicted, actual, env.latest.map PredictionDocument.modelVersion⟩
      have hsort : sortByBucket (rest ++ [snapshot.json]) = .ok full := hfull
      refine ⟨snapshot, kept, ?_, hkept, ?_⟩
      · rw [exec_getActual] at hactual
        obtain rfl := Except.ok.inj (Prod.mk.inj hactual).1
        rw [StoreEnv.podSnapshot, hpredicted]
        rfl
      · rw [hhistory] at hrest
        have hreplaced := replace_json hsorted hrest hsort
        rw [hwritten, Dict.get?_set, if_pos rfl, hreplaced, List.length_map, ← List.map_drop]
        rfl

end PodHistory

/-! ## Runs of calls -/

namespace PodHistoryRun

variable {r : PodHistoryRun} {cfg : PredictSettings} {autoCreate : Bool} {env : StoreEnv}

/-- A call leaves the stored list as it is, or adds its snapshot to the log and puts it into the list. -/
theorem step_cases (cfg : PredictSettings) (autoCreate : Bool) (env : StoreEnv) {stored : List PodSnapshot}
    (hstored : storedEntries (r.state.objects.get? podHistoryKey) = stored.map PodSnapshot.json)
    (hsorted : LatestKeys.Sorted PodSnapshot.bucket stored) :
    ((r.step cfg autoCreate env).state.objects = r.state.objects ∧
        (r.step cfg autoCreate env).snapshots = r.snapshots) ∨
      ∃ snapshot kept, (r.step cfg autoCreate env).snapshots = r.snapshots ++ [snapshot] ∧
        (kept = stored ∨ S3State.HeadRefused env podHistoryKey ∧ kept = []) ∧
        (r.step cfg autoCreate env).state.objects.get? podHistoryKey = some (.json (.arr ((LatestKeys.lastN
          PodHistory.maxPoints (LatestKeys.insert PodSnapshot.bucket snapshot kept)).map PodSnapshot.json))) := by
  have hwp := PodHistory.wp_snapshotLatest env cfg autoCreate hstored hsorted
  unfold Prog.wp at hwp
  unfold PodHistoryRun.step S3State.exec
  rcases he : Prog.exec (S3State.handler env) (PodHistory.snapshotCurrentHour cfg autoCreate) r.state with ⟨e | u, s'⟩
  · rw [he] at hwp
    exact Or.inl ⟨hwp, rfl⟩
  · rw [he] at hwp
    obtain ⟨snapshot, kept, htaken, hkept, hwritten⟩ := hwp
    refine Or.inr ⟨snapshot, kept, ?_, hkept, hwritten⟩
    rw [htaken]
    rfl

/-- The stored list is what cutting once at the end would leave. -/
def Kept (r : PodHistoryRun) : Prop :=
  storedEntries (r.state.objects.get? podHistoryKey) =
    (LatestKeys.lastN PodHistory.maxPoints (LatestKeys.all PodSnapshot.bucket r.snapshots)).map PodSnapshot.json

theorem Kept.step (h : r.Kept) (cfg : PredictSettings) (autoCreate : Bool)
    (hhead : ¬ S3State.HeadRefused env podHistoryKey) : (r.step cfg autoCreate env).Kept := by
  have hall : LatestKeys.Sorted PodSnapshot.bucket (LatestKeys.all PodSnapshot.bucket r.snapshots) :=
    LatestKeys.all_sorted r.snapshots
  unfold Kept
  rcases step_cases cfg autoCreate env h (LatestKeys.lastN_sorted hall _) with
    ⟨hobjects, hsnapshots⟩ | ⟨snapshot, kept, hsnapshots, hkept, hwritten⟩
  · rw [hobjects, hsnapshots]
    exact h
  · have hlast := hkept.resolve_right fun hr => hhead hr.1
    rw [hwritten, storedEntries_list, hsnapshots, LatestKeys.all_append, hlast, LatestKeys.lastN_insert hall]

/-- The stored list has snapshots of the run, at most one for each bucket. -/
def Logged (r : PodHistoryRun) : Prop :=
  ∃ stored : List PodSnapshot, r.state.StoredList podHistoryKey (stored.map PodSnapshot.json) ∧
    LatestKeys.Sorted PodSnapshot.bucket stored ∧ ∀ snapshot ∈ stored, snapshot ∈ r.snapshots

theorem Logged.step (h : r.Logged) (cfg : PredictSettings) (autoCreate : Bool) (env : StoreEnv) :
    (r.step cfg autoCreate env).Logged := by
  obtain ⟨stored, hstored, hsorted, hlogged⟩ := h
  rcases step_cases cfg autoCreate env hstored.entries hsorted with
    ⟨hobjects, hsnapshots⟩ | ⟨snapshot, kept, hsnapshots, hkept, hwritten⟩
  · refine ⟨stored, ?_, hsorted, ?_⟩
    · unfold S3State.StoredList
      rw [hobjects]
      exact hstored
    · rw [hsnapshots]
      exact hlogged
  · have hsub : LatestKeys.Sorted PodSnapshot.bucket kept ∧ ∀ x ∈ kept, x ∈ r.snapshots := by
      rcases hkept with rfl | ⟨_, rfl⟩
      · exact ⟨hsorted, hlogged⟩
      · exact ⟨List.Pairwise.nil, by simp⟩
    refine ⟨_, Or.inl hwritten, LatestKeys.lastN_sorted (LatestKeys.insert_sorted hsub.1 _) _, ?_⟩
    intro x hx
    rw [hsnapshots]
    rcases (LatestKeys.mem_insert hsub.1).mp (List.mem_of_mem_drop hx) with rfl | ⟨hx, _⟩
    · simp
    · simp [hsub.2 x hx]

end PodHistoryRun

theorem floorToHour_range {t : Int} (h : DatetimeRange t) : DatetimeRange (floorToHour t) := by
  have hday : floorToHour t / dayMicros = t / dayMicros := by
    simp only [floorToHour, hourMicros, dayMicros]
    omega
  unfold DatetimeRange
  rw [hday]
  exact h

theorem PodHistoryRun.run_range (cfg : PredictSettings) (autoCreate : Bool) {envs : List StoreEnv}
    (hclock : ∀ env ∈ envs, DatetimeRange env.clock) {r : PodHistoryRun}
    (hr : ∀ snapshot ∈ r.snapshots, DatetimeRange snapshot.bucket) :
    ∀ snapshot ∈ (EventRun.run (PodHistoryRun.step cfg autoCreate) r envs).snapshots,
      DatetimeRange snapshot.bucket := by
  refine EventRun.Along.invariant (P := fun _ env => DatetimeRange env.clock)
    (I := fun r : PodHistoryRun => ∀ snapshot ∈ r.snapshots, DatetimeRange snapshot.bucket) ?_ hr
    (EventRun.along_of_forall hclock)
  intro r env hr henv snapshot hs
  unfold PodHistoryRun.step at hs
  split at hs
  · rcases List.mem_append.mp hs with hs | hs
    · exact hr snapshot hs
    · cases htaken : env.podSnapshot cfg with
      | error exc => simp [htaken, Except.toOption] at hs
      | ok taken =>
          obtain rfl : snapshot = taken := by simpa [htaken, Except.toOption] using hs
          obtain ⟨predicted, _, he⟩ := bind_eq_ok htaken
          rw [← Except.ok.inj he]
          exact floorToHour_range henv
  · exact hr snapshot hs

end Hailcast
