import Mathlib.Data.List.Dedup
import Hailcast.Store.LocalStore
import Hailcast.Store.Working

/-!
# Listing the keys of a store

`list_keys` on the disk walks a directory, and on S3 is one page of a listing. When either is all the keys with the
prefix.
-/

namespace Hailcast

variable {env : StoreEnv} {s : S3State} {writes : List (StorePath × Blob)} {pfx : StorePath}

/-- The keys written so far. -/
def Stored (writes : List (StorePath × Blob)) (key : String) : Prop := ∃ write ∈ writes, write.1.text = key

/-! ## On S3 -/

namespace S3State

theorem listObjects_exact (pfx : String) :
    (∀ key, key ∈ s.listObjects pfx ↔ key ∈ s.keysWith pfx) ↔ (s.keysWith pfx).length ≤ 1000 := by
  rw [listObjects_eq_take]
  constructor
  · intro hexact
    by_contra hlong
    have hlt : 1000 < (s.keysWith pfx).length := by omega
    have hnodup : (s.keysWith pfx).Nodup := (List.mergeSort_perm _ _).nodup_iff.mpr (s.objects.nodup.filter _)
    have hlast : (s.keysWith pfx)[1000] ∈ (s.keysWith pfx).take 1000 := (hexact _).mpr (List.getElem_mem hlt)
    obtain ⟨i, hi, heq⟩ := List.getElem_of_mem hlast
    rw [List.getElem_take] at heq
    have hindex := (hnodup.getElem_inj_iff).mp heq
    rw [List.length_take] at hi
    omega
  · intro hshort key
    rw [List.take_of_length_le hshort]

theorem exec_writeTexts_working (h : env.Working) (autoCreate : Bool) (writes : List (StorePath × Blob)) (s : S3State) :
    ∃ s', s.exec env (Prog.forEach (fun write => FileStore.writeText autoCreate write.1.text write.2) writes) =
        (.ok (), s') ∧ ∀ key, key ∈ s'.objects.keys ↔ key ∈ s.objects.keys ∨ Stored writes key := by
  induction writes generalizing s with
  | nil => exact ⟨s, rfl, fun key => by simp [Stored]⟩
  | cons write writes ih =>
      obtain ⟨b, hupload⟩ := exec_uploadText_working h autoCreate write.1.text write.2 s
      obtain ⟨s', hrest, hkeys⟩ := ih ⟨s.objects.set write.1.text write.2, b⟩
      refine ⟨s', ?_, fun key => ?_⟩
      · unfold exec at hupload hrest ⊢
        unfold Prog.forEach FileStore.writeText
        rw [Prog.exec_bind, hupload]
        exact hrest
      · rw [hkeys, Dict.mem_keys_set, or_assoc]
        simp [Stored]

end S3State

/-- The keys with the prefix, once each. -/
def withPrefix (keys : List StorePath) (pfx : StorePath) : List String :=
  (keys.map StorePath.text).dedup.filter (fun key => StartsWith key pfx.text)

theorem length_keysWith (hkeys : ∀ key, key ∈ s.objects.keys ↔ Stored writes key) :
    (s.keysWith pfx.text).length = (withPrefix (writes.map Prod.fst) pfx).length := by
  unfold S3State.keysWith withPrefix
  rw [List.length_mergeSort]
  apply List.Perm.length_eq
  apply (List.perm_ext_iff_of_nodup (s.objects.nodup.filter _) ((List.nodup_dedup _).filter _)).mpr
  intro key
  have hkey := hkeys key
  unfold Dict.keys at hkey
  rw [List.mem_filter, List.mem_filter, List.mem_dedup, List.map_map, hkey, decide_eq_true_iff,
    List.isPrefixOf_iff_prefix]
  simp [Stored, StartsWith]

/-! ## Both backends -/

/-- The keys written are the ones that `list_keys` is to return. -/
def Lists (writes : List (StorePath × Blob)) (pfx : StorePath) (listed : List String) : Prop :=
  ∀ key, key ∈ listed ↔ Stored writes key ∧ StartsWith key pfx.text

theorem lists_local {store : LocalStore} (h : LocalStore.writeAll {} writes = .ok store) :
    Lists writes pfx (store.listKeys pfx) ↔ LocalStore.Fits (writes.map Prod.fst) pfx := by
  have hfiles : ∀ path, path ∈ store.files.keys ↔ ∃ key ∈ writes.map Prod.fst, key.parts = path := by
    intro path
    rw [LocalStore.mem_keys_writeAll h]
    simp
  have hstored : ∀ key, Stored writes key ↔ ∃ path ∈ writes.map Prod.fst, path.text = key := by
    intro key
    simp [Stored]
  unfold Lists
  simp only [hstored]
  exact LocalStore.listKeys_exact hfiles

theorem lists_s3 (hkeys : ∀ key, key ∈ s.objects.keys ↔ Stored writes key) :
    Lists writes pfx (s.listObjects pfx.text) ↔ (withPrefix (writes.map Prod.fst) pfx).length ≤ 1000 := by
  have hwanted : ∀ key, key ∈ s.keysWith pfx.text ↔ Stored writes key ∧ StartsWith key pfx.text := by
    intro key
    rw [S3State.mem_keysWith, hkeys, List.isPrefixOf_iff_prefix]
    rfl
  unfold Lists
  rw [← length_keysWith hkeys, ← S3State.listObjects_exact]
  simp only [hwanted]

/-- Both backends list exactly the keys with the prefix if and only if the keys fit the walk over the directories and
a page of the listing has room for them. -/
theorem list_keys_exact_iff {store : LocalStore} (autoCreate : Bool) (hworking : env.Working)
    (hlocal : LocalStore.writeAll {} writes = .ok store)
    (hs3 : S3State.exec env
      (Prog.forEach (fun write => FileStore.writeText autoCreate write.1.text write.2) writes) {} = (.ok (), s)) :
    (Lists writes pfx (store.listKeys pfx) ∧
        ∃ keys, s.exec env (FileStore.listKeys pfx.text) = (.ok keys, s) ∧ Lists writes pfx keys) ↔
      LocalStore.Fits (writes.map Prod.fst) pfx ∧ (withPrefix (writes.map Prod.fst) pfx).length ≤ 1000 := by
  obtain ⟨s', hwritten, hkeys⟩ := S3State.exec_writeTexts_working hworking autoCreate writes {}
  rw [hs3] at hwritten
  cases hwritten
  have hkeys' : ∀ key, key ∈ s.objects.keys ↔ Stored writes key := by
    intro key
    rw [hkeys]
    simp
  rw [lists_local hlocal, ← lists_s3 hkeys']
  refine and_congr_right fun _ => ?_
  have hlist := S3State.exec_listKeys_working hworking s pfx.text
  constructor
  · rintro ⟨keys, hlisted, hexact⟩
    cases hlist.symm.trans hlisted
    exact hexact
  · intro hexact
    exact ⟨_, hlist, hexact⟩

/-- The file of one pod. -/
def podFile : StorePath where
  text := "traffic/instances/pod-a.json"
  relative := by decide
  below := by decide
  posix := by decide

def otherPodFile : StorePath where
  text := "traffic/instances/pod-b.json"
  relative := by decide
  below := by decide
  posix := by decide

/-- `TRAFFIC_JSON_KEY` -/
def trafficJson : StorePath where
  text := "dashboard/traffic.json"
  relative := by decide
  below := by decide
  posix := by decide

def instancesDirectory : StorePath where
  text := "traffic/instances/"
  relative := by decide
  below := by decide
  posix := by decide

/-- A prefix that ends within the name of a directory. -/
def instancesCut : StorePath where
  text := "traffic/inst"
  relative := by decide
  below := by decide
  posix := by decide

/-- The files of two pods, one of them written again, and a file outside their directory. -/
def trafficWrites : List (StorePath × Blob) :=
  [(podFile, .text "1"), (trafficJson, .text "0"), (otherPodFile, .text "2"), (podFile, .text "3")]

theorem list_keys_exact_iff_directory :
    ∃ store s, LocalStore.writeAll {} trafficWrites = .ok store ∧
      store.listKeys instancesDirectory = [podFile.text, otherPodFile.text] ∧
      ((Lists trafficWrites instancesDirectory (store.listKeys instancesDirectory) ∧
          ∃ keys, S3State.exec { clock := 0 } (FileStore.listKeys instancesDirectory.text) s = (.ok keys, s) ∧
            Lists trafficWrites instancesDirectory keys) ↔
        LocalStore.Fits (trafficWrites.map Prod.fst) instancesDirectory ∧
          (withPrefix (trafficWrites.map Prod.fst) instancesDirectory).length ≤ 1000) :=
  ⟨_, _, rfl, rfl, list_keys_exact_iff false (fun _ => rfl) rfl rfl⟩

/-- The keys below a directory are left out where the prefix ends within its name. -/
theorem list_keys_cuts_component :
    ∃ store, LocalStore.writeAll {} [(podFile, .text "1")] = .ok store ∧
      Stored [(podFile, .text "1")] podFile.text ∧ StartsWith podFile.text instancesCut.text ∧
        store.listKeys instancesCut = [] ∧
        ¬ Lists [(podFile, .text "1")] instancesCut (store.listKeys instancesCut) := by
  have hstored : Stored [(podFile, .text "1")] podFile.text := ⟨_, List.mem_cons_self, rfl⟩
  have hstarts : StartsWith podFile.text instancesCut.text := by decide
  refine ⟨_, rfl, hstored, hstarts, rfl, ?_⟩
  intro hlists
  exact absurd ((hlists podFile.text).mpr ⟨hstored, hstarts⟩) List.not_mem_nil

end Hailcast
