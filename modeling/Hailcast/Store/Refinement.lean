import Mathlib.Data.List.Perm.Subperm
import Hailcast.Lib.JsonReader
import Hailcast.Store.Backends
import Hailcast.Store.Theorems

/-!
# Both backends are one map

For keys that the layout allows, an S3 bucket and a directory answer as the map from keys to texts does.
-/

namespace Hailcast

open JsonText (FloatFormat Units Value dumps universalNewlines)

variable {φ : Type} {F : FloatFormat φ} {layout : Layout} {env : StoreEnv} {autoCreate : Bool} {m : StoredTexts}
  {key key' pfx : StorePath}

/-! ## Spelled keys -/

namespace StorePath

theorem Spelled.text_eq (hkey : key.Spelled) (hkey' : key'.Spelled) (h : key.parts = key'.parts) :
    key.text = key'.text := by
  rw [← hkey.2, ← hkey'.2, h]

theorem toList_keyOf (path : StorePath) :
    (keyOf path.parts).toList = ['/'].intercalate (path.parts.map String.toList) := by
  rw [keyOf_parts, String.toList_ofList]

theorem splitOn_intercalate {parts : List String} (hparts : ∀ part ∈ parts, '/' ∉ part.toList) (hne : parts ≠ []) :
    (['/'].intercalate (parts.map String.toList)).splitOn '/' = parts.map String.toList := by
  apply List.splitOn_intercalate
  · intro chars hchars
    obtain ⟨part, hpart, rfl⟩ := List.mem_map.mp hchars
    exact hparts part hpart
  · simpa using hne

theorem parts_noSlash (path : StorePath) : ∀ part ∈ path.parts, '/' ∉ part.toList :=
  fun _ hpart => (mem_pathParts hpart).2.2.1

theorem map_toList_injective {parts parts' : List String} (h : parts.map String.toList = parts'.map String.toList) :
    parts = parts' :=
  List.map_injective_iff.mpr (fun _ _ => String.toList_inj.mp) h

/-- The keys with a directory as their prefix are those below it. -/
theorem startsWith_directory_iff (hkey : key.Spelled) (hpfx : pfx.Directory) :
    StartsWith key.text pfx.text ↔ LocalStore.Below pfx.parts key.parts := by
  have hkeyText : key.text.toList = ['/'].intercalate (key.parts.map String.toList) := by
    rw [← hkey.2, toList_keyOf]
  have hpfxText : pfx.text.toList = ['/'].intercalate (pfx.parts.map String.toList) ++ ['/'] := by
    rw [hpfx.2, String.toList_append, toList_keyOf]
    rfl
  unfold StartsWith
  rw [hkeyText, hpfxText]
  constructor
  · rintro ⟨rest, hrest⟩
    rw [List.append_assoc, List.singleton_append] at hrest
    have hsplit := congrArg (List.splitOn '/') hrest
    rw [List.splitOn_append_cons_self, splitOn_intercalate pfx.parts_noSlash hpfx.1,
      splitOn_intercalate key.parts_noSlash hkey.1] at hsplit
    constructor
    · obtain ⟨front, tail, hparts, hfront, -⟩ := List.map_eq_append_iff.mp hsplit.symm
      exact ⟨tail, by rw [hparts, map_toList_injective hfront]⟩
    · intro heq
      rw [heq] at hsplit
      exact List.splitOn_ne_nil '/' rest (List.append_right_eq_self.mp hsplit)
  · rintro ⟨⟨rest, hrest⟩, hne⟩
    have hrestParts : ∀ part ∈ rest, '/' ∉ part.toList := fun part hpart =>
      key.parts_noSlash part (hrest ▸ List.mem_append_right _ hpart)
    have hrestNe : rest ≠ [] := by
      rintro rfl
      exact hne (by simpa using hrest.symm)
    have hsplit : (['/'].intercalate (pfx.parts.map String.toList) ++
        '/' :: ['/'].intercalate (rest.map String.toList)).splitOn '/' = key.parts.map String.toList := by
      rw [List.splitOn_append_cons_self, splitOn_intercalate pfx.parts_noSlash hpfx.1,
        splitOn_intercalate hrestParts hrestNe, ← List.map_append, hrest]
    refine ⟨['/'].intercalate (rest.map String.toList), ?_⟩
    rw [← hsplit, List.intercalate_splitOn, List.append_assoc, List.singleton_append]

end StorePath

/-! ## On S3 -/

/-- The keys in use are keys of the layout. -/
def Layout.Covers (layout : Layout) (m : StoredTexts) : Prop := ∀ k ∈ m.keys, ∃ key ∈ layout.keys, key.text = k

theorem Layout.Covers.set (h : layout.Covers m) (hkey : key ∈ layout.keys) (content : String) :
    layout.Covers (m.set key.text content) := by
  intro k hk
  rcases Dict.mem_keys_set.mp hk with hold | rfl
  · exact h k hold
  · exact ⟨key, hkey, rfl⟩

theorem Layout.Covers.length_le (h : layout.Covers m) : m.keys.length ≤ 1000 := by
  have hsub : m.keys ⊆ layout.keys.map StorePath.text := fun k hk => by
    obtain ⟨key, hkey, rfl⟩ := h k hk
    exact List.mem_map_of_mem hkey
  calc m.keys.length
    _ ≤ (layout.keys.map StorePath.text).length := (List.subperm_of_subset m.nodup hsub).length_le
    _ = layout.keys.length := List.length_map _
    _ ≤ 1000 := layout.page

/-- The objects are the texts of the map. -/
structure S3State.Holds (layout : Layout) (s : S3State) (m : StoredTexts) : Prop where
  entries : s.objects.entries = m.entries.map fun e => (e.1, Blob.text e.2)
  covers : layout.Covers m

namespace S3State

variable {s : S3State}

theorem Holds.get? (h : s.Holds layout m) (k : String) : s.objects.get? k = m.blob k := by
  unfold Dict.get? StoredTexts.blob
  rw [h.entries, Dict.lookup_mapped]
  rfl

theorem Holds.keys (h : s.Holds layout m) : s.objects.keys = m.keys := by
  simp [Dict.keys, h.entries, Function.comp_def]

theorem Holds.set (h : s.Holds layout m) (hkey : key ∈ layout.keys) (content : String) (b : Bool) :
    S3State.Holds layout ⟨s.objects.set key.text (.text content), b⟩ (m.set key.text content) where
  entries := by
    simp only [Dict.set, h.entries]
    exact Dict.assign_mapped Blob.text key.text content m.entries
  covers := h.covers.set hkey content

theorem Holds.listObjects (h : s.Holds layout m) (pfx : String) :
    (s.listObjects pfx).Perm (m.keys.filter fun key => StartsWith key pfx) := by
  have hfilter : s.objects.keys.filter (fun key => pfx.toList.isPrefixOf key.toList) =
      m.keys.filter fun key => StartsWith key pfx := by
    rw [h.keys]
    apply List.filter_congr
    intro key _
    rw [Bool.eq_iff_iff, List.isPrefixOf_iff_prefix, decide_eq_true_iff]
    rfl
  have hlength : (s.keysWith pfx).length ≤ 1000 := by
    rw [keysWith, List.length_mergeSort, hfilter]
    exact (List.length_filter_le _ _).trans h.covers.length_le
  rw [listObjects_eq_take, List.take_of_length_le hlength, keysWith, hfilter]
  exact List.mergeSort_perm _ _

theorem exec_then {α β : Type} (p : StoreM α) (f : α → StoreM β) {a : α} {s' : S3State}
    (h : s.exec env p = (.ok a, s')) : s.exec env (p >>= f) = s'.exec env (f a) := by
  unfold exec at h ⊢
  rw [Prog.exec_bind, h]

theorem exec_writeText_working (autoCreate : Bool) (hworking : env.Working) (h : s.Holds layout m)
    (hkey : key ∈ layout.keys) (content : String) (reply : StoreReply φ) :
    ∃ s', s.exec env (FileStore.writeText autoCreate key.text (.text content) >>= fun _ => pure reply) =
      (.ok reply, s') ∧ s'.Holds layout (m.set key.text content) := by
  obtain ⟨b, hupload⟩ := exec_uploadText_working hworking autoCreate key.text (.text content) s
  exact ⟨_, exec_then _ _ hupload, h.set hkey content b⟩

theorem Holds.step (F : FloatFormat φ) (autoCreate : Bool) (hworking : env.Working) (h : s.Holds layout m)
    {op : StoreOp φ} (hop : layout.Allows op) :
    StoreResult.Same (FileStore.s3Step F autoCreate env s op).1 (m.step F op).1 ∧
      (FileStore.s3Step F autoCreate env s op).2.Holds layout (m.step F op).2 := by
  cases op with
  | writeText key content =>
      obtain ⟨s', hexec, hs'⟩ := exec_writeText_working autoCreate hworking h hop content StoreReply.done
      rw [FileStore.s3Step, FileStore.onS3, hexec]
      exact ⟨.equal _, hs'⟩
  | writeJson key data =>
      obtain ⟨s', hexec, hs'⟩ :=
        exec_writeText_working autoCreate hworking h hop (dataText F data) StoreReply.done
      rw [FileStore.s3Step, FileStore.onS3, hexec]
      exact ⟨.equal _, hs'⟩
  | «exists» key =>
      have hexists := exec_exists env key.text s
      rw [hworking] at hexists
      rw [FileStore.s3Step, FileStore.onS3, exec_then _ _ hexists, h.get?]
      refine ⟨?_, h⟩
      simp only [StoredTexts.blob, Option.isSome_map]
      exact .equal _
  | readText key =>
      rw [FileStore.s3Step, FileStore.onS3, exec_then _ _ (exec_readText_answered (hworking _) (hworking _) s), h.get?]
      exact ⟨.equal _, h⟩
  | readJson key =>
      rw [FileStore.s3Step, FileStore.onS3, exec_then _ _ (exec_readText_answered (hworking _) (hworking _) s), h.get?]
      unfold exec
      rw [Prog.exec_ofExcept]
      exact ⟨.equal _, h⟩
  | listKeys pfx =>
      rw [FileStore.s3Step, FileStore.onS3, FileStore.listKeys,
        exec_then _ _ (exec_listKeys_working hworking s pfx.text)]
      exact ⟨.keys (h.listObjects pfx.text), h⟩

end S3State

/-! ## On the disk -/

/-- The files are the texts of the map, up to their line ends. -/
structure LocalStore.Holds (layout : Layout) (s : LocalStore) (m : StoredTexts) : Prop where
  keys : s.files.keys = m.keys.map pathParts
  texts : ∀ key ∈ layout.keys, (s.files.get? key.parts).map Blob.translated = m.blob key.text
  covers : layout.Covers m

namespace LocalStore

variable {s : LocalStore}

/-- Every file belongs to a key of the layout that is in use. -/
theorem Holds.file (h : s.Holds layout m) {path : List String} (hpath : path ∈ s.files.keys) :
    ∃ key ∈ layout.keys, key.parts = path ∧ key.text ∈ m.keys := by
  rw [h.keys] at hpath
  obtain ⟨k, hk, rfl⟩ := List.mem_map.mp hpath
  obtain ⟨key, hkey, rfl⟩ := h.covers k hk
  exact ⟨key, hkey, rfl, hk⟩

theorem Holds.mem_files (h : s.Holds layout m) (hkey : key ∈ layout.keys) :
    key.parts ∈ s.files.keys ↔ key.text ∈ m.keys := by
  constructor
  · intro hfile
    obtain ⟨key', hkey', hparts, hmem⟩ := h.file hfile
    rwa [(layout.spelled key' hkey').text_eq (layout.spelled key hkey) hparts] at hmem
  · intro hmem
    rw [h.keys]
    exact List.mem_map_of_mem hmem

theorem Holds.not_isDir (h : s.Holds layout m) (hkey : key ∈ layout.keys) : ¬ s.IsDir key.parts := by
  rintro (hnil | ⟨file, hfile, hbelow⟩)
  · exact (layout.spelled key hkey).1 hnil
  · obtain ⟨key', hkey', rfl, -⟩ := h.file hfile
    exact layout.apart key hkey key' hkey' hbelow

theorem Holds.writeText (h : s.Holds layout m) (hkey : key ∈ layout.keys) (content : Blob) :
    s.writeText key content = .ok ⟨s.files.set key.parts content⟩ := by
  have hfree : ¬ ∃ file ∈ s.files.keys, file <+: key.parts.dropLast := by
    rintro ⟨file, hfile, hbelow⟩
    obtain ⟨key', hkey', rfl, -⟩ := h.file hfile
    refine layout.apart key' hkey' key hkey ⟨hbelow.trans (List.dropLast_prefix _), fun heq => ?_⟩
    have hlength := hbelow.length_le
    have hpos := List.length_pos_iff.mpr (layout.spelled key hkey).1
    rw [← heq, List.length_dropLast] at hlength
    omega
  rw [LocalStore.writeText, if_neg hfree, if_neg (h.not_isDir hkey)]

theorem Holds.set (h : s.Holds layout m) (hkey : key ∈ layout.keys) {content : Blob} {text : String}
    (htext : content.translated = .text text) :
    LocalStore.Holds layout ⟨s.files.set key.parts content⟩ (m.set key.text text) where
  keys := by
    rw [Dict.keys_set, Dict.keys_set]
    by_cases hmem : key.text ∈ m.keys
    · rw [if_pos hmem, if_pos ((h.mem_files hkey).mpr hmem), h.keys]
    · rw [if_neg hmem, if_neg (mt (h.mem_files hkey).mp hmem), h.keys, List.map_append]
      rfl
  texts key' hkey' := by
    simp only [StoredTexts.blob, Dict.get?_set]
    by_cases hsame : key.parts = key'.parts
    · have hname := (layout.spelled key hkey).text_eq (layout.spelled key' hkey') hsame
      simp [hsame, hname, htext]
    · have hname : key.text ≠ key'.text := fun heq => hsame (congrArg pathParts heq)
      simp only [hsame, hname, if_false]
      exact h.texts key' hkey'
  covers := h.covers.set hkey text

theorem Holds.put (h : s.Holds layout m) (hkey : key ∈ layout.keys) (content : Blob) {text : String}
    (htext : content.translated = .text text) :
    ∃ s', s.put (φ := φ) key content = (.ok .done, s') ∧ s'.Holds layout (m.set key.text text) := by
  refine ⟨_, ?_, h.set hkey htext⟩
  rw [LocalStore.put, h.writeText hkey]

theorem Holds.exists_eq (h : s.Holds layout m) (hkey : key ∈ layout.keys) :
    s.exists key = (m.get? key.text).isSome := by
  rw [Bool.eq_iff_iff, Dict.get?_isSome, ← h.mem_files hkey, LocalStore.exists, decide_eq_true_iff]
  simp [h.not_isDir hkey]

theorem Holds.readText (h : s.Holds layout m) (hkey : key ∈ layout.keys) :
    s.readText key = .ok (m.blob key.text) := by
  have htext := h.texts key hkey
  have hexists := h.exists_eq hkey
  rw [LocalStore.readText, hexists]
  cases hm : m.get? key.text with
  | none => simp [StoredTexts.blob, hm]
  | some text =>
      cases hfile : s.files.get? key.parts with
      | none => simp [StoredTexts.blob, hm, hfile] at htext
      | some content => simpa [hfile] using htext

theorem translated_dataText (data : Value String φ) :
    (Blob.text (dataText F data)).translated = .text (dataText F data) := by
  have hstyle : (JsonText.Style.indented 2).NoReturn := by simp [JsonText.Style.NoReturn, JsonText.Style.indented]
  have hreturn : '\r' ∉ (dataText F data).toList := JsonText.noReturn_dumps hstyle data
  rw [Blob.translated, JsonText.universalNewlines_eq_self hreturn, String.ofList_toList]

theorem fits_directory {keys : List StorePath} (hkeys : ∀ key ∈ keys, key.Spelled) (hpfx : pfx.Directory) :
    Fits keys pfx := by
  constructor
  · intro _ key hkey
    have hspelled := hkeys key hkey
    rw [StorePath.startsWith_directory_iff hspelled hpfx, hspelled.2]
    exact ⟨fun hbelow => ⟨rfl, hbelow⟩, fun hbelow =>
      ⟨(StorePath.startsWith_directory_iff hspelled hpfx).mpr hbelow, key, hkey, rfl⟩⟩
  · intro hnone key hkey
    have hspelled := hkeys key hkey
    constructor
    · intro hstarts
      exact absurd (Or.inr ⟨key, hkey, (StorePath.startsWith_directory_iff hspelled hpfx).mp hstarts⟩) hnone
    · intro _ _
      exact ⟨key, hkey, hspelled.2.symm⟩

theorem Holds.listKeys_nodup (h : s.Holds layout m) (pfx : StorePath) : (s.listKeys pfx).Nodup := by
  have hinjective : ∀ path ∈ s.files.keys, ∀ path' ∈ s.files.keys, keyOf path = keyOf path' → path = path' := by
    intro path hpath path' hpath' heq
    obtain ⟨key, -, rfl, -⟩ := h.file hpath
    obtain ⟨key', -, rfl, -⟩ := h.file hpath'
    rw [← StorePath.parts_keyOf key, heq, StorePath.parts_keyOf key']
  have hmap : ∀ p : List String → Bool, ((s.files.keys.filter p).map keyOf).Nodup := fun p =>
    List.Nodup.map_on (fun path hpath path' hpath' heq => hinjective path (List.mem_of_mem_filter hpath) path'
      (List.mem_of_mem_filter hpath') heq) (s.files.nodup.filter _)
  unfold LocalStore.listKeys
  dsimp only
  split
  · exact hmap _
  · split
    · exact (hmap _).filter _
    · exact List.nodup_nil

/-- A directory is walked to the keys below it. -/
theorem Holds.listKeys (h : s.Holds layout m) (hpfx : pfx.Directory) :
    (s.listKeys pfx).Perm (m.keys.filter fun key => StartsWith key pfx.text) := by
  have hused : ∀ key, key ∈ layout.keys.filter (fun key => key.text ∈ m.keys) ↔
      key ∈ layout.keys ∧ key.text ∈ m.keys := by simp
  have hfiles : ∀ path, path ∈ s.files.keys ↔
      ∃ key ∈ layout.keys.filter (fun key => key.text ∈ m.keys), key.parts = path := by
    intro path
    constructor
    · intro hpath
      obtain ⟨key, hkey, hparts, hmem⟩ := h.file hpath
      exact ⟨key, (hused key).mpr ⟨hkey, hmem⟩, hparts⟩
    · rintro ⟨key, hkey, rfl⟩
      exact (h.mem_files ((hused key).mp hkey).1).mpr ((hused key).mp hkey).2
  have hexact := (listKeys_exact hfiles).mpr
    (fits_directory (fun key hkey => layout.spelled key ((hused key).mp hkey).1) hpfx)
  apply (List.perm_ext_iff_of_nodup (h.listKeys_nodup pfx) (m.nodup.filter _)).mpr
  intro k
  rw [hexact k, List.mem_filter, decide_eq_true_iff]
  refine and_congr_left fun _ => ⟨?_, fun hk => ?_⟩
  · rintro ⟨key, hkey, rfl⟩
    exact ((hused key).mp hkey).2
  · obtain ⟨key, hkey, rfl⟩ := h.covers k hk
    exact ⟨key, (hused key).mpr ⟨hkey, hk⟩, rfl⟩

theorem Holds.step (F : FloatFormat φ) (h : s.Holds layout m) {op : StoreOp φ} (hop : layout.Allows op) :
    StoreResult.Same (s.step F op).1 (m.step F op.translated).1 ∧
      (s.step F op).2.Holds layout (m.step F op.translated).2 := by
  cases op with
  | writeText key content =>
      obtain ⟨s', hput, hs'⟩ := h.put (φ := φ) hop (.text content) rfl
      rw [LocalStore.step, hput]
      exact ⟨.equal _, hs'⟩
  | writeJson key data =>
      obtain ⟨s', hput, hs'⟩ := h.put (φ := φ) hop (.text (dataText F data)) (translated_dataText data)
      rw [LocalStore.step, hput]
      exact ⟨.equal _, hs'⟩
  | «exists» key =>
      rw [LocalStore.step, h.exists_eq hop]
      exact ⟨.equal _, h⟩
  | readText key =>
      rw [LocalStore.step, h.readText hop]
      exact ⟨.equal _, h⟩
  | readJson key =>
      rw [LocalStore.step, h.readText hop]
      exact ⟨.equal _, h⟩
  | listKeys pfx => exact ⟨.keys (h.listKeys hop), h⟩

end LocalStore

/-! ## Runs -/

theorem s3_simulates (F : FloatFormat φ) (autoCreate : Bool) (layout : Layout) (hworking : env.Working) :
    Machine.Simulates (FileStore.s3Step F autoCreate env) (StoredTexts.step F) id layout.Allows
      (S3State.Holds layout) StoreResult.Same where
  answer _ _ _ hs hop := (hs.step F autoCreate hworking hop).1
  next _ _ _ hs hop := (hs.step F autoCreate hworking hop).2

theorem local_simulates (F : FloatFormat φ) (layout : Layout) :
    Machine.Simulates (LocalStore.step F) (StoredTexts.step F) StoreOp.translated layout.Allows
      (LocalStore.Holds layout) StoreResult.Same where
  answer _ _ _ hs hop := (hs.step F hop).1
  next _ _ _ hs hop := (hs.step F hop).2

theorem StoreResult.Same.symm {r r' : StoreResult φ} (h : Same r r') : Same r' r := by
  cases h with
  | equal => exact .equal _
  | keys h => exact .keys h.symm

theorem StoreResult.Same.trans {r r' r'' : StoreResult φ} (h : Same r r') (h' : Same r' r'') : Same r r'' := by
  cases h with
  | equal => exact h'
  | keys h =>
      cases h' with
      | equal => exact .keys h
      | keys h' => exact .keys (h.trans h')

theorem translated_of_noReturn {ops : List (StoreOp φ)}
    (h : ∀ key content, StoreOp.writeText key content ∈ ops → '\r' ∉ content.toList) :
    ops.map StoreOp.translated = ops := by
  refine (List.map_congr_left fun op hop => ?_).trans (List.map_id ops)
  cases op with
  | writeText key content =>
      rw [StoreOp.translated, JsonText.universalNewlines_eq_self (h key content hop), String.ofList_toList]
      rfl
  | _ => rfl

theorem s3_starts (layout : Layout) : S3State.Holds layout {} Dict.empty :=
  ⟨rfl, fun _ hk => absurd hk List.not_mem_nil⟩

theorem local_starts (layout : Layout) : LocalStore.Holds layout {} Dict.empty :=
  ⟨rfl, fun _ _ => rfl, fun _ hk => absurd hk List.not_mem_nil⟩

/-- Every sequence of operations on the keys of a layout has on S3 the answers of the map, and on the disk those of the
map with the line ends of the written texts translated; so without a carriage return in them the answers of both
backends are the same. -/
theorem backends_agree (F : FloatFormat φ) (layout : Layout) (autoCreate : Bool) (env : StoreEnv)
    (hworking : env.Working) (ops : List (StoreOp φ)) (hops : ∀ op ∈ ops, layout.Allows op) :
    List.Forall₂ StoreResult.Same (Machine.answers (FileStore.s3Step F autoCreate env) {} ops)
        (Machine.answers (StoredTexts.step F) Dict.empty ops) ∧
      List.Forall₂ StoreResult.Same (Machine.answers (LocalStore.step F) {} ops)
        (Machine.answers (StoredTexts.step F) Dict.empty (ops.map StoreOp.translated)) ∧
      ((∀ key content, StoreOp.writeText key content ∈ ops → '\r' ∉ content.toList) →
        List.Forall₂ StoreResult.Same (Machine.answers (LocalStore.step F) {} ops)
          (Machine.answers (FileStore.s3Step F autoCreate env) {} ops)) := by
  have hs3 := (s3_simulates F autoCreate layout hworking).answers (s3_starts layout) hops
  have hlocal := (local_simulates F layout).answers (local_starts layout) hops
  rw [List.map_id] at hs3
  refine ⟨hs3, hlocal, fun hreturn => ?_⟩
  rw [translated_of_noReturn hreturn] at hlocal
  exact Machine.forall₂_of_common (fun _ _ _ h h' => h.trans h'.symm) hlocal hs3

/-- What the dashboard reads, and the file of a pod. -/
def trafficLayout : Layout where
  keys := [trafficJson, podFile]
  spelled := by decide
  apart := by decide
  page := by decide

/-- A count is written, the pods are listed, and the count is read. -/
theorem backends_agree_traffic :
    let ops : List (StoreOp Unit) := [.writeJson podFile (.obj [("requests", .int 3)]), .listKeys instancesDirectory,
      .writeText trafficJson "current\r\n", .readText trafficJson, .readJson podFile, .exists podFile]
    List.Forall₂ StoreResult.Same (Machine.answers (FileStore.s3Step JsonText.oneFloat true { clock := 0 }) {} ops)
        (Machine.answers (StoredTexts.step JsonText.oneFloat) Dict.empty ops) ∧
      List.Forall₂ StoreResult.Same (Machine.answers (LocalStore.step JsonText.oneFloat) {} ops)
        (Machine.answers (StoredTexts.step JsonText.oneFloat) Dict.empty (ops.map StoreOp.translated)) ∧
      ((∀ key content, StoreOp.writeText key content ∈ ops → '\r' ∉ content.toList) →
        List.Forall₂ StoreResult.Same (Machine.answers (LocalStore.step JsonText.oneFloat) {} ops)
          (Machine.answers (FileStore.s3Step JsonText.oneFloat true { clock := 0 }) {} ops)) :=
  backends_agree JsonText.oneFloat trafficLayout true { clock := 0 } (fun _ => rfl) _ (by
    simp [Layout.Allows, trafficLayout]
    decide)

/-- The operation writes no other text to the key. -/
def StoreOp.Leaves (key : StorePath) : StoreOp φ → Prop
  | .writeText key' _ => key'.text ≠ key.text
  | .writeJson key' _ => key'.text ≠ key.text
  | _ => True

theorem get?_final {ops : List (StoreOp φ)} (hops : ∀ op ∈ ops, op.Leaves key) (m : StoredTexts) :
    (Machine.final (StoredTexts.step F) m ops).get? key.text = m.get? key.text := by
  induction ops generalizing m with
  | nil => rfl
  | cons op ops ih =>
      obtain ⟨hop, hops⟩ := List.forall_mem_cons.mp hops
      rw [Machine.final, ih hops]
      cases op with
      | writeText key' content => rw [StoredTexts.step, Dict.get?_set, if_neg hop]
      | writeJson key' data => rw [StoredTexts.step, Dict.get?_set, if_neg hop]
      | _ => rfl

theorem leaves_translated {op : StoreOp φ} (h : op.Leaves key) : op.translated.Leaves key := by
  cases op <;> exact h

theorem StoreResult.Same.json_eq {r : StoreResult φ} {data : Option (Value Units φ)} (h : Same r (.ok (.json data))) :
    r = .ok (.json data) := by
  cases h with
  | equal => rfl

theorem answer_written {data : Value String φ} (hdata : data.WellFormed) {pre post : List (StoreOp φ)}
    (hpost : ∀ op ∈ post, op.Leaves key) (m : StoredTexts) :
    ((Machine.final (StoredTexts.step F) m (pre ++ .writeJson key data :: post)).step F (.readJson key)).1 =
      .ok (.json (some data.units)) := by
  have hget : (Machine.final (StoredTexts.step F) m (pre ++ .writeJson key data :: post)).get? key.text =
      some (dataText F data) := by
    rw [Machine.final_append, Machine.final, get?_final hpost, StoredTexts.step, Dict.get?_set, if_pos rfl]
  rw [StoredTexts.step, StoredTexts.blob, hget, Option.map_some, loadText, dataText, JsonText.loads_dumps _ hdata]

/-- On both backends a value that `write_json` has written is read back as it was, whatever has been written before and
under other keys since. -/
theorem written_json_read (F : FloatFormat φ) (layout : Layout) (autoCreate : Bool) (env : StoreEnv)
    (hworking : env.Working) {key : StorePath} (hkey : key ∈ layout.keys) {data : Value String φ}
    (hdata : data.WellFormed) {pre post : List (StoreOp φ)} (hpre : ∀ op ∈ pre, layout.Allows op)
    (hpost : ∀ op ∈ post, layout.Allows op ∧ op.Leaves key) :
    let ops := pre ++ .writeJson key data :: post
    (FileStore.s3Step F autoCreate env (Machine.final (FileStore.s3Step F autoCreate env) {} ops) (.readJson key)).1 =
        .ok (.json (some data.units)) ∧
      ((Machine.final (LocalStore.step F) {} ops).step F (.readJson key)).1 = .ok (.json (some data.units)) := by
  intro ops
  have hops : ∀ op ∈ ops, layout.Allows op := by
    intro op hop
    rcases List.mem_append.mp hop with h | h
    · exact hpre op h
    · rcases List.mem_cons.mp h with rfl | h
      · exact hkey
      · exact (hpost op h).1
  have htranslated : ops.map StoreOp.translated =
      pre.map StoreOp.translated ++ .writeJson key data :: post.map StoreOp.translated := by
    simp [ops, StoreOp.translated]
  have hs3 := (s3_simulates F autoCreate layout hworking).final (s3_starts layout) hops
  have hlocal := (local_simulates F layout).final (local_starts layout) hops
  rw [List.map_id] at hs3
  rw [htranslated] at hlocal
  constructor
  · have hanswer := (hs3.step F autoCreate hworking (show layout.Allows (.readJson key) from hkey)).1
    rw [answer_written hdata (fun op hop => (hpost op hop).2)] at hanswer
    exact hanswer.json_eq
  · have hleaves : ∀ op ∈ post.map StoreOp.translated, op.Leaves key := by
      intro translated htranslated
      obtain ⟨op, hop, rfl⟩ := List.mem_map.mp htranslated
      exact leaves_translated (hpost op hop).2
    have hanswer := (hlocal.step F (show layout.Allows (.readJson key) from hkey)).1
    rw [StoreOp.translated, answer_written hdata hleaves] at hanswer
    · exact hanswer.json_eq
    · simp

/-- The count of a pod, read after the history has been written. -/
theorem written_json_read_count :
    let ops : List (StoreOp Unit) := [.readJson podFile] ++
      .writeJson podFile (.obj [("requests", .int 3)]) :: [.writeJson trafficJson (.arr [])]
    (FileStore.s3Step JsonText.oneFloat false { clock := 0 }
        (Machine.final (FileStore.s3Step JsonText.oneFloat false { clock := 0 }) {} ops) (.readJson podFile)).1 =
        .ok (.json (some (.obj [(Units.ofString "requests", .int 3)]))) ∧
      ((Machine.final (LocalStore.step JsonText.oneFloat) {} ops).step JsonText.oneFloat (.readJson podFile)).1 =
        .ok (.json (some (.obj [(Units.ofString "requests", .int 3)]))) :=
  written_json_read JsonText.oneFloat trafficLayout false { clock := 0 } (fun _ => rfl) (by simp [trafficLayout])
    (by simp [Value.WellFormed, Value.WellFormedMembers]) (by simp [Layout.Allows, trafficLayout])
    (by simp [Layout.Allows, trafficLayout, StoreOp.Leaves, trafficJson, podFile])

end Hailcast
