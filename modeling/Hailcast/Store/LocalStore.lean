import Hailcast.Lib.Dict
import Hailcast.Common.Json

/-!
# FileStore on the local disk

The files below `local_dir` by the components of their paths. A directory exists as far as a file lies below it,
since files are never deleted.
-/

namespace Hailcast

/-- The components of a `pathlib` path: empty ones and `.` are dropped. -/
def pathParts (text : String) : List String :=
  ((text.toList.splitOn '/').map String.ofList).filter (fun part => part ≠ "" ∧ part ≠ ".")

/-- A key or a prefix that names a path below `local_dir`: it is relative, does not go up with `..`, and has no
backslash. -/
structure StorePath where
  text : String
  relative : text.toList.head? ≠ some '/'
  below : ".." ∉ pathParts text
  posix : '\\' ∉ text.toList

def StorePath.parts (path : StorePath) : List String := pathParts path.text

/-- `str(p.relative_to(local_dir)).replace("\\", "/")` -/
def keyOf (path : List String) : String :=
  String.ofList ((['/'].intercalate (path.map String.toList)).map fun c => if c = '\\' then '/' else c)

/-- `key.startswith(prefix)` -/
def StartsWith (key pfx : String) : Prop := pfx.toList <+: key.toList

instance (key pfx : String) : Decidable (StartsWith key pfx) := inferInstanceAs (Decidable (_ <+: _))

structure LocalStore where
  files : Dict (List String) Blob := Dict.empty

namespace LocalStore

/-- The path lies in the directory, at any depth. -/
def Below (dir path : List String) : Prop := dir <+: path ∧ path ≠ dir

instance (dir path : List String) : Decidable (Below dir path) := inferInstanceAs (Decidable (_ ∧ _))

/-- The path lies directly in the directory. -/
def ChildOf (dir path : List String) : Prop := path ≠ [] ∧ path.dropLast = dir

instance (dir path : List String) : Decidable (ChildOf dir path) := inferInstanceAs (Decidable (_ ∧ _))

/-- `is_dir` -/
def IsDir (s : LocalStore) (path : List String) : Prop := path = [] ∨ ∃ file ∈ s.files.keys, Below path file

instance (s : LocalStore) (path : List String) : Decidable (s.IsDir path) := inferInstanceAs (Decidable (_ ∨ _))

/-- `write_text`; it raises when a directory of the path is a file, and when the path is a directory. -/
def writeText (s : LocalStore) (key : StorePath) (content : Blob) : Except PyError LocalStore :=
  if ∃ file ∈ s.files.keys, file <+: key.parts.dropLast then .error .osError
  else if s.IsDir key.parts then .error .osError
  else .ok { files := s.files.set key.parts content }

/-- `list_keys` -/
def listKeys (s : LocalStore) (pfx : StorePath) : List String :=
  let base := pfx.parts
  if s.IsDir base then (s.files.keys.filter (fun file => Below base file)).map keyOf
  else if s.IsDir base.dropLast then
    ((s.files.keys.filter (fun file => ChildOf base.dropLast file)).map keyOf).filter
      (fun key => StartsWith key pfx.text)
  else []

/-- The writes one after the other, the first exception ending them. -/
def writeAll (s : LocalStore) (writes : List (StorePath × Blob)) : Except PyError LocalStore :=
  writes.foldlM (fun s write => s.writeText write.1 write.2) s

end LocalStore

/-! ## Spelling a path -/

theorem not_mem_of_mem_splitOn {text part : List Char} {sep : Char} (h : part ∈ text.splitOn sep) : sep ∉ part := by
  induction text generalizing part with
  | nil =>
      obtain rfl : part = [] := by simpa using h
      simp
  | cons c text ih =>
      rw [List.splitOn_cons_eq_if_modifyHead] at h
      split at h
      · rcases List.mem_cons.mp h with rfl | h
        · simp
        · exact ih h
      · rename_i hc
        obtain ⟨first, rest, hsplit⟩ := List.exists_cons_of_ne_nil (List.splitOn_ne_nil sep text)
        rw [hsplit] at h ih
        rcases List.mem_cons.mp h with rfl | h
        · have hfirst := ih List.mem_cons_self
          simp only [beq_iff_eq] at hc
          simp [hfirst, Ne.symm hc]
        · exact ih (List.mem_cons_of_mem _ h)

theorem mem_of_mem_splitOn {text part : List Char} {sep c : Char} (h : part ∈ text.splitOn sep) (hc : c ∈ part) :
    c ∈ text := by
  induction text generalizing part with
  | nil =>
      obtain rfl : part = [] := by simpa using h
      exact absurd hc List.not_mem_nil
  | cons d text ih =>
      rw [List.splitOn_cons_eq_if_modifyHead] at h
      split at h
      · rcases List.mem_cons.mp h with rfl | h
        · exact absurd hc List.not_mem_nil
        · exact List.mem_cons_of_mem _ (ih h hc)
      · obtain ⟨first, rest, hsplit⟩ := List.exists_cons_of_ne_nil (List.splitOn_ne_nil sep text)
        rw [hsplit] at h ih
        rcases List.mem_cons.mp h with rfl | h
        · rcases List.mem_cons.mp hc with rfl | hc
          · exact List.mem_cons_self
          · exact List.mem_cons_of_mem _ (ih List.mem_cons_self hc)
        · exact List.mem_cons_of_mem _ (ih (List.mem_cons_of_mem _ h) hc)

theorem mem_pathParts {text part : String} (h : part ∈ pathParts text) :
    part ≠ "" ∧ part ≠ "." ∧ '/' ∉ part.toList ∧ ∀ c ∈ part.toList, c ∈ text.toList := by
  unfold pathParts at h
  obtain ⟨hmem, hkeep⟩ := List.mem_filter.mp h
  obtain ⟨chars, hchars, rfl⟩ := List.mem_map.mp hmem
  obtain ⟨hempty, hdot⟩ := of_decide_eq_true hkeep
  rw [String.toList_ofList]
  exact ⟨hempty, hdot, not_mem_of_mem_splitOn hchars, fun c hc => mem_of_mem_splitOn hchars hc⟩

theorem mem_intercalate {sep c : Char} {parts : List (List Char)} (h : c ∈ [sep].intercalate parts) :
    c = sep ∨ ∃ part ∈ parts, c ∈ part := by
  induction parts with
  | nil => exact absurd h List.not_mem_nil
  | cons part parts ih =>
      cases parts with
      | nil =>
          rw [List.intercalate_singleton] at h
          exact .inr ⟨part, List.mem_cons_self, h⟩
      | cons next parts =>
          rw [List.intercalate_cons_cons, List.append_assoc] at h
          rcases List.mem_append.mp h with h | h
          · exact .inr ⟨part, List.mem_cons_self, h⟩
          · rcases List.mem_cons.mp h with rfl | h
            · exact .inl rfl
            · rcases ih h with rfl | ⟨part', hpart', hc⟩
              · exact .inl rfl
              · exact .inr ⟨part', List.mem_cons_of_mem _ hpart', hc⟩

namespace StorePath

variable {path path' : StorePath}

theorem keyOf_parts (path : StorePath) :
    keyOf path.parts = String.ofList (['/'].intercalate (path.parts.map String.toList)) := by
  have hid : ∀ c ∈ ['/'].intercalate (path.parts.map String.toList), (if c = '\\' then '/' else c) = c := by
    intro c hc
    have hslash : c ≠ '\\' := by
      rintro rfl
      rcases mem_intercalate hc with h | ⟨part, hpart, hmem⟩
      · exact absurd h (by decide)
      · obtain ⟨part, hcomp, rfl⟩ := List.mem_map.mp hpart
        exact path.posix ((mem_pathParts hcomp).2.2.2 _ hmem)
    rw [if_neg hslash]
  unfold keyOf
  rw [List.map_congr_left hid, List.map_id']

theorem parts_keyOf (path : StorePath) : pathParts (keyOf path.parts) = path.parts := by
  rw [keyOf_parts]
  by_cases hnil : path.parts = []
  · rw [hnil]
    rfl
  · have hsplit : (['/'].intercalate (path.parts.map String.toList)).splitOn '/' = path.parts.map String.toList := by
      apply List.splitOn_intercalate
      · intro chars hchars
        obtain ⟨part, hpart, rfl⟩ := List.mem_map.mp hchars
        exact (mem_pathParts hpart).2.2.1
      · simpa using hnil
    unfold pathParts
    rw [String.toList_ofList, hsplit, List.map_map]
    have hmap : path.parts.map (String.ofList ∘ String.toList) = path.parts := by simp [Function.comp_def]
    rw [hmap, List.filter_eq_self]
    intro part hpart
    exact decide_eq_true ⟨(mem_pathParts hpart).1, (mem_pathParts hpart).2.1⟩

theorem parts_eq_of_keyOf (h : keyOf path.parts = path'.text) : path.parts = path'.parts := by
  rw [← parts_keyOf path, h]
  rfl

end StorePath

namespace LocalStore

variable {s s' : LocalStore} {writes : List (StorePath × Blob)} {key pfx : StorePath} {path dir : List String}
  {content : Blob}

theorem ChildOf.below (h : ChildOf dir path) : Below dir path := by
  obtain ⟨hnil, rfl⟩ := h
  refine ⟨List.dropLast_prefix path, fun heq => ?_⟩
  have hlen := congrArg List.length heq
  have hpos := List.length_pos_iff.mpr hnil
  rw [List.length_dropLast] at hlen
  omega

theorem writeText_ok (h : s.writeText key content = .ok s') :
    key.parts ≠ [] ∧ s'.files = s.files.set key.parts content := by
  unfold writeText at h
  split at h
  · cases h
  · split at h
    · cases h
    · rename_i hdir
      cases h
      exact ⟨fun hnil => hdir (.inl hnil), rfl⟩

theorem mem_keys_writeText (h : s.writeText key content = .ok s') :
    path ∈ s'.files.keys ↔ path ∈ s.files.keys ∨ key.parts = path := by
  rw [(writeText_ok h).2, Dict.mem_keys_set]

theorem mem_keys_writeAll (h : s.writeAll writes = .ok s') :
    path ∈ s'.files.keys ↔ path ∈ s.files.keys ∨ ∃ write ∈ writes, write.1.parts = path := by
  induction writes generalizing s with
  | nil =>
      cases h
      simp
  | cons write writes ih =>
      obtain ⟨s₁, hwrite, hrest⟩ := bind_eq_ok h
      rw [ih hrest, mem_keys_writeText hwrite, or_assoc]
      simp

/-! ## Listing -/

theorem mem_listKeys_directory {k : String} (hdir : s.IsDir pfx.parts) :
    k ∈ s.listKeys pfx ↔ ∃ file ∈ s.files.keys, Below pfx.parts file ∧ keyOf file = k := by
  unfold listKeys
  rw [if_pos hdir]
  simp [and_assoc]

/-- Where the prefix names no directory, the keys are those of its parent's files. -/
theorem mem_listKeys_parent {k : String} (hdir : ¬ s.IsDir pfx.parts) :
    k ∈ s.listKeys pfx ↔
      ∃ file ∈ s.files.keys, ChildOf pfx.parts.dropLast file ∧ keyOf file = k ∧ StartsWith k pfx.text := by
  unfold listKeys
  rw [if_neg hdir]
  split
  · constructor
    · intro h
      obtain ⟨hmap, hpfx⟩ := List.mem_filter.mp h
      obtain ⟨file, hfile, rfl⟩ := List.mem_map.mp hmap
      obtain ⟨hkeys, hchild⟩ := List.mem_filter.mp hfile
      exact ⟨file, hkeys, of_decide_eq_true hchild, rfl, of_decide_eq_true hpfx⟩
    · rintro ⟨file, hkeys, hchild, rfl, hpfx⟩
      refine List.mem_filter.mpr ⟨List.mem_map.mpr ⟨file, ?_, rfl⟩, decide_eq_true hpfx⟩
      exact List.mem_filter.mpr ⟨hkeys, decide_eq_true hchild⟩
  · rename_i hparent
    constructor
    · intro h
      exact absurd h List.not_mem_nil
    · rintro ⟨file, hfile, hchild, -⟩
      exact absurd (.inr ⟨file, hfile, hchild.below⟩) hparent

/-- Some key lies below the prefix, so that the prefix names a directory. -/
def NamesDirectory (keys : List StorePath) (pfx : StorePath) : Prop :=
  pfx.parts = [] ∨ ∃ key ∈ keys, Below pfx.parts key.parts

/-- The keys with the prefix are the spelled ones below the directory. -/
def DirectoryFits (keys : List StorePath) (pfx : StorePath) : Prop :=
  ∀ key ∈ keys,
    (StartsWith key.text pfx.text → keyOf key.parts = key.text ∧ Below pfx.parts key.parts) ∧
      (Below pfx.parts key.parts → StartsWith (keyOf key.parts) pfx.text ∧ ∃ key' ∈ keys, key'.text = keyOf key.parts)

/-- The keys with the prefix are the spelled ones directly in the directory above. -/
def ParentFits (keys : List StorePath) (pfx : StorePath) : Prop :=
  ∀ key ∈ keys,
    (StartsWith key.text pfx.text → keyOf key.parts = key.text ∧ ChildOf pfx.parts.dropLast key.parts) ∧
      (ChildOf pfx.parts.dropLast key.parts → StartsWith (keyOf key.parts) pfx.text →
        ∃ key' ∈ keys, key'.text = keyOf key.parts)

def Fits (keys : List StorePath) (pfx : StorePath) : Prop :=
  (NamesDirectory keys pfx → DirectoryFits keys pfx) ∧ (¬ NamesDirectory keys pfx → ParentFits keys pfx)

section Written

variable {keys : List StorePath} (hfiles : ∀ path, path ∈ s.files.keys ↔ ∃ key ∈ keys, key.parts = path)

include hfiles

theorem isDir_iff_namesDirectory : s.IsDir pfx.parts ↔ NamesDirectory keys pfx := by
  unfold NamesDirectory
  unfold IsDir
  constructor
  · rintro (hnil | ⟨file, hfile, hbelow⟩)
    · exact .inl hnil
    · obtain ⟨key, hkey, rfl⟩ := (hfiles file).mp hfile
      exact .inr ⟨key, hkey, hbelow⟩
  · rintro (hnil | ⟨key, hkey, hbelow⟩)
    · exact .inl hnil
    · exact .inr ⟨key.parts, (hfiles _).mpr ⟨key, hkey, rfl⟩, hbelow⟩

theorem listKeys_exact_directory (hdir : s.IsDir pfx.parts) :
    (∀ k, k ∈ s.listKeys pfx ↔ (∃ key ∈ keys, key.text = k) ∧ StartsWith k pfx.text) ↔ DirectoryFits keys pfx := by
  constructor
  · intro hexact key hkey
    constructor
    · intro hpfx
      obtain ⟨file, hfile, hbelow, hspelled⟩ :=
        (mem_listKeys_directory hdir).mp ((hexact _).mpr ⟨⟨key, hkey, rfl⟩, hpfx⟩)
      obtain ⟨key', -, rfl⟩ := (hfiles file).mp hfile
      have hparts := StorePath.parts_eq_of_keyOf hspelled
      rw [hparts] at hspelled hbelow
      exact ⟨hspelled, hbelow⟩
    · intro hbelow
      have hlisted := (hexact (keyOf key.parts)).mp
        ((mem_listKeys_directory hdir).mpr ⟨key.parts, (hfiles _).mpr ⟨key, hkey, rfl⟩, hbelow, rfl⟩)
      exact ⟨hlisted.2, hlisted.1⟩
  · intro hfits k
    rw [mem_listKeys_directory hdir]
    constructor
    · rintro ⟨file, hfile, hbelow, rfl⟩
      obtain ⟨key, hkey, rfl⟩ := (hfiles file).mp hfile
      obtain ⟨hpfx, hspelled⟩ := (hfits key hkey).2 hbelow
      exact ⟨hspelled, hpfx⟩
    · rintro ⟨⟨key, hkey, rfl⟩, hpfx⟩
      obtain ⟨hspelled, hbelow⟩ := (hfits key hkey).1 hpfx
      exact ⟨key.parts, (hfiles _).mpr ⟨key, hkey, rfl⟩, hbelow, hspelled⟩

theorem listKeys_exact_parent (hdir : ¬ s.IsDir pfx.parts) :
    (∀ k, k ∈ s.listKeys pfx ↔ (∃ key ∈ keys, key.text = k) ∧ StartsWith k pfx.text) ↔ ParentFits keys pfx := by
  constructor
  · intro hexact key hkey
    constructor
    · intro hpfx
      obtain ⟨file, hfile, hchild, hspelled, -⟩ :=
        (mem_listKeys_parent hdir).mp ((hexact _).mpr ⟨⟨key, hkey, rfl⟩, hpfx⟩)
      obtain ⟨key', -, rfl⟩ := (hfiles file).mp hfile
      have hparts := StorePath.parts_eq_of_keyOf hspelled
      rw [hparts] at hspelled hchild
      exact ⟨hspelled, hchild⟩
    · intro hchild hpfx
      have hlisted := (hexact (keyOf key.parts)).mp
        ((mem_listKeys_parent hdir).mpr ⟨key.parts, (hfiles _).mpr ⟨key, hkey, rfl⟩, hchild, rfl, hpfx⟩)
      exact hlisted.1
  · intro hfits k
    rw [mem_listKeys_parent hdir]
    constructor
    · rintro ⟨file, hfile, hchild, rfl, hpfx⟩
      obtain ⟨key, hkey, rfl⟩ := (hfiles file).mp hfile
      exact ⟨(hfits key hkey).2 hchild hpfx, hpfx⟩
    · rintro ⟨⟨key, hkey, rfl⟩, hpfx⟩
      obtain ⟨hspelled, hchild⟩ := (hfits key hkey).1 hpfx
      exact ⟨key.parts, (hfiles _).mpr ⟨key, hkey, rfl⟩, hchild, hspelled, hpfx⟩

theorem listKeys_exact :
    (∀ k, k ∈ s.listKeys pfx ↔ (∃ key ∈ keys, key.text = k) ∧ StartsWith k pfx.text) ↔ Fits keys pfx := by
  unfold Fits
  rw [← isDir_iff_namesDirectory hfiles]
  by_cases hdir : s.IsDir pfx.parts
  · simp [hdir, listKeys_exact_directory hfiles hdir]
  · simp [hdir, listKeys_exact_parent hfiles hdir]

end Written

end LocalStore

end Hailcast
