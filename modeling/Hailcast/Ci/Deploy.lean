import Mathlib.Data.List.Infix
import Hailcast.Common.Python
import Hailcast.Lib.EventRun
import Hailcast.Ci.Manifests

/-!
# What the manifests show

A line keeps everything but its tag, and the branch shows only images that have been pushed.
-/

namespace Hailcast

open Words

variable {app : App} {tag : Tag} {line line' : Line} {s x : Service}

/-! ## Names and tags -/

theorem isSpaceChar_eq_false {c : Char} (hlow : 33 ≤ c.toNat) (hhigh : c.toNat < 128) : isSpaceChar c = false := by
  simp [isSpaceChar]
  omega

theorem isSpaceChar_of_plain {c : Char} (h : isPlainChar c = true) : isSpaceChar c = false := by
  simp only [isPlainChar, Bool.or_eq_true, decide_eq_true_eq] at h
  rcases h with (h | rfl) | rfl
  · delta Char.isAlphanum Char.isAlpha Char.isUpper Char.isLower Char.isDigit at h
    simp [UInt32.le_iff_toNat_le] at h
    exact isSpaceChar_eq_false (by omega) (by omega)
  · decide
  · decide

theorem isSpaceChar_of_hex {c : Char} (h : isHex c = true) : isSpaceChar c = false := by
  delta isHex Char.isDigit at h
  simp [UInt32.le_iff_toNat_le, Char.le_def] at h
  exact isSpaceChar_eq_false (by omega) (by omega)

theorem image_word (app : App) : ∀ c ∈ app.image ++ [':'], isSpaceChar c = false := by
  have hprefix : "hailcast-dev-".toList.all isPlainChar = true := by decide
  have hcolon : isSpaceChar ':' = false := by decide
  have himage : ∀ c ∈ app.image, isSpaceChar c = false := by
    intro c hc
    rcases List.mem_append.mp hc with h | h
    · exact isSpaceChar_of_plain (List.all_eq_true.mp hprefix c h)
    · exact isSpaceChar_of_plain (List.all_eq_true.mp app.plain c h)
  exact List.forall_mem_append.mpr ⟨himage, List.forall_mem_singleton.mpr hcolon⟩

theorem tag_word (tag : Tag) : ∀ c ∈ tag.chars, isSpaceChar c = false :=
  fun c hc => isSpaceChar_of_hex (List.all_eq_true.mp tag.hex c hc)

theorem colon_notMem_image (app : App) : ':' ∉ app.image := by
  intro hmem
  rcases List.mem_append.mp hmem with h | h
  · exact absurd h (by decide)
  · exact absurd (List.all_eq_true.mp app.plain _ h) (by decide)

theorem colon_notMem_tag (tag : Tag) : ':' ∉ tag.chars := fun hmem =>
  absurd (List.all_eq_true.mp tag.hex _ hmem) (by decide)

/-- No service's image name ends with that of another. -/
theorem image_suffix (h : s.app.image <:+ x.app.image) : s = x := by
  cases s <;> cases x <;> first | rfl | exact absurd h (by decide)

theorem app_injective (h : s.app = x.app) : s = x := by
  cases s <;> cases x <;> first | rfl | exact absurd h (by decide)

/-! ## Image lines -/

/-- The line shows an image of the app: what stands before and after it, and its tag, which may be any word. -/
structure ImageLine (app : App) (line indent gap registry old tail : List Char) : Prop where
  line_eq : line = indent ++ (imageKey ++ (gap ++ (registry ++ (app.image ++ [':'] ++ old) ++ tail)))
  indent_blank : ∀ c ∈ indent, isSpaceChar c = true
  gap_blank : ∀ c ∈ gap, isSpaceChar c = true
  registry_word : ∀ c ∈ registry, isSpaceChar c = false
  old_word : ∀ c ∈ old, isSpaceChar c = false
  tail_stops : Stops (fun c => !isSpaceChar c) tail
  last : lastSplit (app.image ++ [':']) (registry ++ (app.image ++ [':'] ++ old)) = some (registry, old)

def IsImageLine (app : App) (line : Line) : Prop :=
  ∃ indent gap registry old tail, ImageLine app line indent gap registry old tail

/-- The line with another tag. -/
def imageLine (app : App) (indent gap registry tag tail : List Char) : Line :=
  indent ++ (imageKey ++ (gap ++ (registry ++ (app.image ++ [':'] ++ tag) ++ tail)))

theorem stops_of_word {word : List Char} (hne : word ≠ []) (hword : ∀ c ∈ word, isSpaceChar c = false)
    (tail : List Char) :
    Stops isSpaceChar (word ++ tail) := by
  cases word with
  | nil => exact absurd rfl hne
  | cons c cs => exact hword c (by simp)

theorem ImageLine.retag_eq {indent gap registry old tail : List Char}
    (h : ImageLine app line indent gap registry old tail) (tag : Tag) :
    retag app tag line = some (imageLine app indent gap registry tag.chars tail) := by
  have hword : ∀ c ∈ registry ++ (app.image ++ [':'] ++ old), isSpaceChar c = false :=
    List.forall_mem_append.mpr ⟨h.registry_word, List.forall_mem_append.mpr ⟨image_word app, h.old_word⟩⟩
  have hne : registry ++ (app.image ++ [':'] ++ old) ≠ [] := by simp
  have hindent := span_append h.indent_blank (imageKey ++ (gap ++ (registry ++ (app.image ++ [':'] ++ old) ++ tail)))
    (show isSpaceChar 'i' = false by decide)
  have hgap := span_append h.gap_blank _ (stops_of_word hne hword tail)
  have hspan := span_append (fun c hc => by simpa using hword c hc) tail h.tail_stops
  rw [← h.line_eq] at hindent
  unfold retag
  dsimp only
  rw [hindent.1, hindent.2, if_pos (List.prefix_append _ _), List.drop_left, hgap.1, hgap.2, hspan.1, hspan.2, h.last]
  simp [imageLine]

theorem imageLine_of_retag (h : retag app tag line = some line') :
    ∃ indent gap registry old tail, ImageLine app line indent gap registry old tail ∧
      line' = imageLine app indent gap registry tag.chars tail := by
  unfold retag at h
  dsimp only at h
  split at h
  · rename_i hkey
    obtain ⟨value, hvalue⟩ := hkey
    rw [← hvalue, List.drop_left] at h
    split at h
    · rename_i registry old hlast
      have hword := lastSplit_eq hlast
      have hplain : ∀ c ∈ registry ++ (app.image ++ [':'] ++ old), isSpaceChar c = false := by
        intro c hc
        rw [← hword] at hc
        simpa using List.mem_takeWhile_imp hc
      obtain ⟨hregistry, hrest⟩ := List.forall_mem_append.mp hplain
      refine ⟨line.takeWhile isSpaceChar, value.takeWhile isSpaceChar, registry, old,
        (value.dropWhile isSpaceChar).dropWhile fun c => !isSpaceChar c, ⟨?_, fun _ hc => List.mem_takeWhile_imp hc,
          fun _ hc => List.mem_takeWhile_imp hc, hregistry, (List.forall_mem_append.mp hrest).2, stops_dropWhile _ _,
          by rw [← hword, hlast]⟩, ?_⟩
      · rw [← hword, List.takeWhile_append_dropWhile, List.takeWhile_append_dropWhile, hvalue,
          List.takeWhile_append_dropWhile]
      · rw [← Option.some.inj h]
        simp [imageLine]
    · cases h
  · cases h

/-- A line that has been changed is an image line still, with its new tag. -/
theorem ImageLine.retagged {indent gap registry old tail : List Char}
    (h : ImageLine app line indent gap registry old tail) (tag : Tag) :
    ImageLine app (imageLine app indent gap registry tag.chars tail) indent gap registry tag.chars tail where
  line_eq := rfl
  indent_blank := h.indent_blank
  gap_blank := h.gap_blank
  registry_word := h.registry_word
  old_word := tag_word tag
  tail_stops := h.tail_stops
  last := lastSplit_append app.image (colon_notMem_image app) (colon_notMem_tag tag) registry

/-- The last change wins. -/
theorem retag_retag (h : retag app tag line = some line') (tag' : Tag) :
    retag app tag' line' = retag app tag' line := by
  obtain ⟨indent, gap, registry, old, tail, himage, rfl⟩ := imageLine_of_retag h
  rw [(himage.retagged tag).retag_eq, himage.retag_eq]

theorem any_tails {p : List Char → Bool} (front : List Char) {rest : List Char} (h : p rest = true) :
    (front ++ rest).tails.any p = true :=
  List.any_eq_true.mpr ⟨rest, (List.mem_tails _ _).mpr (List.suffix_append front rest), h⟩

theorem ImageLine.namesImage {indent gap registry old tail : List Char}
    (h : ImageLine app line indent gap registry old tail) : namesImage app line = true := by
  have hword : ∀ c ∈ registry ++ (app.image ++ [':'] ++ old), isSpaceChar c = false :=
    List.forall_mem_append.mpr ⟨h.registry_word, List.forall_mem_append.mpr ⟨image_word app, h.old_word⟩⟩
  have hgap := span_append h.gap_blank _ (stops_of_word (by simp) hword tail)
  have hspan := span_append (fun c hc => by simpa using hword c hc) tail h.tail_stops
  rw [h.line_eq]
  apply any_tails
  rw [List.drop_left, hgap.2, hspan.1, h.last]
  simp

theorem showsTag_imageLine (app : App) (indent gap registry : List Char) (tag : Tag) (tail : List Char) :
    showsTag app tag (imageLine app indent gap registry tag.chars tail) = true := by
  have hline : imageLine app indent gap registry tag.chars tail =
      (indent ++ imageKey ++ gap ++ registry) ++ ((app.image ++ [':'] ++ tag.chars) ++ tail) := by simp [imageLine]
  rw [hline]
  apply any_tails
  rw [List.isPrefixOf_iff_prefix]
  exact List.prefix_append _ _

/-! ## Files -/

def Manifest.retag (tag : Tag) (f : Manifest) : Manifest :=
  { f with lines := f.lines.map fun line => (Hailcast.retag f.path.app tag line).getD line }

/-- The file names an image of its app, and the app has been built. -/
def Manifest.Updated (built : List Service) (f : Manifest) : Prop :=
  f.lines.any (namesImage f.path.app) = true ∧ ∃ s ∈ built, s.app = f.path.app

/-- The file stops the job: its app is no service, or no line can be changed and none shows the tag. -/
def Manifest.Refused (built : List Service) (tag : Tag) (f : Manifest) : Prop :=
  f.lines.any (namesImage f.path.app) = true ∧ ((∀ s : Service, s.app ≠ f.path.app) ∨
    (∃ s ∈ built, s.app = f.path.app) ∧ ∀ line ∈ f.lines, ¬ IsImageLine f.path.app line ∧
      showsTag f.path.app tag line = false)

/-- What is left of a line: all of it, or all but its tag. -/
def LineUpdated (app : App) (tag : Tag) (line line' : Line) : Prop :=
  (¬ IsImageLine app line ∧ line' = line) ∨ ∃ indent gap registry old tail,
    ImageLine app line indent gap registry old tail ∧ line' = imageLine app indent gap registry tag.chars tail

structure Manifest.UpdatedTo (built : List Service) (tag : Tag) (f g : Manifest) : Prop where
  path_eq : g.path = f.path
  other : ¬ f.Updated built → g.lines = f.lines
  lines : f.Updated built → List.Forall₂ (LineUpdated f.path.app tag) f.lines g.lines
  shown : f.Updated built → ∃ line ∈ g.lines, showsTag f.path.app tag line = true

theorem ofApp?_eq_some : Service.ofApp? app = some s ↔ s.app = app := by
  constructor
  · intro h
    simpa using List.find?_some h
  · rintro rfl
    cases hfind : Service.ofApp? s.app with
    | none => simpa using List.find?_eq_none.mp hfind s (mem_all s)
    | some x =>
        have hx : x.app = s.app := by simpa using List.find?_some hfind
        rw [app_injective hx]

theorem ofApp?_eq_none : Service.ofApp? app = none ↔ ∀ s : Service, s.app ≠ app := by
  simp [Service.ofApp?, List.find?_eq_none, mem_all]

theorem retag_eq_none_iff (tag : Tag) : retag app tag line = none ↔ ¬ IsImageLine app line := by
  constructor
  · intro h himage
    obtain ⟨indent, gap, registry, old, tail, himage⟩ := himage
    rw [himage.retag_eq] at h
    cases h
  · intro h
    cases hretag : retag app tag line with
    | none => rfl
    | some line' =>
        obtain ⟨indent, gap, registry, old, tail, himage, _⟩ := imageLine_of_retag hretag
        exact absurd ⟨indent, gap, registry, old, tail, himage⟩ h

theorem getD_retag_retag (app : App) (tag tag' : Tag) (line : Line) :
    (retag app tag' ((retag app tag line).getD line)).getD ((retag app tag line).getD line) =
      (retag app tag' line).getD line := by
  cases h : retag app tag line with
  | none => rfl
  | some line' =>
      rw [Option.getD_some, retag_retag h]
      cases h' : retag app tag' line with
      | none => rw [(retag_eq_none_iff tag).mpr ((retag_eq_none_iff tag').mp h')] at h; cases h
      | some line'' => rfl

theorem Manifest.retag_retag (f : Manifest) (tag tag' : Tag) : (f.retag tag).retag tag' = f.retag tag' := by
  simp [Manifest.retag, getD_retag_retag]

theorem namesImage_getD_retag (h : namesImage app line = true) (tag : Tag) :
    namesImage app ((retag app tag line).getD line) = true := by
  cases hretag : retag app tag line with
  | none => exact h
  | some line' =>
      obtain ⟨indent, gap, registry, old, tail, himage, rfl⟩ := imageLine_of_retag hretag
      exact (himage.retagged tag).namesImage

theorem Manifest.Updated.retag {built : List Service} {f : Manifest} (h : f.Updated built) (tag : Tag) :
    (f.retag tag).Updated built := by
  obtain ⟨hnames, hbuilt⟩ := h
  obtain ⟨line, hline, hnamed⟩ := List.any_eq_true.mp hnames
  exact ⟨List.any_eq_true.mpr ⟨_, List.mem_map_of_mem hline, namesImage_getD_retag hnamed tag⟩, hbuilt⟩

section UpdateFile

variable {built : List Service} {f g : Manifest}

theorem updateFile_updated (h : f.Updated built) (tag : Tag) :
    updateFile built tag f = if (f.retag tag).lines.any (showsTag f.path.app tag) then .ok (f.retag tag)
      else .error (.notReplaced f.path) := by
  obtain ⟨hnames, s, hs, happ⟩ := h
  simp [updateFile, hnames, ofApp?_eq_some.mpr happ, hs, Manifest.retag]

theorem updateFile_other (h : ¬ f.Updated built) (tag : Tag) :
    updateFile built tag f = .ok f ∨ updateFile built tag f = .error (.notBuildTarget f.path) ∧
      f.lines.any (namesImage f.path.app) = true ∧ ∀ s : Service, s.app ≠ f.path.app := by
  unfold updateFile
  split
  · rename_i hnames
    split
    · rename_i hnone
      exact .inr ⟨rfl, hnames, ofApp?_eq_none.mp hnone⟩
    · rename_i s hsome
      have hs : s ∉ built := fun hs => h ⟨hnames, s, hs, ofApp?_eq_some.mp hsome⟩
      exact .inl (if_neg hs)
  · exact .inl rfl

theorem showsTag_retag_eq_false :
    (f.retag tag).lines.any (showsTag f.path.app tag) = false ↔
      ∀ line ∈ f.lines, ¬ IsImageLine f.path.app line ∧ showsTag f.path.app tag line = false := by
  simp only [← retag_eq_none_iff tag, Manifest.retag, List.any_map, List.any_eq_false, Function.comp_apply]
  refine forall₂_congr fun line _ => ?_
  cases h : retag f.path.app tag line with
  | none => simp
  | some line' =>
      obtain ⟨indent, gap, registry, old, tail, _, rfl⟩ := imageLine_of_retag h
      simp [showsTag_imageLine]

theorem updateFile_error : (∃ error, updateFile built tag f = .error error) ↔ f.Refused built tag := by
  by_cases h : f.Updated built
  · rw [updateFile_updated h]
    have happ : ¬ ∀ s : Service, s.app ≠ f.path.app := fun hnone => h.2.elim fun s hs => hnone s hs.2
    simp only [Manifest.Refused, happ, h.1, h.2, true_and, false_or, ← showsTag_retag_eq_false]
    cases (f.retag tag).lines.any (showsTag f.path.app tag) <;> simp
  · have hrefused : f.Refused built tag ↔
        f.lines.any (namesImage f.path.app) = true ∧ ∀ s : Service, s.app ≠ f.path.app :=
      ⟨fun hr => ⟨hr.1, hr.2.resolve_right fun hs => h ⟨hr.1, hs.1⟩⟩, fun hr => ⟨hr.1, .inl hr.2⟩⟩
    rw [hrefused]
    rcases updateFile_other h tag with hok | ⟨herror, hwhy⟩
    · rw [hok]
      refine iff_of_false (by simp) fun hr => ?_
      rw [updateFile, if_pos hr.1, ofApp?_eq_none.mpr hr.2] at hok
      cases hok
    · exact iff_of_true ⟨_, herror⟩ hwhy

/-- What a round does with the file that it does not refuse. -/
theorem updateFile_eq_ok (h : updateFile built tag f = .ok g) :
    (¬ f.Updated built ∧ g = f) ∨ (f.Updated built ∧ g = f.retag tag ∧
      g.lines.any (showsTag f.path.app tag) = true) := by
  by_cases hupdated : f.Updated built
  · rw [updateFile_updated hupdated] at h
    split at h
    · rename_i hshows
      obtain rfl := Except.ok.inj h
      exact .inr ⟨hupdated, rfl, hshows⟩
    · cases h
  · rcases updateFile_other hupdated tag with hok | ⟨herror, _⟩
    · exact .inl ⟨hupdated, (Except.ok.inj (hok ▸ h)).symm⟩
    · rw [herror] at h
      cases h

theorem updateFile_again (h : updateFile built tag f = .ok g) (tag' : Tag) :
    updateFile built tag' g = updateFile built tag' f := by
  rcases updateFile_eq_ok h with ⟨_, rfl⟩ | ⟨hupdated, rfl, _⟩
  · rfl
  · rw [updateFile_updated hupdated, updateFile_updated (hupdated.retag tag), Manifest.retag_retag]
    rfl

theorem lineUpdated_getD (app : App) (tag : Tag) (line : Line) :
    LineUpdated app tag line ((retag app tag line).getD line) := by
  cases h : retag app tag line with
  | none => exact .inl ⟨(retag_eq_none_iff tag).mp h, rfl⟩
  | some line' => exact .inr (imageLine_of_retag h)

theorem updatedTo_of_ok (h : updateFile built tag f = .ok g) : f.UpdatedTo built tag g := by
  rcases updateFile_eq_ok h with ⟨hother, rfl⟩ | ⟨hupdated, rfl, hshows⟩
  · exact ⟨rfl, fun _ => rfl, fun h => absurd h hother, fun h => absurd h hother⟩
  · refine ⟨rfl, fun h => absurd hupdated h, fun _ => ?_, fun _ => List.any_eq_true.mp hshows⟩
    exact List.forall₂_map_right_iff.mpr (List.forall₂_same.mpr fun line _ => lineUpdated_getD _ _ line)

end UpdateFile

/-- The job fails exactly for a refused file, a file that is left alone stays as it is, and of a file that is updated
every line keeps all but its tag. The last tag wins, so updating once more changes nothing. -/
theorem manifests_updated (built : List Service) (tag : Tag) (tree : List Manifest) :
    ((∃ error, updateTags built tag tree = .error error) ↔ ∃ f ∈ tree, f.Refused built tag) ∧
      ∀ tree', updateTags built tag tree = .ok tree' →
        List.Forall₂ (Manifest.UpdatedTo built tag) tree tree' ∧
          ∀ tag', updateTags built tag' tree' = updateTags built tag' tree := by
  refine ⟨?_, fun tree' h => ?_⟩
  · simp only [← updateFile_error]
    exact mapM_eq_error_iff
  · have hfiles := mapM_eq_ok_iff.mp h
    refine ⟨hfiles.imp fun f g hfile => updatedTo_of_ok hfile, fun tag' => ?_⟩
    exact (mapM_eq_mapM (hfiles.imp fun f g hfile => (updateFile_again hfile tag').symm)).symm

def sampleTag : Tag := ⟨"0a1b2c3".toList, by decide, by decide⟩

def sampleManifest (s : Service) (line : String) : Manifest := ⟨⟨s.app, "deployment"⟩, [line.toList]⟩

theorem manifests_updated_worker :
    updateTags [.worker] sampleTag [sampleManifest .worker "  image: r/hailcast-dev-worker:x # w"] =
        .ok [sampleManifest .worker "  image: r/hailcast-dev-worker:0a1b2c3 # w"] ∧
      ∀ tag, updateTags [.worker] tag [sampleManifest .worker "  image: r/hailcast-dev-worker:0a1b2c3 # w"] =
        updateTags [.worker] tag [sampleManifest .worker "  image: r/hailcast-dev-worker:x # w"] := by
  have h : updateTags [.worker] sampleTag [sampleManifest .worker "  image: r/hailcast-dev-worker:x # w"] =
      .ok [sampleManifest .worker "  image: r/hailcast-dev-worker:0a1b2c3 # w"] := by
    decide
  exact ⟨h, ((manifests_updated _ _ _).2 _ h).2⟩

/-! ## The branch -/

/-- A word of the line is the image of the service with the tag. -/
def Refers (s : Service) (t : Tag) (line : Line) : Prop :=
  ∃ word ∈ line.splitOnP isSpaceChar, ∃ registry, lastSplit (s.app.image ++ [':']) word = some (registry, t.chars)

/-- Every image that the files refer to has been pushed. -/
def Pullable (images : List (Service × Tag)) (tree : List Manifest) : Prop :=
  ∀ f ∈ tree, ∀ line ∈ f.lines, ∀ s t, Refers s t line → (s, t) ∈ images

theorem Pullable.mono {images images' : List (Service × Tag)} {tree : List Manifest} (h : Pullable images tree)
    (hsub : images ⊆ images') : Pullable images' tree :=
  fun f hf line hline s t hrefers => hsub (h f hf line hline s t hrefers)

/-- The last colon of a word decides which image it is. -/
theorem eq_of_refers {t : Tag} {front registry : List Char}
    (h : lastSplit (s.app.image ++ [':']) (front ++ (x.app.image ++ [':'] ++ tag.chars)) =
      some (registry, t.chars)) : s = x ∧ t = tag := by
  have hleft := lastSplit_append [] (by simp) (colon_notMem_tag tag) (front ++ x.app.image)
  have hright := lastSplit_append [] (by simp) (colon_notMem_tag t) (registry ++ s.app.image)
  have heq : front ++ x.app.image ++ ([] ++ [':'] ++ tag.chars) =
      registry ++ s.app.image ++ ([] ++ [':'] ++ t.chars) := by simpa using lastSplit_eq h
  rw [heq, hright] at hleft
  obtain ⟨hfront, htag⟩ := Prod.mk.inj (Option.some.inj hleft)
  refine ⟨?_, ?_⟩
  · have hs : s.app.image <:+ registry ++ s.app.image := List.suffix_append _ _
    have hx : x.app.image <:+ registry ++ s.app.image := hfront ▸ List.suffix_append _ _
    rcases List.suffix_or_suffix_of_suffix hs hx with h | h
    · exact image_suffix h
    · exact (image_suffix h).symm
  · cases t
    cases tag
    simpa using htag

/-- A changed line refers to the new image, and else only to what it referred to before. -/
theorem ImageLine.refers {t : Tag} {indent gap registry old tail : List Char}
    (h : ImageLine x.app line indent gap registry old tail)
    (hrefers : Refers s t (imageLine x.app indent gap registry tag.chars tail)) :
    s = x ∧ t = tag ∨ Refers s t line := by
  obtain ⟨blocks, last, rest, hblocks⟩ := splitOnP_block (indent ++ (imageKey ++ gap)) h.tail_stops
  have hnew : ∀ c ∈ registry ++ (x.app.image ++ [':'] ++ tag.chars), isSpaceChar c = false :=
    List.forall_mem_append.mpr ⟨h.registry_word, List.forall_mem_append.mpr ⟨image_word _, tag_word tag⟩⟩
  have hold : ∀ c ∈ registry ++ (x.app.image ++ [':'] ++ old), isSpaceChar c = false :=
    List.forall_mem_append.mpr ⟨h.registry_word, List.forall_mem_append.mpr ⟨image_word _, h.old_word⟩⟩
  have hline : line.splitOnP isSpaceChar = blocks ++ (last ++ (registry ++ (x.app.image ++ [':'] ++ old))) :: rest := by
    rw [← hblocks _ hold, h.line_eq]
    simp
  obtain ⟨word, hword, registry', hsplit⟩ := hrefers
  have hline' : (imageLine x.app indent gap registry tag.chars tail).splitOnP isSpaceChar =
      blocks ++ (last ++ (registry ++ (x.app.image ++ [':'] ++ tag.chars))) :: rest := by
    rw [← hblocks _ hnew]
    simp [imageLine]
  rw [hline'] at hword
  rcases List.mem_append.mp hword with hmem | hmem
  · exact .inr ⟨word, by simp [hline, hmem], registry', hsplit⟩
  · rcases List.mem_cons.mp hmem with rfl | hmem
    · rw [← List.append_assoc] at hsplit
      exact .inl (eq_of_refers hsplit)
    · exact .inr ⟨word, by simp [hline, hmem], registry', hsplit⟩

theorem updateTags_pullable {built : List Service} {images : List (Service × Tag)} {tree tree' : List Manifest}
    (htree : Pullable images tree) (hbuilt : ∀ s ∈ built, (s, tag) ∈ images)
    (h : updateTags built tag tree = .ok tree') : Pullable images tree' := by
  intro g hg line' hline' s t hrefers
  obtain ⟨f, hf, hfile⟩ := exists_of_mem_mapM h hg
  rcases updateFile_eq_ok hfile with ⟨_, rfl⟩ | ⟨⟨_, x, hx, happ⟩, rfl, _⟩
  · exact htree g hf line' hline' s t hrefers
  · obtain ⟨line, hline, rfl⟩ := List.mem_map.mp hline'
    cases hretag : retag f.path.app tag line with
    | none =>
        rw [hretag] at hrefers
        exact htree f hf line hline s t hrefers
    | some line' =>
        rw [hretag] at hrefers
        rw [← happ] at hretag
        obtain ⟨indent, gap, registry, old, tail, himage, rfl⟩ := imageLine_of_retag hretag
        rcases himage.refers hrefers with ⟨rfl, rfl⟩ | hrefers
        · exact hbuilt _ hx
        · exact htree f hf line hline s t hrefers

namespace DeployState

/-- The branch, and what the run is about to push, refer to images that have been pushed; an image of the run has been
pushed or is still to be. -/
def Sound (s : DeployState) : Prop :=
  Pullable s.images s.head.tree ∧
    match s.phase with
    | none => True
    | some (.building run left) => ∀ x ∈ run.services, x ∈ left ∨ (x, run.tag) ∈ s.images
    | some (.pushing _ _ _ ours) => Pullable s.images ours

/-- What somebody else pushes refers to images that have been pushed. -/
def Careful (s : DeployState) (e : DeployEvent) : Prop :=
  match e with
  | .commit tree => Pullable s.images tree
  | _ => True

variable {state : DeployState}

theorem Sound.idle (h : Pullable state.images state.head.tree) : { state with phase := none }.Sound := ⟨h, trivial⟩

theorem Sound.push_image {images : List (Service × Tag)} (h : state.Sound) (hsub : state.images ⊆ images) :
    { state with images := images }.Sound := by
  obtain ⟨hhead, hphase⟩ := h
  refine ⟨hhead.mono hsub, ?_⟩
  cases hstate : state.phase with
  | none => trivial
  | some phase =>
      rw [hstate] at hphase
      cases phase with
      | building run left => exact fun x hx => (hphase x hx).imp_right fun hmem => hsub hmem
      | pushing run attempt base ours => exact Pullable.mono hphase hsub

theorem Sound.rebase (git : GitMerge) {run : DeployRun} {attempt : Nat} {base : Head} {ours : List Manifest}
    (h : Pullable state.images state.head.tree) (hours : Pullable state.images ours) :
    (state.rebase git run attempt base ours).Sound := by
  unfold DeployState.rebase
  cases hmerge : git.merge base.tree ours state.head.tree with
  | none => exact .idle h
  | some merged =>
      dsimp only
      split
      · refine ⟨h, fun f hf line hline s t hrefers => ?_⟩
        rcases git.lines _ _ _ _ hmerge f hf line hline with ⟨g, hg, hmem⟩ | ⟨g, hg, hmem⟩
        · exact hours g hg line hmem s t hrefers
        · exact h g hg line hmem s t hrefers
      · exact .idle h

theorem Sound.step (git : GitMerge) (h : state.Sound) {e : DeployEvent} (he : state.Careful e) :
    (state.step git e).Sound := by
  have hhead := h.1
  have hphase := h.2
  cases e with
  | start push tag =>
      simp only [DeployState.step]
      cases hstate : state.phase with
      | some phase => exact h
      | none =>
          dsimp only
          split
          · exact h
          · exact ⟨hhead, fun x hx => .inl hx⟩
  | pushImage service =>
      simp only [DeployState.step]
      cases hstate : state.phase with
      | none => exact h
      | some phase =>
          rw [hstate] at hphase
          cases phase with
          | pushing run attempt base ours => exact h
          | building run left =>
              dsimp only
              split
              · refine ⟨hhead.mono (List.subset_cons_self _ _), fun x hx => ?_⟩
                by_cases heq : x = service
                · exact .inr (by simp [heq])
                · exact (hphase x hx).imp (fun hmem => (List.mem_erase_of_ne heq).mpr hmem)
                    fun hmem => List.mem_cons_of_mem _ hmem
              · exact h
  | pushMainImage service tag => exact h.push_image (List.subset_cons_self _ _)
  | update =>
      simp only [DeployState.step]
      cases hstate : state.phase with
      | none => exact h
      | some phase =>
          rw [hstate] at hphase
          cases phase with
          | pushing run attempt base ours => exact h
          | building run left =>
              cases left with
              | cons x left => exact h
              | nil =>
                  have hbuilt : ∀ s ∈ run.services, (s, run.tag) ∈ state.images :=
                    fun s hs => (hphase s hs).resolve_left (by simp)
                  dsimp only
                  cases htags : updateTags run.services run.tag state.head.tree with
                  | error e => exact .idle hhead
                  | ok tree =>
                      dsimp only
                      split
                      · exact .idle hhead
                      · exact ⟨hhead, updateTags_pullable hhead hbuilt htags⟩
  | push =>
      simp only [DeployState.step]
      cases hstate : state.phase with
      | none => exact h
      | some phase =>
          rw [hstate] at hphase
          cases phase with
          | building run left => exact h
          | pushing run attempt base ours =>
              dsimp only
              split
              · exact ⟨hphase, trivial⟩
              · exact .rebase git hhead hphase
  | pushFails =>
      simp only [DeployState.step]
      cases hstate : state.phase with
      | none => exact h
      | some phase =>
          rw [hstate] at hphase
          cases phase with
          | building run left => exact h
          | pushing run attempt base ours => exact .rebase git hhead hphase
  | fail => exact .idle hhead
  | commit tree => exact ⟨he, hphase⟩

/-- However runs, failed pushes, rebases and pushes of others interleave, the branch never refers to an image that has
not been pushed, if no one else's push does. -/
theorem images_pullable (git : GitMerge) (images : List (Service × Tag)) (head : Head)
    (hhead : Pullable images head.tree) (events : List DeployEvent)
    (hcareful : EventRun.Along (step git) Careful { images := images, head := head } events) :
    let last := EventRun.run (step git) { images := images, head := head } events
    Pullable last.images last.head.tree :=
  (EventRun.Along.invariant (I := Sound) (fun _ _ h he => h.step git he) ⟨hhead, trivial⟩ hcareful).1

/-- A merge for which two changes of one file conflict. -/
def mergeFiles : List Manifest → List Manifest → List Manifest → Option (List Manifest)
  | [], [], [] => some []
  | b :: base, o :: ours, t :: theirs =>
      if o = b then (mergeFiles base ours theirs).map (t :: ·)
      else if t = b then (mergeFiles base ours theirs).map (o :: ·)
      else none
  | _, _, _ => none

theorem mem_of_mergeFiles {base ours theirs merged : List Manifest} (h : mergeFiles base ours theirs = some merged)
    {f : Manifest} (hf : f ∈ merged) : f ∈ ours ∨ f ∈ theirs := by
  induction base, ours, theirs using mergeFiles.induct generalizing merged with
  | case1 =>
      obtain rfl := Option.some.inj h
      simp at hf
  | case2 base o ours t theirs ih =>
      rw [mergeFiles, if_pos rfl] at h
      obtain ⟨rest, hrest, rfl⟩ := Option.map_eq_some_iff.mp h
      rcases List.mem_cons.mp hf with rfl | hf
      · simp
      · exact (ih hrest hf).imp (List.mem_cons_of_mem _) (List.mem_cons_of_mem _)
  | case3 b base o ours theirs hne ih =>
      rw [mergeFiles, if_neg hne, if_pos rfl] at h
      obtain ⟨rest, hrest, rfl⟩ := Option.map_eq_some_iff.mp h
      rcases List.mem_cons.mp hf with rfl | hf
      · simp
      · exact (ih hrest hf).imp (List.mem_cons_of_mem _) (List.mem_cons_of_mem _)
  | case4 b base o ours t theirs hne hne' =>
      rw [mergeFiles, if_neg hne, if_neg hne'] at h
      cases h
  | case5 => simp [mergeFiles] at h

def fileMerge : GitMerge where
  merge := mergeFiles
  lines := fun _ _ _ _ h f hf _ hline =>
    (mem_of_mergeFiles h hf).imp (fun hmem => ⟨f, hmem, hline⟩) fun hmem => ⟨f, hmem, hline⟩

def sampleTree (worker predict : String) : List Manifest :=
  [sampleManifest .predict predict, sampleManifest .worker worker]

def sampleEvents : List DeployEvent :=
  [.start { before := "1", diff := [.file "backend/worker/main.py"] } sampleTag, .pushImage .worker, .update,
    .commit (sampleTree "image: r/hailcast-dev-worker:x" "image: r/hailcast-dev-predict:y # API"), .push, .push]

theorem pullable_of_tagless {images : List (Service × Tag)} {tree : List Manifest}
    (h : (tree.all fun f => f.lines.all fun line => Service.all.all fun s => (line.splitOnP isSpaceChar).all fun word =>
      (lastSplit (s.app.image ++ [':']) word).all fun split => split.2.length ≠ 7) = true) : Pullable images tree := by
  intro f hf line hline s t hrefers
  obtain ⟨word, hword, registry, hsplit⟩ := hrefers
  simp only [List.all_eq_true] at h
  have hlength := h f hf line hline s (mem_all s) word hword
  simp [hsplit, t.length_eq] at hlength

theorem images_pullable_rebase :
    Pullable [(.worker, sampleTag)] (sampleTree "image: r/hailcast-dev-worker:0a1b2c3"
      "image: r/hailcast-dev-predict:y # API") := by
  have h := images_pullable fileMerge []
    ⟨0, sampleTree "image: r/hailcast-dev-worker:x" "image: r/hailcast-dev-predict:y"⟩
    (pullable_of_tagless (by decide)) sampleEvents
    ⟨trivial, trivial, trivial, pullable_of_tagless (by decide), trivial, trivial, trivial⟩
  have hrun : EventRun.run (step fileMerge)
      { head := ⟨0, sampleTree "image: r/hailcast-dev-worker:x" "image: r/hailcast-dev-predict:y"⟩ } sampleEvents =
        ⟨[(.worker, sampleTag)], ⟨2, sampleTree "image: r/hailcast-dev-worker:0a1b2c3"
          "image: r/hailcast-dev-predict:y # API"⟩, none⟩ := by
    rfl
  dsimp only at h
  rw [hrun] at h
  exact h

end DeployState

end Hailcast
