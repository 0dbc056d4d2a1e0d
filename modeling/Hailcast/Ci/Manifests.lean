import Hailcast.Ci.Detect
import Hailcast.Lib.Words

/-!
# Updating the manifests

The job `update-manifests` of `build.yml`: the tags are put into the image lines of the services that have been built,
and the commit is pushed to the branch that is deployed, after a rebase where somebody else has pushed. A file is the
list of its lines. The files are those that `apps/*/*.yaml` names, in its order.
-/

namespace Hailcast

open Words

abbrev Line := List Char

/-- `[[:space:]]` within a line, in a UTF-8 locale. -/
def isSpaceChar (c : Char) : Bool :=
  (9 ≤ c.toNat && c.toNat ≤ 13) || c.toNat = 32 || c.toNat = 0x1680 ||
    (0x2000 ≤ c.toNat && c.toNat ≤ 0x200a && c.toNat ≠ 0x2007) || c.toNat = 0x2028 || c.toNat = 0x2029 ||
    c.toNat = 0x205f || c.toNat = 0x3000

/-- A character without a meaning in a regular expression or a `case` pattern. -/
def isPlainChar (c : Char) : Bool := c.isAlphanum || c = '-' || c = '_'

/-- The name of a directory below `apps`. -/
structure App where
  name : List Char
  plain : name.all isPlainChar = true
deriving DecidableEq

/-- `hailcast-dev-${svc}` -/
def App.image (app : App) : List Char := "hailcast-dev-".toList ++ app.name

def isHex (c : Char) : Bool := c.isDigit || ('a' ≤ c && c ≤ 'f')

/-- `${GITHUB_SHA::7}` -/
structure Tag where
  chars : List Char
  length_eq : chars.length = 7
  hex : chars.all isHex = true
deriving DecidableEq

namespace Service

/-- The name in `ALL_SERVICES`. -/
def app : Service → App
  | callApi => ⟨"call-api".toList, by decide⟩
  | worker => ⟨"worker".toList, by decide⟩
  | predict => ⟨"predict".toList, by decide⟩
  | simulator => ⟨"simulator".toList, by decide⟩
  | weatherCron => ⟨"weather-cron".toList, by decide⟩
  | frontend => ⟨"frontend".toList, by decide⟩

/-- `case " $ALL_SERVICES " in *" $svc "*)` -/
def ofApp? (app : App) : Option Service := Service.all.find? (fun s => s.app = app)

end Service

/-! ## A line -/

def imageKey : List Char := "image:".toList

/-- `grep -qE "image:[[:space:]]*[^[:space:]]*hailcast-dev-${svc}:"` of one line -/
def namesImage (app : App) (line : Line) : Bool :=
  line.tails.any fun rest =>
    imageKey.isPrefixOf rest &&
      (lastSplit (app.image ++ [':'])
        (((rest.drop imageKey.length).dropWhile isSpaceChar).takeWhile fun c => !isSpaceChar c)).isSome

/-- `sed -E "s|^([[:space:]]*image:[[:space:]]*[^[:space:]]*hailcast-dev-${svc}):[^[:space:]]*|\1:${TAG}|"` of one line,
if it matches: the image is the last one of its name before the next blank. -/
def retag (app : App) (tag : Tag) (line : Line) : Option Line :=
  let rest := line.dropWhile isSpaceChar
  if imageKey <+: rest then
    let value := rest.drop imageKey.length
    let word := (value.dropWhile isSpaceChar).takeWhile fun c => !isSpaceChar c
    match lastSplit (app.image ++ [':']) word with
    | some (registry, _) =>
        some (line.takeWhile isSpaceChar ++ imageKey ++ value.takeWhile isSpaceChar ++ registry ++
          (app.image ++ [':'] ++ tag.chars) ++ (value.dropWhile isSpaceChar).dropWhile fun c => !isSpaceChar c)
    | none => none
  else none

/-- `grep -q "hailcast-dev-${svc}:${TAG}"` of one line -/
def showsTag (app : App) (tag : Tag) (line : Line) : Bool :=
  line.tails.any fun rest => (app.image ++ [':'] ++ tag.chars).isPrefixOf rest

/-! ## The files -/

/-- `apps/<app>/<file>.yaml` -/
structure ManifestPath where
  app : App
  file : String
deriving DecidableEq

structure Manifest where
  path : ManifestPath
  lines : List Line
deriving DecidableEq

inductive UpdateError where
  /-- `${svc} 가 빌드 대상(ALL_SERVICES)에 없다. app 레포에 먼저 추가한다.` -/
  | notBuildTarget (path : ManifestPath)
  /-- `이미지 태그 치환 실패. 이미지 라인 형식이 바뀌었는지 확인한다.` -/
  | notReplaced (path : ManifestPath)
deriving DecidableEq

/-- One round of the loop over the files. -/
def updateFile (built : List Service) (tag : Tag) (f : Manifest) : Except UpdateError Manifest :=
  if f.lines.any (namesImage f.path.app) then
    match Service.ofApp? f.path.app with
    | none => .error (.notBuildTarget f.path)
    | some s =>
        if s ∈ built then
          let lines := f.lines.map fun line => (retag f.path.app tag line).getD line
          if lines.any (showsTag f.path.app tag) then .ok { f with lines := lines } else .error (.notReplaced f.path)
        else .ok f
  else .ok f

/-- The step `Update image tags`. -/
def updateTags (built : List Service) (tag : Tag) (tree : List Manifest) : Except UpdateError (List Manifest) :=
  tree.mapM (updateFile built tag)

/-! ## The branch of the manifests -/

/-- `git pull --rebase` of the job's commit: `merge base ours theirs`, none where it conflicts. Every line of the result
comes from one of the sides. -/
structure GitMerge where
  merge : List Manifest → List Manifest → List Manifest → Option (List Manifest)
  lines : ∀ base ours theirs merged, merge base ours theirs = some merged → ∀ f ∈ merged, ∀ line ∈ f.lines,
    (∃ g ∈ ours, line ∈ g.lines) ∨ ∃ g ∈ theirs, line ∈ g.lines

/-- What a run builds, and with which tag. -/
structure DeployRun where
  services : List Service
  tag : Tag

/-- A commit of the branch: how many came before it, and the files. -/
structure Head where
  number : Nat
  tree : List Manifest

inductive DeployPhase where
  /-- The jobs of the matrix that have not pushed their image yet. -/
  | building (run : DeployRun) (left : List Service)
  /-- The commit on top of `base`, before its push. -/
  | pushing (run : DeployRun) (attempt : Nat) (base : Head) (ours : List Manifest)

/-- The images of the registry, the branch that is deployed, and the run for the branch `dev` that is going. -/
structure DeployState where
  images : List (Service × Tag) := []
  head : Head
  phase : Option DeployPhase := none

inductive DeployEvent where
  /-- A run for a push to `dev` starts. -/
  | start (push : Push) (tag : Tag)
  /-- A job of the matrix has pushed its image. -/
  | pushImage (s : Service)
  /-- A job of a run for `main` has pushed its image. -/
  | pushMainImage (s : Service) (tag : Tag)
  /-- `Checkout manifests`, `Update image tags` and the commit. -/
  | update
  | push
  /-- `git push` fails though nobody else has pushed. -/
  | pushFails
  /-- A job fails or the run is cancelled. -/
  | fail
  /-- Somebody else pushes to the branch. -/
  | commit (tree : List Manifest)

namespace DeployState

/-- `git pull --rebase`, then the next attempt of three. -/
def rebase (git : GitMerge) (s : DeployState) (run : DeployRun) (attempt : Nat) (base : Head) (ours : List Manifest) :
    DeployState :=
  match git.merge base.tree ours s.head.tree with
  | none => { s with phase := none }
  | some merged => { s with phase := if attempt < 3 then some (.pushing run (attempt + 1) s.head merged) else none }

/-- An event that is not possible in the state leaves it as it is. -/
def step (git : GitMerge) (s : DeployState) : DeployEvent → DeployState
  | .start push tag =>
      match s.phase with
      | none => if detect push = [] then s else { s with phase := some (.building ⟨detect push, tag⟩ (detect push)) }
      | some _ => s
  | .pushImage service =>
      match s.phase with
      | some (.building run left) =>
          if service ∈ left then
            { s with images := (service, run.tag) :: s.images, phase := some (.building run (left.erase service)) }
          else s
      | _ => s
  | .pushMainImage service tag => { s with images := (service, tag) :: s.images }
  | .update =>
      match s.phase with
      | some (.building run []) =>
          match updateTags run.services run.tag s.head.tree with
          | .error _ => { s with phase := none }
          | .ok tree =>
              { s with phase := if tree = s.head.tree then none else some (.pushing run 1 s.head tree) }
      | _ => s
  | .push =>
      match s.phase with
      | some (.pushing run attempt base ours) =>
          if base.number = s.head.number then { s with head := ⟨s.head.number + 1, ours⟩, phase := none }
          else s.rebase git run attempt base ours
      | _ => s
  | .pushFails =>
      match s.phase with
      | some (.pushing run attempt base ours) => s.rebase git run attempt base ours
      | _ => s
  | .fail => { s with phase := none }
  | .commit tree => { s with head := ⟨s.head.number + 1, tree⟩ }

end DeployState

end Hailcast
