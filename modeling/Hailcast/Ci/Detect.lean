import Mathlib.Data.List.Basic

/-!
# Detecting the changed services

The step `Detect changed services` of `build.yml`. `git diff --name-only` prints one name for each entry of the diff,
for a renamed file the new one, and puts a name with special characters in quotes, so every name is one line. A
`grep -q` ends at the first line that matches; where `echo` is still writing then, it is killed by SIGPIPE, and with
`pipefail` the match counts as none.
-/

namespace Hailcast

/-! ## The diff of a push -/

inductive DiffEntry where
  | file (path : String)
  | renamed (oldPath newPath : String)

def DiffEntry.paths : DiffEntry → List String
  | .file path => [path]
  | .renamed oldPath newPath => [oldPath, newPath]

/-- The path that `--name-only` shows. -/
def DiffEntry.shown : DiffEntry → String
  | .file path => path
  | .renamed _ newPath => newPath

def quoteMark : Char := Char.ofNat 34

def backslash : Char := Char.ofNat 92

/-- `core.quotePath` is on, as it is by default. -/
def mustQuote (c : Char) : Bool := c.toNat < 32 || 127 ≤ c.toNat || c = quoteMark || c = backslash

def octalDigit (n : Nat) : Char := Char.ofNat (48 + n % 8)

def quoteChar (c : Char) : List Char :=
  match c.toNat with
  | 7 => [backslash, 'a']
  | 8 => [backslash, 'b']
  | 9 => [backslash, 't']
  | 10 => [backslash, 'n']
  | 11 => [backslash, 'v']
  | 12 => [backslash, 'f']
  | 13 => [backslash, 'r']
  | 34 => [backslash, quoteMark]
  | 92 => [backslash, backslash]
  | _ =>
      if mustQuote c then
        (String.utf8EncodeChar c).flatMap fun byte =>
          [backslash, octalDigit (byte.toNat / 64), octalDigit (byte.toNat / 8), octalDigit byte.toNat]
      else [c]

def Plain (path : String) : Prop := path.toList.any mustQuote = false

instance (path : String) : Decidable (Plain path) := inferInstanceAs (Decidable (_ = _))

def printed (path : String) : List Char :=
  if Plain path then path.toList else quoteMark :: path.toList.flatMap quoteChar ++ [quoteMark]

structure Push where
  /-- `github.event.before` -/
  before : String
  /-- `git cat-file -e` finds that commit. -/
  present : Bool := true
  diff : List DiffEntry
  /-- Whether the `grep -q` with this pattern, when it finds it, ends before `echo` has written the lines behind. -/
  endsEarly : String → Bool := fun _ => false

/-! ## The services -/

inductive Service where
  | callApi
  | worker
  | predict
  | simulator
  | weatherCron
  | frontend
deriving DecidableEq

namespace Service

/-- `ALL_SERVICES` -/
def all : List Service := [callApi, worker, predict, simulator, weatherCron, frontend]

/-- `$src`, without its anchor. -/
def src : Service → String
  | callApi => "backend/call-api/"
  | worker => "backend/worker/"
  | predict => "backend/predict/"
  | simulator => "backend/simulator/"
  | weatherCron => "backend/weather-cron/"
  | frontend => "frontend/"

/-- The directories that the `Dockerfile` copies. -/
def sources : Service → List String
  | predict => ["backend/predict/", "backend/common/", "ml/"]
  | frontend => ["frontend/"]
  | s => [s.src, "backend/common/"]

def InSources (s : Service) (path : String) : Prop := ∃ dir ∈ s.sources, dir.toList <+: path.toList

end Service

/-! ## The script -/

def buildWorkflow : String := ".github/workflows/build.yml"

/-- The status of `echo "$files" | grep -q`: behind a match that is not in the last line, `echo` may be killed. -/
def grepQuiet (endsEarly : Bool) (found : List Char → Bool) (files : List (List Char)) : Bool :=
  match files.dropWhile (fun line => !found line) with
  | [] => false
  | [_] => true
  | _ :: _ :: _ => !endsEarly

/-- `grep -qE '^\.github/workflows/build\.yml$'` -/
def grepWorkflow (endsEarly : String → Bool) (files : List (List Char)) : Bool :=
  grepQuiet (endsEarly buildWorkflow) (fun line => line = buildWorkflow.toList) files

/-- `grep -qE "^dir"` -/
def grepPrefix (endsEarly : String → Bool) (dir : String) (files : List (List Char)) : Bool :=
  grepQuiet (endsEarly dir) (fun line => dir.toList.isPrefixOf line) files

/-- The services of the lines that `git diff --name-only` prints. -/
def changedServices (endsEarly : String → Bool) (files : List (List Char)) : List Service :=
  if grepWorkflow endsEarly files then Service.all
  else
    let commonChanged := grepPrefix endsEarly "backend/common/" files
    let changed := Service.all.foldl (fun changed s =>
      if grepPrefix endsEarly s.src files then changed ++ [s]
      else if commonChanged && s ≠ .frontend then changed ++ [s]
      else changed) []
    if grepPrefix endsEarly "ml/" files then
      if changed.contains .predict then changed else changed ++ [.predict]
    else changed

/-- `sort -u` of the names. -/
def sortUnique (services : List Service) : List Service :=
  [.callApi, .frontend, .predict, .simulator, .weatherCron, .worker].filter (fun s => services.contains s)

def Push.comparable (push : Push) : Bool :=
  push.before ≠ "" && push.before ≠ "0000000000000000000000000000000000000000" && push.present

/-- The output `list` of the step. -/
def detect (push : Push) : List Service :=
  sortUnique (if push.comparable then changedServices push.endsEarly (push.diff.map (fun entry => printed entry.shown))
    else Service.all)

/-- The filter `on.push.paths` -/
def Push.triggers (push : Push) : Bool :=
  push.diff.any (fun entry => entry.paths.any (fun path =>
    "backend/".toList.isPrefixOf path.toList || "frontend/".toList.isPrefixOf path.toList ||
      "ml/".toList.isPrefixOf path.toList || path = buildWorkflow))

/-! ## What it finds -/

def Push.Changes (push : Push) (s : Service) : Prop := ∃ entry ∈ push.diff, ∃ path ∈ entry.paths, s.InSources path

/-- The diff shows, without quotes, a path of the pattern; where its `grep` ends early, only in the last line. -/
def Push.Finds (push : Push) (pattern : String) (matching : String → Prop) : Prop :=
  (∃ entry ∈ push.diff, Plain entry.shown ∧ matching entry.shown) ∧
    (push.endsEarly pattern = true → ∀ entry ∈ push.diff.dropLast, ¬ (Plain entry.shown ∧ matching entry.shown))

/-- The push has no commit to compare with, or a source of the service or the workflow is found in its diff. -/
def Push.Shows (push : Push) (s : Service) : Prop :=
  push.comparable = false ∨ push.Finds buildWorkflow (· = buildWorkflow) ∨
    ∃ dir ∈ s.sources, push.Finds dir (fun path => dir.toList <+: path.toList)

theorem mem_all (s : Service) : s ∈ Service.all := by
  cases s <;> decide

example :
    let diff := [.file "backend/worker/app.py", .file "backend/worker/config.py"]
    detect { before := "8c1f0a2", diff } = [.worker] ∧
      detect { before := "8c1f0a2", diff, endsEarly := fun _ => true } = [] := by
  decide +kernel

theorem Push.Changes.triggers {push : Push} {s : Service} (h : push.Changes s) : push.triggers = true := by
  obtain ⟨entry, hentry, path, hpath, dir, hdir, hprefix⟩ := h
  refine List.any_eq_true.mpr ⟨entry, hentry, List.any_eq_true.mpr ⟨path, hpath, ?_⟩⟩
  have htop : "backend/".toList <+: dir.toList ∨ "frontend/".toList <+: dir.toList ∨ "ml/".toList <+: dir.toList := by
    cases s <;> simp only [Service.sources, Service.src, List.mem_cons, List.not_mem_nil, or_false] at hdir <;>
      rcases hdir with rfl | rfl | rfl <;> decide
  simp only [Bool.or_eq_true, List.isPrefixOf_iff_prefix]
  rcases htop with h | h | h
  · exact Or.inl (Or.inl (Or.inl (h.trans hprefix)))
  · exact Or.inl (Or.inl (Or.inr (h.trans hprefix)))
  · exact Or.inl (Or.inr (h.trans hprefix))

end Hailcast
