import Hailcast.Lib.Rounding
import Mathlib.Data.List.Forall2

/-!
# Exceptions and clock times

Exceptions carry what the code later reads of them: the class, and for wrapped errors the operation, the key
and the cause. An aware `datetime` is its instant, and a `timedelta` its length, as an `Int` number of
microseconds, which is the resolution of both types; floats are exact rationals.
-/

namespace Hailcast

/-- The exceptions that reach the modelled code, by class. -/
inductive PyError where
  | zeroDivisionError
  | typeError
  | valueError
  | overflowError
  | keyError (key : String)
  | indexError
  | attributeError
  | eofError
  | osError
  | runtimeError (message : String)
  /-- `csv.Error` -/
  | csvError (message : String)
  | systemExit (code : Int)
  /-- `pydantic.ValidationError` -/
  | validationError (field : String)
  /-- `botocore.exceptions.ClientError`, with the error code of the response -/
  | clientError (code : String)
  | botoCoreError
  /-- `AwsError(f"... {operation} failed: {exc}", service, operation, detail)` -/
  | awsError (service operation key : String)
  | sqlAlchemyError
  | databaseError (operation : String)
  | kubernetesError (message : String)
  /-- `ScalingError(f"keda patch failed after retries: {exc}")` -/
  | scalingError (message : String) (cause : PyError)
  | predictionError (message : String)
  /-- `PredictionError(f"forecast run failed: {exc}")` -/
  | forecastFailed (cause : PyError)
deriving DecidableEq

theorem bind_eq_ok {ε α β : Type} {x : Except ε α} {f : α → Except ε β} {b : β} (h : (x >>= f) = .ok b) :
    ∃ a, x = .ok a ∧ f a = .ok b := by
  cases x with
  | error e => cases h
  | ok a => exact ⟨a, rfl, h⟩

theorem mapM_eq_ok_iff {ε α β : Type} {f : α → Except ε β} {xs : List α} {ys : List β} :
    xs.mapM f = .ok ys ↔ List.Forall₂ (fun x y => f x = .ok y) xs ys := by
  constructor
  · intro h
    induction xs generalizing ys with
    | nil =>
        obtain rfl := Except.ok.inj h
        exact .nil
    | cons x xs ih =>
        rw [List.mapM_cons] at h
        obtain ⟨y, hy, h⟩ := bind_eq_ok h
        obtain ⟨ys', hys, h⟩ := bind_eq_ok h
        obtain rfl := Except.ok.inj h
        exact .cons hy (ih hys)
  · intro h
    induction h with
    | nil => rfl
    | cons hy _ ih =>
        rw [List.mapM_cons, hy, ih]
        rfl

theorem mapM_ok {ε α β : Type} {f : α → Except ε β} {R : α → β → Prop} {xs : List α}
    (h : ∀ x ∈ xs, ∃ y, f x = .ok y ∧ R x y) : ∃ ys, xs.mapM f = .ok ys ∧ List.Forall₂ R xs ys := by
  induction xs with
  | nil => exact ⟨[], rfl, .nil⟩
  | cons x xs ih =>
      obtain ⟨y, hy, hxy⟩ := h x List.mem_cons_self
      obtain ⟨ys, hys, hall⟩ := ih fun x' hx' => h x' (List.mem_cons_of_mem _ hx')
      refine ⟨y :: ys, ?_, .cons hxy hall⟩
      rw [List.mapM_cons, hy, hys]
      rfl

theorem mapM_eq_error_iff {ε α β : Type} {f : α → Except ε β} {xs : List α} :
    (∃ e, xs.mapM f = .error e) ↔ ∃ x ∈ xs, ∃ e, f x = .error e := by
  induction xs with
  | nil => simp [pure, Except.pure]
  | cons x xs ih =>
      rw [List.exists_mem_cons_iff, ← ih, List.mapM_cons]
      cases hx : f x with
      | error e => simp [bind, Except.bind]
      | ok y => cases hxs : xs.mapM f <;> simp [bind, Except.bind, pure, Except.pure]

theorem exists_of_mem_mapM {ε α β : Type} {f : α → Except ε β} {xs : List α} {ys : List β} (h : xs.mapM f = .ok ys)
    {y : β} (hy : y ∈ ys) : ∃ x ∈ xs, f x = .ok y := by
  replace h := mapM_eq_ok_iff.mp h
  induction h with
  | nil => simp at hy
  | cons hx _ ih =>
      rcases List.mem_cons.mp hy with rfl | hy
      · exact ⟨_, List.mem_cons_self, hx⟩
      · obtain ⟨x, hmem, hx⟩ := ih hy
        exact ⟨x, List.mem_cons_of_mem _ hmem, hx⟩

theorem mapM_eq_mapM {ε α β γ : Type} {f : α → Except ε γ} {g : β → Except ε γ} {xs : List α} {ys : List β}
    (h : List.Forall₂ (fun x y => f x = g y) xs ys) : xs.mapM f = ys.mapM g := by
  induction h with
  | nil => rfl
  | cons hxy _ ih => rw [List.mapM_cons, List.mapM_cons, hxy, ih]

theorem mapM_map {ε α β γ : Type} {f : α → Except ε β} {g : β → γ} {g' : α → γ} {xs : List α} {ys : List β}
    (h : xs.mapM f = .ok ys) (hg : ∀ x y, f x = .ok y → g y = g' x) : ys.map g = xs.map g' := by
  replace h := mapM_eq_ok_iff.mp h
  induction h with
  | nil => rfl
  | cons hy _ ih => rw [List.map_cons, List.map_cons, hg _ _ hy, ih]

theorem ne_nil_of_mapM {ε α β : Type} {f : α → Except ε β} {xs : List α} {ys : List β} (h : xs.mapM f = .ok ys)
    (hxs : xs ≠ []) : ys ≠ [] := by
  rintro rfl
  exact hxs (List.forall₂_nil_right_iff.mp (mapM_eq_ok_iff.mp h))

/-- Two passes over a list do for each element one after the other. -/
theorem mapM_mapM_iff {ε α β γ : Type} {f : α → Except ε β} {g : β → Except ε γ} {xs : List α} {zs : List γ} :
    (∃ ys, xs.mapM f = .ok ys ∧ ys.mapM g = .ok zs) ↔ List.Forall₂ (fun x z => (f x >>= g) = .ok z) xs zs := by
  simp only [mapM_eq_ok_iff]
  constructor
  · rintro ⟨ys, hf, hg⟩
    induction hf generalizing zs with
    | nil =>
        cases hg
        exact .nil
    | cons hy _ ih =>
        cases hg with
        | cons hz hg => exact .cons (by rw [hy]; exact hz) (ih hg)
  · intro h
    induction h with
    | nil => exact ⟨[], .nil, .nil⟩
    | cons hz _ ih =>
        obtain ⟨ys, hf, hg⟩ := ih
        obtain ⟨y, hy, hyz⟩ := bind_eq_ok hz
        exact ⟨y :: ys, .cons hy hf, .cons hyz hg⟩

/-! ## Numbers -/

/-- `round(x, digits)` -/
def pyRound (x : ℚ) (digits : Nat) : ℚ := roundHalfEven (x * 10 ^ digits) / 10 ^ digits

/-- `x % y` of floats, for a `y` that is not zero. -/
def pyMod (x y : ℚ) : ℚ := x - y * ⌊x / y⌋

theorem pyMod_nonneg (x : ℚ) {y : ℚ} (hy : 0 < y) : 0 ≤ pyMod x y := by
  have hfloor := (le_div_iff₀ hy).mp (Int.floor_le (x / y))
  unfold pyMod
  linarith

theorem pyMod_lt (x : ℚ) {y : ℚ} (hy : 0 < y) : pyMod x y < y := by
  have hfloor := (div_lt_iff₀ hy).mp (Int.lt_floor_add_one (x / y))
  unfold pyMod
  linarith

/-- `float(x)` of a number: an integer has no float beyond the greatest one. -/
def pyFloat : ExtRat → Except PyError ExtRat
  | .fin q =>
      if 2 ^ 1024 ≤ |FloatFormat.binary64.round q| then .error .overflowError
      else .ok (.fin (FloatFormat.binary64.round q))
  | a => .ok a

theorem pyFloat_fin_iff {q : ℚ} {a : ExtRat} :
    pyFloat (.fin q) = .ok a ↔ |FloatFormat.binary64.round q| < 2 ^ 1024 ∧ a = .fin (FloatFormat.binary64.round q) := by
  simp only [pyFloat]
  split
  · rename_i hle
    constructor
    · rintro ⟨⟩
    · rintro ⟨hlt, _⟩
      exact absurd hle (not_le.mpr hlt)
  · rename_i hlt
    rw [Except.ok.injEq, eq_comm, and_iff_right (not_le.mp hlt)]

/-- An integer of at most 53 binary digits is a float. -/
theorem round_intCast {n : Int} (h : |n| < 2 ^ 53) : FloatFormat.binary64.round n = n := by
  apply FloatFormat.round_eq_self_iff.mpr
  have hbase : ((FloatFormat.binary64.base : ℕ) : ℚ) = 2 := rfl
  apply FloatFormat.represents_intCast (k := 53) (by decide)
  · rw [hbase]
    exact_mod_cast h
  · decide

/-! ## Blanks -/

/-- The blanks of ASCII text, tab to carriage return and the space. -/
def isAsciiSpace (c : Char) : Bool := c = ' ' || (9 ≤ c.toNat && c.toNat ≤ 13)

/-- `c.isspace()` of a character beyond ASCII -/
def isWideSpace (c : Char) : Bool :=
  c.toNat ∈ [0x85, 0xa0, 0x1680, 0x2028, 0x2029, 0x202f, 0x205f, 0x3000] || (0x2000 ≤ c.toNat && c.toNat ≤ 0x200a)

/-- `c.isspace()`; the separators of information technology are blanks of `str`, and not of ASCII text. -/
def isSpace (c : Char) : Bool := isAsciiSpace c || (0x1c ≤ c.toNat && c.toNat ≤ 0x1f) || isWideSpace c

/-- `s.strip()` -/
def strip (s : String) : String :=
  String.ofList ((((s.toList.dropWhile isSpace).reverse).dropWhile isSpace).reverse)

/-! ## Times -/

def hourMicros : Int := 3600000000

def dayMicros : Int := 86400000000

/-- `ts.replace(minute=0, second=0, microsecond=0)` of a UTC time. -/
def floorToHour (ts : Int) : Int := ts - ts % hourMicros

/-- `timedelta(minutes=m)` -/
def timedeltaMinutes (m : Int) : Int := m * 60000000

/-- `d.total_seconds()` -/
def totalSeconds (d : Int) : ℚ := (d : ℚ) / 1000000

theorem totalSeconds_mono {d d' : Int} (h : d ≤ d') : totalSeconds d ≤ totalSeconds d' := by
  have hq : (d : ℚ) ≤ d' := by exact_mod_cast h
  unfold totalSeconds
  linarith

end Hailcast
