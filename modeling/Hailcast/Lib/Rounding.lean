import Hailcast.Lib.ExtRat
import Mathlib.Data.Int.Log
import Mathlib.Data.Rat.Floor

/-!
# Rounding to a number of digits

Nearest integers, ties to even, and from them the nearest numbers of a format: those of a given number of digits in some
base, with or without a least exponent. The double precision of floats and the six digits of a printed number are two
such formats.
-/

/-! ## Integers -/

/-- The nearest integer, of two equally near ones the even one. -/
def roundHalfEven (x : ℚ) : Int :=
  let below := ⌊x⌋
  let rest := x - below
  if rest < 1 / 2 then below
  else if 1 / 2 < rest then below + 1
  else if below % 2 = 0 then below
  else below + 1

@[simp] theorem roundHalfEven_intCast (n : Int) : roundHalfEven (n : ℚ) = n := by
  simp [roundHalfEven]

theorem abs_roundHalfEven_sub_le (x : ℚ) : |(roundHalfEven x : ℚ) - x| ≤ 1 / 2 := by
  have hfloor := Int.floor_le x
  have hlt := Int.lt_floor_add_one x
  rw [abs_le]
  simp only [roundHalfEven]
  split
  · constructor <;> linarith
  · split
    · push_cast
      constructor <;> linarith
    · split
      · constructor <;> linarith
      · push_cast
        constructor <;> linarith

/-- A number nearer to an integer than a half is rounded to it. -/
theorem roundHalfEven_eq {x : ℚ} {n : Int} (h : |x - n| < 1 / 2) : roundHalfEven x = n := by
  have hround := abs_roundHalfEven_sub_le x
  have hdist : |((roundHalfEven x - n : Int) : ℚ)| < 1 := by
    push_cast
    rw [abs_lt] at h ⊢
    rw [abs_le] at hround
    constructor <;> linarith
  have hint : |roundHalfEven x - n| < 1 := by exact_mod_cast hdist
  rw [Int.abs_lt_one_iff] at hint
  omega

theorem roundHalfEven_mono {x y : ℚ} (h : x ≤ y) : roundHalfEven x ≤ roundHalfEven y := by
  rcases (Int.floor_mono h).lt_or_eq with hlt | heq
  · -- an integer lies between them
    have hx : roundHalfEven x ≤ ⌊x⌋ + 1 := by
      simp only [roundHalfEven]
      split_ifs <;> omega
    have hy : ⌊y⌋ ≤ roundHalfEven y := by
      simp only [roundHalfEven]
      split_ifs <;> omega
    omega
  · simp only [roundHalfEven, heq]
    split_ifs <;> first | omega | (exfalso; linarith)

theorem roundHalfEven_neg (x : ℚ) : roundHalfEven (-x) = -roundHalfEven x := by
  by_cases htie : x - ⌊x⌋ = 1 / 2
  · have hneg : ⌊-x⌋ = -⌊x⌋ - 1 := by
      rw [Int.floor_eq_iff]
      push_cast
      constructor <;> linarith
    have hrest : -x - ((-⌊x⌋ - 1 : Int) : ℚ) = 1 / 2 := by
      push_cast
      linarith
    simp only [roundHalfEven, hneg, hrest, htie, lt_irrefl, ↓reduceIte]
    split_ifs <;> omega
  · apply roundHalfEven_eq
    have hround := abs_roundHalfEven_sub_le x
    have hne : |(roundHalfEven x : ℚ) - x| ≠ 1 / 2 := by
      intro heq
      apply htie
      simp only [roundHalfEven] at heq
      have hfloor := Int.floor_le x
      have hlt := Int.lt_floor_add_one x
      split_ifs at heq with h1 h2 h3
      · rw [abs_of_nonpos (by linarith)] at heq
        linarith
      · push_cast at heq
        rw [abs_of_nonneg (by linarith)] at heq
        linarith
      · linarith
      · linarith
    rw [Int.cast_neg, neg_sub_neg]
    exact lt_of_le_of_ne hround hne

theorem roundHalfEven_nonneg {x : ℚ} (h : 0 ≤ x) : 0 ≤ roundHalfEven x := by
  have hmono := roundHalfEven_mono h
  rwa [← Int.cast_zero, roundHalfEven_intCast] at hmono

/-! ## Formats -/

/-- A number format: its base, and the exponent of the last digit of a number by the exponent of its first. -/
structure FloatFormat where
  base : ℕ
  one_lt : 1 < base
  last : Int → Int
  last_mono : ∀ ⦃e e'⦄, e ≤ e' → last e ≤ last e'
  /-- The last digit is not above the first one, or it is the last digit of every smaller number too. -/
  valid : ∀ e, last e ≤ e ∨ ∀ e' ≤ e, last e' = last e

namespace FloatFormat

variable {f : FloatFormat} {x y : ℚ}

/-- The value of one in the last digit of a number. -/
def unit (f : FloatFormat) (x : ℚ) : ℚ := (f.base : ℚ) ^ f.last (Int.log f.base |x|)

/-- The nearest number of the format, ties to even. -/
def round (f : FloatFormat) (x : ℚ) : ℚ := roundHalfEven (x / f.unit x) * f.unit x

/-- The number has no digit after the last one of the format. -/
def Represents (f : FloatFormat) (x : ℚ) : Prop := ∃ n : Int, x = n * f.unit x

theorem base_pos (f : FloatFormat) : (0 : ℚ) < f.base := by
  exact_mod_cast lt_trans Nat.zero_lt_one f.one_lt

theorem one_lt_base (f : FloatFormat) : (1 : ℚ) < f.base := by
  exact_mod_cast f.one_lt

theorem unit_pos (f : FloatFormat) (x : ℚ) : 0 < f.unit x := zpow_pos f.base_pos _

@[simp] theorem unit_neg (f : FloatFormat) (x : ℚ) : f.unit (-x) = f.unit x := by
  simp [unit]

@[simp] theorem round_zero (f : FloatFormat) : f.round 0 = 0 := by
  have hzero := roundHalfEven_intCast 0
  rw [Int.cast_zero] at hzero
  simp [round, hzero]

@[simp] theorem round_neg (f : FloatFormat) (x : ℚ) : f.round (-x) = -f.round x := by
  simp [round, neg_div, roundHalfEven_neg]

/-- Exactly the numbers of the format stay as they are. -/
theorem round_eq_self_iff : f.round x = x ↔ f.Represents x := by
  constructor
  · intro h
    exact ⟨roundHalfEven (x / f.unit x), h.symm⟩
  · rintro ⟨n, hn⟩
    have hdiv : x / f.unit x = n := (div_eq_iff (f.unit_pos x).ne').mpr hn
    rw [round, hdiv, roundHalfEven_intCast, ← hn]

theorem abs_round_sub_le (f : FloatFormat) (x : ℚ) : |f.round x - x| ≤ f.unit x / 2 := by
  have hunit := f.unit_pos x
  have hfactor : f.round x - x = (roundHalfEven (x / f.unit x) - x / f.unit x) * f.unit x := by
    rw [round, sub_mul, div_mul_cancel₀ x hunit.ne']
  rw [hfactor, abs_mul, abs_of_pos hunit]
  calc |(roundHalfEven (x / f.unit x) : ℚ) - x / f.unit x| * f.unit x
      ≤ 1 / 2 * f.unit x := mul_le_mul_of_nonneg_right (abs_roundHalfEven_sub_le _) hunit.le
    _ = f.unit x / 2 := by ring

theorem round_nonneg (h : 0 ≤ x) : 0 ≤ f.round x := by
  have hround := roundHalfEven_nonneg (div_nonneg h (f.unit_pos x).le)
  exact mul_nonneg (by exact_mod_cast hround) (f.unit_pos x).le

/-- A power of the base is a multiple of the unit of a number whose last digit is not above it. -/
theorem exists_mul_unit {k : Int} (h : f.last (Int.log f.base |x|) ≤ k) :
    ∃ n : Int, (f.base : ℚ) ^ k = n * f.unit x := by
  obtain ⟨d, hd⟩ := Int.eq_ofNat_of_zero_le (sub_nonneg.mpr h)
  refine ⟨f.base ^ d, ?_⟩
  have hk : k = d + f.last (Int.log f.base |x|) := by omega
  rw [unit, hk, zpow_add₀ f.base_pos.ne', zpow_natCast]
  push_cast
  rfl

/-- A multiple of a power of the base that is not below the last digit is a number of the format. -/
theorem represents_of_mul {n k : Int} (hx : x = n * (f.base : ℚ) ^ k) (h : f.last (Int.log f.base |x|) ≤ k) :
    f.Represents x := by
  obtain ⟨m, hm⟩ := exists_mul_unit h
  refine ⟨n * m, ?_⟩
  push_cast
  rw [mul_assoc, ← hm, hx]

theorem log_le_of_lt {k : Int} (hk : 0 < k) (h : |x| < (f.base : ℚ) ^ k) : Int.log f.base |x| ≤ k - 1 := by
  by_cases hzero : x = 0
  · simp only [hzero, abs_zero, Int.log_zero_right]
    omega
  · have hlt := (Int.lt_zpow_iff_log_lt f.one_lt (abs_pos.mpr hzero)).mp h
    omega

theorem unit_le {k : Int} (hk : 0 < k) (h : |x| < (f.base : ℚ) ^ k) : f.unit x ≤ (f.base : ℚ) ^ f.last (k - 1) :=
  zpow_le_zpow_right₀ f.one_lt_base.le (f.last_mono (log_le_of_lt hk h))

/-- An integer with no more digits than the format has is one of its numbers. -/
theorem represents_intCast {n k : Int} (hk : 0 < k) (h : |(n : ℚ)| < (f.base : ℚ) ^ k) (hlast : f.last (k - 1) ≤ 0) :
    f.Represents n := by
  apply represents_of_mul (n := n) (k := 0)
  · simp
  · exact (f.last_mono (log_le_of_lt hk h)).trans hlast

theorem le_round_of_mul {n : Int} (h : n * f.unit x ≤ x) : n * f.unit x ≤ f.round x := by
  have hn : n ≤ roundHalfEven (x / f.unit x) := by
    rw [← roundHalfEven_intCast n]
    exact roundHalfEven_mono ((le_div_iff₀ (f.unit_pos x)).mpr h)
  exact mul_le_mul_of_nonneg_right (by exact_mod_cast hn) (f.unit_pos x).le

theorem round_le_of_mul {n : Int} (h : x ≤ n * f.unit x) : f.round x ≤ n * f.unit x := by
  have hn : roundHalfEven (x / f.unit x) ≤ n := by
    rw [← roundHalfEven_intCast n]
    exact roundHalfEven_mono ((div_le_iff₀ (f.unit_pos x)).mpr h)
  exact mul_le_mul_of_nonneg_right (by exact_mod_cast hn) (f.unit_pos x).le

theorem round_mono_of_pos (hx : 0 < x) (h : x ≤ y) : f.round x ≤ f.round y := by
  have hy : 0 < y := hx.trans_le h
  have hlog : Int.log f.base |x| ≤ Int.log f.base |y| := by
    rw [abs_of_pos hx, abs_of_pos hy]
    exact Int.log_mono_right hx h
  rcases (f.last_mono hlog).eq_or_lt with heq | hlt
  · -- one unit for both
    have hunit : f.unit x = f.unit y := by
      rw [unit, heq, unit]
    have hround := roundHalfEven_mono (div_le_div_of_nonneg_right h (f.unit_pos y).le)
    rw [round, round, hunit]
    exact mul_le_mul_of_nonneg_right (by exact_mod_cast hround) (f.unit_pos y).le
  · -- the power of the base at the first digit of `y` lies between them
    have hexp : Int.log f.base |x| + 1 ≤ Int.log f.base |y| := by
      rcases hlog.lt_or_eq with hl | he
      · exact hl
      · rw [he] at hlt
        exact absurd hlt (lt_irrefl _)
    have hlast : f.last (Int.log f.base |y|) ≤ Int.log f.base |y| := by
      rcases f.valid (Int.log f.base |y|) with hle | hall
      · exact hle
      · exact absurd (hall _ hlog) hlt.ne
    obtain ⟨n, hn⟩ := exists_mul_unit (x := x) (hlt.le.trans hlast)
    obtain ⟨m, hm⟩ := exists_mul_unit (x := y) hlast
    have hbelow : x ≤ n * f.unit x := by
      rw [← hn]
      have hsucc := Int.lt_zpow_succ_log_self f.one_lt x
      rw [abs_of_pos hx] at hexp
      exact hsucc.le.trans (zpow_le_zpow_right₀ f.one_lt_base.le hexp)
    have habove : m * f.unit y ≤ y := by
      rw [← hm, abs_of_pos hy]
      exact Int.zpow_log_le_self f.one_lt hy
    calc f.round x ≤ n * f.unit x := round_le_of_mul hbelow
      _ = m * f.unit y := by rw [← hn, hm]
      _ ≤ f.round y := le_round_of_mul habove

/-- Rounding keeps the order. -/
theorem round_mono (f : FloatFormat) : Monotone f.round := by
  intro x y h
  rcases lt_trichotomy 0 x with hx | rfl | hx
  · exact round_mono_of_pos hx h
  · rw [round_zero]
    exact round_nonneg h
  · rcases le_or_gt 0 y with hy | hy
    · have hneg : f.round x ≤ 0 := by
        have hpos := round_nonneg (f := f) (neg_nonneg.mpr hx.le)
        rw [round_neg] at hpos
        linarith
      exact hneg.trans (round_nonneg hy)
    · have hflip := round_mono_of_pos (f := f) (neg_pos.mpr hy) (neg_le_neg h)
      rw [round_neg, round_neg] at hflip
      linarith

@[simp] theorem represents_zero (f : FloatFormat) : f.Represents 0 := ⟨0, by simp⟩

theorem Represents.neg (h : f.Represents x) : f.Represents (-x) := by
  obtain ⟨n, hn⟩ := h
  refine ⟨-n, ?_⟩
  rw [unit_neg, Int.cast_neg, neg_mul, ← hn]

theorem represents_round_of_pos (hx : 0 < x) : f.Represents (f.round x) := by
  rcases (round_nonneg (f := f) hx.le).eq_or_lt with hzero | hpos
  · rw [← hzero]
    exact f.represents_zero
  have hlt : x < (f.base : ℚ) ^ (Int.log f.base |x| + 1) := by
    rw [abs_of_pos hx]
    exact Int.lt_zpow_succ_log_self f.one_lt x
  rcases le_or_gt (f.last (Int.log f.base |x|)) (Int.log f.base |x| + 1) with hlast | hlast
  · obtain ⟨n, hn⟩ := exists_mul_unit hlast
    have hround : f.round x ≤ (f.base : ℚ) ^ (Int.log f.base |x| + 1) := by
      rw [hn]
      exact round_le_of_mul (hn ▸ hlt.le)
    rcases le_or_gt (Int.log f.base |f.round x|) (Int.log f.base |x|) with hlog | hlog
    · exact represents_of_mul rfl (f.last_mono hlog)
    · -- rounded up to the next power of the base
      have hpower : f.round x = (1 : Int) * (f.base : ℚ) ^ (Int.log f.base |x| + 1) := by
        rw [Int.cast_one, one_mul]
        refine le_antisymm hround ?_
        have hle := (Int.zpow_le_iff_le_log f.one_lt (abs_pos.mpr hpos.ne')).mpr (show _ ≤ _ from hlog)
        rwa [abs_of_pos hpos] at hle
      have hexp : Int.log f.base |f.round x| = Int.log f.base |x| + 1 := by
        rw [abs_of_pos hpos, hpower, Int.cast_one, one_mul, Int.log_zpow f.one_lt]
      rcases f.valid (Int.log f.base |x| + 1) with hle | hall
      · exact represents_of_mul hpower (hexp ▸ hle)
      · refine represents_of_mul (n := roundHalfEven (x / f.unit x)) (k := f.last (Int.log f.base |x|)) rfl ?_
        rw [hexp, hall _ (Int.le_add_one (le_refl _))]
  · -- less than half of the last digit
    have hhalf : |x / f.unit x - (0 : Int)| < 1 / 2 := by
      rw [Int.cast_zero, sub_zero, abs_of_pos (div_pos hx (f.unit_pos x)), div_lt_iff₀ (f.unit_pos x)]
      have hstep : (f.base : ℚ) ^ (Int.log f.base |x| + 1) * f.base ≤ f.unit x := by
        rw [← zpow_add_one₀ f.base_pos.ne']
        exact zpow_le_zpow_right₀ f.one_lt_base.le hlast
      have htwo : (2 : ℚ) ≤ f.base := by exact_mod_cast f.one_lt
      have hpower : (0 : ℚ) < (f.base : ℚ) ^ (Int.log f.base |x| + 1) := zpow_pos f.base_pos _
      nlinarith
    rw [round, roundHalfEven_eq hhalf, Int.cast_zero, zero_mul]
    exact f.represents_zero

/-- A rounded number is one of the format. -/
theorem represents_round (f : FloatFormat) (x : ℚ) : f.Represents (f.round x) := by
  rcases lt_trichotomy 0 x with hx | rfl | hx
  · exact represents_round_of_pos hx
  · simp
  · have hneg := (represents_round_of_pos (f := f) (neg_pos.mpr hx)).neg
    rwa [round_neg, neg_neg] at hneg

/-! ## A number of digits -/

/-- Numbers of `digits` digits in a base. -/
def ofDigits (base : ℕ) (one_lt : 1 < base) (digits : ℕ) (pos : 0 < digits) : FloatFormat where
  base := base
  one_lt := one_lt
  last e := e + 1 - digits
  last_mono _ _ h := by omega
  valid e := by
    left
    omega

/-- Numbers of `digits` digits, none of them below the exponent `least`. -/
def ofDigitsFrom (base : ℕ) (one_lt : 1 < base) (digits : ℕ) (pos : 0 < digits) (least : Int) : FloatFormat where
  base := base
  one_lt := one_lt
  last e := max (e + 1 - digits) least
  last_mono _ _ h := by omega
  valid e := by
    rcases le_total least (e + 1 - digits) with hle | hle
    · left
      omega
    · right
      intro e' he
      omega

/-- The double precision of IEEE 754, without the greatest exponent. -/
def binary64 : FloatFormat := ofDigitsFrom 2 (by decide) 53 (by decide) (-1074)

/-- What the format `g` of C prints: six significant digits. -/
def general : FloatFormat := ofDigits 10 (by decide) 6 (by decide)

end FloatFormat

/-! ## Floats -/

namespace ExtRat

/-- The float next to a number: beyond the greatest exponent it is infinite. -/
def ofRat (x : ℚ) : ExtRat :=
  if (2 : ℚ) ^ 1024 ≤ |FloatFormat.binary64.round x| then .inf (decide (x < 0))
  else .fin (FloatFormat.binary64.round x)

/-- The float that an operation returns for its exact result. -/
def toFloat : ExtRat → ExtRat
  | .fin q => ofRat q
  | a => a

/-- The sum of floats from the left, each partial sum a float. -/
def floatSum (xs : List ℚ) : ExtRat := xs.foldl (fun total x => (total + .fin x).toFloat) 0

example : floatSum ([15182 / 100, 18128 / 100, 8311 / 100, 8379 / 100].map FloatFormat.binary64.round) =
    .fin (500 + 1 / 2 ^ 44) := by decide +kernel

theorem ofRat_nonneg {x : ℚ} (h : 0 ≤ x) : AtLeast 0 (ofRat x) := by
  unfold ofRat
  split
  · simp [AtLeast, h]
  · exact FloatFormat.round_nonneg h

theorem toFloat_add_nonneg {a : ExtRat} {x : ℚ} (ha : AtLeast 0 a) (hx : 0 ≤ x) : AtLeast 0 (a + .fin x).toFloat := by
  cases a with
  | fin q => exact ofRat_nonneg (add_nonneg ha hx)
  | inf negative => exact ha
  | nan => exact ha.elim

theorem floatSum_nonneg {xs : List ℚ} (h : ∀ x ∈ xs, 0 ≤ x) : AtLeast 0 (floatSum xs) := by
  have hfold : ∀ a : ExtRat, AtLeast 0 a → AtLeast 0 (xs.foldl (fun total x => (total + .fin x).toFloat) a) := by
    induction xs with
    | nil => exact fun a ha => ha
    | cons x xs ih =>
        intro a ha
        exact ih (fun y hy => h y (List.mem_cons_of_mem _ hy)) _ (toFloat_add_nonneg ha (h x List.mem_cons_self))
  exact hfold 0 (le_refl 0)

end ExtRat
