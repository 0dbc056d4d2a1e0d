import Mathlib.Algebra.Order.BigOperators.Group.List
import Mathlib.Algebra.Order.Field.Rat
import Mathlib.Tactic.Linarith
import Mathlib.Tactic.Positivity

/-!
# Rationals with infinities and NaN

The arithmetic of floating point without rounding and without a negative zero: a division by zero gives an infinity,
or NaN where the dividend is zero too.
-/

inductive ExtRat where
  | fin (q : ℚ)
  | inf (negative : Bool)
  | nan
deriving DecidableEq

namespace ExtRat

def add : ExtRat → ExtRat → ExtRat
  | .fin p, .fin q => .fin (p + q)
  | .inf s, .inf t => if s = t then .inf s else .nan
  | .inf s, .fin _ => .inf s
  | .fin _, .inf s => .inf s
  | .nan, _ => .nan
  | _, .nan => .nan

def neg : ExtRat → ExtRat
  | .fin q => .fin (-q)
  | .inf s => .inf !s
  | .nan => .nan

/-- A number other than zero times an infinity. -/
def scaleInf (q : ℚ) (negative : Bool) : ExtRat := if q = 0 then .nan else .inf (negative != decide (q < 0))

def mul : ExtRat → ExtRat → ExtRat
  | .fin p, .fin q => .fin (p * q)
  | .inf s, .inf t => .inf (s != t)
  | .inf s, .fin q => scaleInf q s
  | .fin q, .inf s => scaleInf q s
  | .nan, _ => .nan
  | _, .nan => .nan

def div : ExtRat → ExtRat → ExtRat
  | .fin p, .fin q => if q = 0 then scaleInf p false else .fin (p / q)
  | .inf s, .fin q => .inf (s != decide (q < 0))
  | .fin _, .inf _ => .fin 0
  | .inf _, .inf _ => .nan
  | .nan, _ => .nan
  | _, .nan => .nan

instance : Add ExtRat := ⟨add⟩

instance : Sub ExtRat := ⟨fun a b => add a (neg b)⟩

instance : Mul ExtRat := ⟨mul⟩

instance : Div ExtRat := ⟨div⟩

instance : Zero ExtRat := ⟨.fin 0⟩

instance : One ExtRat := ⟨.fin 1⟩

/-- `a ≤ bound` -/
def AtMost (bound : ℚ) : ExtRat → Prop
  | .fin q => q ≤ bound
  | .inf negative => negative = true
  | .nan => False

/-- `bound ≤ a` -/
def AtLeast (bound : ℚ) : ExtRat → Prop
  | .fin q => bound ≤ q
  | .inf negative => negative = false
  | .nan => False

instance (bound : ℚ) : DecidablePred (AtMost bound)
  | .fin q => inferInstanceAs (Decidable (q ≤ bound))
  | .inf negative => inferInstanceAs (Decidable (negative = true))
  | .nan => .isFalse id

instance (bound : ℚ) : DecidablePred (AtLeast bound)
  | .fin q => inferInstanceAs (Decidable (bound ≤ q))
  | .inf negative => inferInstanceAs (Decidable (negative = false))
  | .nan => .isFalse id

/-- The greater of the two; NaN stays. -/
def clipMin (low : ℚ) : ExtRat → ExtRat
  | .fin q => .fin (max low q)
  | .inf true => .fin low
  | .inf false => .inf false
  | .nan => .nan

/-- The mean of the values that are not NaN; of none it is NaN. -/
def mean (xs : List ExtRat) : ExtRat :=
  let ys := xs.filter (· ≠ .nan)
  ys.sum / .fin ys.length

variable {p q : ℚ}

@[simp] theorem zero_eq : (0 : ExtRat) = .fin 0 := rfl

@[simp] theorem one_eq : (1 : ExtRat) = .fin 1 := rfl

@[simp] theorem fin_add (p q : ℚ) : fin p + fin q = fin (p + q) := rfl

/-- Numbers are added one after the other or together. -/
theorem add_fin_fin (a : ExtRat) (p q : ℚ) : a + fin p + fin q = a + fin (p + q) := by
  cases a with
  | fin r => simp [add_assoc]
  | inf s => rfl
  | nan => rfl

theorem add_fin_zero (a : ExtRat) : a + fin 0 = a := by
  cases a with
  | fin r => simp
  | inf s => rfl
  | nan => rfl

@[simp] theorem fin_sub (p q : ℚ) : fin p - fin q = fin (p - q) := by
  rw [sub_eq_add_neg]
  rfl

@[simp] theorem fin_mul (p q : ℚ) : fin p * fin q = fin (p * q) := rfl

theorem fin_div (p : ℚ) (hq : q ≠ 0) : fin p / fin q = fin (p / q) := if_neg hq

/-- A positive number over zero. -/
theorem fin_div_zero (hp : 0 < p) : fin p / fin 0 = inf false := by
  change scaleInf p false = _
  simp [scaleInf, hp.ne', hp.le]

@[simp] theorem zero_div_zero : fin 0 / fin 0 = nan := rfl

@[simp] theorem div_nan (a : ExtRat) : a / nan = nan := by cases a <;> rfl

@[simp] theorem nan_mul (a : ExtRat) : nan * a = nan := rfl

@[simp] theorem inf_sub_fin (s : Bool) (q : ℚ) : inf s - fin q = inf s := rfl

@[simp] theorem fin_add_inf (q : ℚ) (s : Bool) : fin q + inf s = inf s := rfl

theorem fin_mul_inf (hq : 0 < q) (s : Bool) : fin q * inf s = inf s := by
  change scaleInf q s = _
  simp [scaleInf, hq.ne', not_lt.mpr hq.le]

@[simp] theorem zero_mul_inf (s : Bool) : fin 0 * inf s = nan := rfl

@[simp] theorem atMost_fin {bound q : ℚ} : AtMost bound (.fin q) ↔ q ≤ bound := Iff.rfl

@[simp] theorem atLeast_fin {bound q : ℚ} : AtLeast bound (.fin q) ↔ bound ≤ q := Iff.rfl

/-- No value is both low and high. -/
theorem le_of_atMost_atLeast {low high : ℚ} {a : ExtRat} (hlow : AtMost low a) (hhigh : AtLeast high a) :
    high ≤ low := by
  cases a with
  | fin q => exact le_trans hhigh hlow
  | inf negative => exact absurd (hlow.symm.trans hhigh) (by decide)
  | nan => exact hlow.elim

@[simp] theorem clipMin_fin (low q : ℚ) : clipMin low (.fin q) = .fin (max low q) := rfl

@[simp] theorem clipMin_nan (low : ℚ) : clipMin low .nan = .nan := rfl

theorem sum_fin (xs : List ℚ) : (xs.map fin).sum = fin xs.sum := by
  induction xs with
  | nil => rfl
  | cons x xs ih => rw [List.map_cons, List.sum_cons, ih, fin_add, List.sum_cons]

theorem mean_fin {xs : List ℚ} (h : xs ≠ []) : mean (xs.map fin) = fin (xs.sum / xs.length) := by
  have hfilter : (xs.map fin).filter (· ≠ .nan) = xs.map fin := by
    apply List.filter_eq_self.mpr
    intro a ha
    obtain ⟨q, -, rfl⟩ := List.mem_map.mp ha
    simp
  have hlen : (xs.length : ℚ) ≠ 0 := by simpa using h
  simp only [mean, hfilter, sum_fin, List.length_map, fin_div _ hlen]

end ExtRat

/-! ## Means of nonnegative numbers -/

namespace ExtRat

theorem sum_pos_iff {xs : List ℚ} (h : ∀ x ∈ xs, 0 ≤ x) : 0 < xs.sum ↔ ∃ x ∈ xs, 0 < x := by
  constructor
  · intro hsum
    by_contra hnone
    have hzero : xs.sum = 0 := by
      apply List.sum_eq_zero
      intro x hx
      exact le_antisymm (not_lt.mp fun hpos => hnone ⟨x, hx, hpos⟩) (h x hx)
    linarith
  · rintro ⟨x, hx, hpos⟩
    exact lt_of_lt_of_le hpos (List.single_le_sum h x hx)

theorem mean_nonneg {xs : List ℚ} (h : ∀ x ∈ xs, 0 ≤ x) : 0 ≤ xs.sum / xs.length :=
  div_nonneg (List.sum_nonneg h) (Nat.cast_nonneg _)

theorem mean_pos_iff {xs : List ℚ} (h : ∀ x ∈ xs, 0 ≤ x) : 0 < xs.sum / xs.length ↔ ∃ x ∈ xs, 0 < x := by
  rw [← sum_pos_iff h]
  constructor
  · intro hmean
    by_contra hsum
    have hzero : xs.sum = 0 := le_antisymm (not_lt.mp hsum) (List.sum_nonneg h)
    rw [hzero, zero_div] at hmean
    exact lt_irrefl _ hmean
  · intro hsum
    have hne : xs ≠ [] := by
      rintro rfl
      simp at hsum
    have hlen : (0 : ℚ) < xs.length := by exact_mod_cast List.length_pos_iff.mpr hne
    exact div_pos hsum hlen

end ExtRat
