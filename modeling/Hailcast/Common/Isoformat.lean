import Hailcast.Common.Json

/-!
# The order of ISO texts

In the range of `datetime` the texts of aware times are in the order of the times.
-/

namespace Hailcast

/-! ## Digits of a fixed width -/

def decimals : Nat → Nat → List Char
  | 0, _ => []
  | width + 1, n => decimals width (n / 10) ++ [Nat.digitChar (n % 10)]

theorem length_decimals (width n : Nat) : (decimals width n).length = width := by
  induction width generalizing n with
  | zero => rfl
  | succ width ih => simp [decimals, ih]

theorem decimals_zero (width : Nat) : decimals width 0 = List.replicate width '0' := by
  induction width with
  | zero => rfl
  | succ width ih => simp [decimals, ih, List.replicate_succ', Nat.digitChar]

theorem padded_toDigits {width n : Nat} (h : n < 10 ^ width) (hw : 0 < width) :
    List.replicate (width - (Nat.toDigits 10 n).length) '0' ++ Nat.toDigits 10 n = decimals width n := by
  induction width generalizing n with
  | zero => cases hw
  | succ width ih =>
      rcases Nat.lt_or_ge n 10 with hn | hn
      · simp [Nat.toDigits_of_lt_base hn, decimals, Nat.div_eq_of_lt hn, Nat.mod_eq_of_lt hn, decimals_zero]
      · have hdiv : n / 10 < 10 ^ width := by
          rw [Nat.pow_succ] at h
          omega
        have hpos : 0 < width := by
          rcases Nat.eq_zero_or_pos width with rfl | hpos
          · simp at hdiv
            omega
          · exact hpos
        rw [Nat.toDigits_of_base_le (by decide) hn, List.length_append, List.length_singleton,
          Nat.add_sub_add_right, ← List.append_assoc, ih hdiv hpos]
        rfl

theorem toList_padded {width : Nat} {n : Int} (hn : 0 ≤ n) (h : n < 10 ^ width) (hw : 0 < width) :
    (padded width n).toList = decimals width n.toNat := by
  obtain ⟨n, rfl⟩ := Int.eq_ofNat_of_zero_le hn
  have hn' : n < 10 ^ width := by exact_mod_cast h
  have hdigits : (toString (n : Int)).toList = Nat.toDigits 10 n := Nat.toList_repr
  rw [padded, String.toList_append, String.toList_ofList, ← String.length_toList, hdigits]
  exact padded_toDigits hn' hw

/-- Blocks of one length decide before what follows them. -/
theorem lt_of_block {a b c d : List Char} (hlen : a.length = b.length) (h : a < b ∨ a = b ∧ c < d) :
    a ++ c < b ++ d := by
  rcases h with h | ⟨rfl, h⟩
  · induction a generalizing b with
    | nil =>
        obtain rfl := List.eq_nil_of_length_eq_zero hlen.symm
        exact absurd h (List.lt_irrefl _)
    | cons x a ih =>
        cases b with
        | nil => cases hlen
        | cons y b =>
            refine List.cons_lt_cons_iff.mpr ?_
            rcases List.cons_lt_cons_iff.mp h with hlt | ⟨heq, hlt⟩
            · exact Or.inl hlt
            · exact Or.inr ⟨heq, ih (Nat.succ.inj hlen) hlt⟩
  · exact List.append_left_lt h

theorem decimals_lt {width n m : Nat} (h : n < m) (hm : m < 10 ^ width) : decimals width n < decimals width m := by
  induction width generalizing n m with
  | zero => simp at hm; omega
  | succ width ih =>
      have hdiv : m / 10 < 10 ^ width := by
        rw [Nat.pow_succ] at hm
        omega
      refine lt_of_block (by simp [length_decimals]) ?_
      rcases Nat.lt_or_eq_of_le (Nat.div_le_div_right h.le : n / 10 ≤ m / 10) with hlt | heq
      · exact Or.inl (ih hlt hdiv)
      · refine Or.inr ⟨by rw [heq], ?_⟩
        have hdigit : ∀ i < 10, ∀ j < 10, i < j → [Nat.digitChar i] < [Nat.digitChar j] := by decide
        exact hdigit _ (Nat.mod_lt _ (by decide)) _ (Nat.mod_lt _ (by decide)) (by omega)

theorem padded_lt {width : Nat} {n m : Int} (hn : 0 ≤ n) (h : n < m) (hm : m < 10 ^ width) (hw : 0 < width) :
    (padded width n).toList < (padded width m).toList := by
  rw [toList_padded hn (h.trans hm) hw, toList_padded (hn.trans h.le) hm hw]
  refine decimals_lt (by omega) ?_
  have hm' : (m.toNat : Int) < 10 ^ width := by rwa [Int.toNat_of_nonneg (hn.trans h.le)]
  exact_mod_cast hm'

theorem length_padded {width : Nat} {n : Int} (hn : 0 ≤ n) (h : n < 10 ^ width) (hw : 0 < width) :
    (padded width n).toList.length = width := by
  rw [toList_padded hn h hw, length_decimals]

theorem lt_of_field {width : Nat} {n m : Int} {c d : List Char} (hw : 0 < width) (hn : 0 ≤ n) (hn' : n < 10 ^ width)
    (hm : 0 ≤ m) (hm' : m < 10 ^ width) (h : n < m ∨ n = m ∧ c < d) :
    (padded width n).toList ++ c < (padded width m).toList ++ d := by
  refine lt_of_block (by rw [length_padded hn hn' hw, length_padded hm hm' hw]) ?_
  rcases h with h | ⟨rfl, h⟩
  · exact Or.inl (padded_lt hn h hm' hw)
  · exact Or.inr ⟨rfl, h⟩

/-- A padded field and its separator; what follows decides only between equal fields. -/
theorem lt_of_field_sep {width : Nat} {n m : Int} {sep : Char} {c d : List Char} (hw : 0 < width) (hn : 0 ≤ n)
    (hle : n ≤ m) (hm : m < 10 ^ width) (h : n = m → c < d) :
    (padded width n).toList ++ sep :: c < (padded width m).toList ++ sep :: d := by
  refine lt_of_field hw hn (hle.trans_lt hm) (hn.trans hle) hm ?_
  rcases lt_or_eq_of_le hle with hlt | heq
  · exact Or.inl hlt
  · exact Or.inr ⟨heq, List.cons_lt_cons_iff.mpr (Or.inr ⟨rfl, h heq⟩)⟩

/-! ## The calendar -/

/-- The days of the calendar that starts in March: the year in its era, and the day in its year. -/
def yearOfEra (dayOfEra : Int) : Int :=
  (dayOfEra - dayOfEra / 1460 + dayOfEra / 36524 - dayOfEra / 146096) / 365

def dayOfYear (dayOfEra : Int) : Int :=
  dayOfEra - (365 * yearOfEra dayOfEra + yearOfEra dayOfEra / 4 - yearOfEra dayOfEra / 100)

theorem era_bounds {dayOfEra : Int} (h₀ : 0 ≤ dayOfEra) (h₁ : dayOfEra ≤ 146096) :
    0 ≤ yearOfEra dayOfEra ∧ yearOfEra dayOfEra ≤ 399 ∧ 0 ≤ dayOfYear dayOfEra ∧ dayOfYear dayOfEra ≤ 365 := by
  generalize hy : yearOfEra dayOfEra = year
  generalize hd : dayOfYear dayOfEra = day
  simp only [dayOfYear, hy] at hd
  unfold yearOfEra at hy
  -- the century, and the year in its four years
  have hcentury : dayOfEra / 36524 = 0 ∨ dayOfEra / 36524 = 1 ∨ dayOfEra / 36524 = 2 ∨ dayOfEra / 36524 = 3 ∨
      dayOfEra / 36524 = 4 := by omega
  have hyear : year = 4 * (dayOfEra / 1460) - 1 ∨ year = 4 * (dayOfEra / 1460) ∨ year = 4 * (dayOfEra / 1460) + 1 ∨
      year = 4 * (dayOfEra / 1460) + 2 ∨ year = 4 * (dayOfEra / 1460) + 3 := by omega
  refine ⟨by omega, by omega, ?_⟩
  rcases hcentury with hc | hc | hc | hc | hc <;> rcases hyear with hy' | hy' | hy' | hy' | hy' <;> omega

theorem yearOfEra_mono {dayOfEra dayOfEra' : Int} (h₀ : 0 ≤ dayOfEra) (h₁ : dayOfEra' ≤ 146096)
    (h : dayOfEra < dayOfEra') : yearOfEra dayOfEra ≤ yearOfEra dayOfEra' := by
  unfold yearOfEra
  omega

def marchYear (day : Int) : Int := yearOfEra ((day + 719468) % 146097) + (day + 719468) / 146097 * 400

def marchDay (day : Int) : Int := dayOfYear ((day + 719468) % 146097)

/-- The year, month and day that begin in January. -/
def fromMarch (year day : Int) : Int × Int × Int :=
  let month := (5 * day + 2) / 153
  (if month < 10 then year else year + 1, if month < 10 then month + 3 else month - 9, day - (153 * month + 2) / 5 + 1)

theorem civilFromDays_eq (day : Int) : civilFromDays day = fromMarch (marchYear day) (marchDay day) := rfl

theorem marchDay_bounds (day : Int) : 0 ≤ marchDay day ∧ marchDay day ≤ 365 := by
  have hr : 0 ≤ (day + 719468) % 146097 ∧ (day + 719468) % 146097 ≤ 146096 := by omega
  exact (era_bounds hr.1 hr.2).2.2

theorem march_lt {day day' : Int} (h : day < day') :
    marchYear day < marchYear day' ∨ marchYear day = marchYear day' ∧ marchDay day < marchDay day' := by
  have hr : 0 ≤ (day + 719468) % 146097 ∧ (day + 719468) % 146097 ≤ 146096 := by omega
  have hr' : 0 ≤ (day' + 719468) % 146097 ∧ (day' + 719468) % 146097 ≤ 146096 := by omega
  have hb := era_bounds hr.1 hr.2
  have hb' := era_bounds hr'.1 hr'.2
  unfold marchYear marchDay
  rcases lt_or_ge ((day + 719468) / 146097) ((day' + 719468) / 146097) with hera | hera
  · exact Or.inl (by omega)
  · have hsame : (day + 719468) / 146097 = (day' + 719468) / 146097 := by omega
    have hlt : (day + 719468) % 146097 < (day' + 719468) % 146097 := by omega
    rcases lt_or_eq_of_le (yearOfEra_mono hr.1 hr'.2 hlt) with hyear | hyear
    · exact Or.inl (by omega)
    · refine Or.inr ⟨by rw [hyear, hsame], ?_⟩
      unfold dayOfYear
      rw [hyear]
      omega

/-- A month and a day that can be written with two digits. -/
theorem civilFromDays_bounds (day : Int) :
    (1 ≤ (civilFromDays day).2.1 ∧ (civilFromDays day).2.1 ≤ 12) ∧
      1 ≤ (civilFromDays day).2.2 ∧ (civilFromDays day).2.2 ≤ 31 := by
  have hd := marchDay_bounds day
  rw [civilFromDays_eq]
  generalize marchDay day = d at *
  simp only [fromMarch]
  split <;> omega

theorem civilFromDays_lt {day day' : Int} (h : day < day') :
    (civilFromDays day).1 < (civilFromDays day').1 ∨
      (civilFromDays day).1 = (civilFromDays day').1 ∧
        ((civilFromDays day).2.1 < (civilFromDays day').2.1 ∨
          (civilFromDays day).2.1 = (civilFromDays day').2.1 ∧ (civilFromDays day).2.2 < (civilFromDays day').2.2) := by
  have hlt := march_lt h
  have hd := marchDay_bounds day
  have hd' := marchDay_bounds day'
  rw [civilFromDays_eq, civilFromDays_eq]
  generalize marchDay day = d, marchDay day' = d', marchYear day = y, marchYear day' = y' at *
  simp only [fromMarch]
  split <;> split <;> omega

/-! ## Texts -/

/-- From the first to the last day of `date`. -/
def DateRange (day : Int) : Prop := -719162 ≤ day ∧ day ≤ 2932896

/-- From the first to the last microsecond of `datetime`. -/
def DatetimeRange (t : Int) : Prop := DateRange (t / dayMicros)

theorem year_range {day : Int} (h : DateRange day) : 0 ≤ (civilFromDays day).1 ∧ (civilFromDays day).1 < 10 ^ 4 := by
  have hfirst : civilFromDays (-719162) = (1, 1, 1) := rfl
  have hlast : civilFromDays 2932896 = (9999, 12, 31) := rfl
  obtain ⟨hlow, hhigh⟩ := h
  constructor
  · rcases lt_or_eq_of_le hlow with hlt | rfl
    · have := civilFromDays_lt hlt
      rw [hfirst] at this
      omega
    · decide
  · rcases lt_or_eq_of_le hhigh with hlt | rfl
    · have := civilFromDays_lt hlt
      rw [hlast] at this
      omega
    · decide

theorem toList_dateText (day : Int) :
    (dateText day).toList = (padded 4 (civilFromDays day).1).toList ++ ('-' ::
      ((padded 2 (civilFromDays day).2.1).toList ++ ('-' :: ((padded 2 (civilFromDays day).2.2).toList ++ [])))) := by
  simp [dateText]

theorem dateText_lt {day day' : Int} (hr : DateRange day) (hr' : DateRange day') (h : day < day') :
    (dateText day).toList < (dateText day').toList := by
  obtain ⟨hm, hd⟩ := civilFromDays_bounds day
  obtain ⟨hm', hd'⟩ := civilFromDays_bounds day'
  obtain ⟨hy, hy₁⟩ := year_range hr
  obtain ⟨hy', hy₁'⟩ := year_range hr'
  have hlt := civilFromDays_lt h
  rw [toList_dateText, toList_dateText]
  refine lt_of_field_sep (by decide) hy (by omega) hy₁' fun hyear => ?_
  refine lt_of_field_sep (by decide) (by omega) (by omega) (by omega) fun hmonth => ?_
  have hday : (civilFromDays day).2.2 < (civilFromDays day').2.2 := by omega
  exact lt_of_field (by decide) (by omega) (by omega) (by omega) (by omega) (Or.inl hday)

theorem length_dateText {day : Int} (h : DateRange day) : (dateText day).toList.length = 10 := by
  obtain ⟨hm, hd⟩ := civilFromDays_bounds day
  obtain ⟨hy, hy'⟩ := year_range h
  rw [toList_dateText]
  simp only [List.length_append, List.length_cons, List.length_nil]
  rw [length_padded hy hy' (by decide), length_padded (by omega) (by omega) (by decide),
    length_padded (by omega) (by omega) (by decide)]

/-- The text of an aware time; a whole second has no fraction. -/
theorem toList_render_aware (t : Int) :
    (Str.aware t).render.toList = (dateText (t / dayMicros)).toList ++ ('T' ::
      ((padded 2 (t % dayMicros / hourMicros)).toList ++ (':' ::
        ((padded 2 (t % dayMicros / 60000000 % 60)).toList ++ (':' ::
          ((padded 2 (t % dayMicros / 1000000 % 60)).toList ++
            (if t % dayMicros % 1000000 = 0 then "+00:00".toList
              else '.' :: ((padded 6 (t % dayMicros % 1000000)).toList ++ "+00:00".toList)))))))) := by
  simp only [Str.render, wallText]
  split <;> simp

/-- In the range of `datetime` the texts of aware times are in the order of the times. -/
theorem render_aware_lt {t t' : Int} (hr : DatetimeRange t) (hr' : DatetimeRange t') (h : t < t') :
    (Str.aware t).render < (Str.aware t').render := by
  rw [String.lt_iff, toList_render_aware, toList_render_aware]
  refine lt_of_block (by rw [length_dateText hr, length_dateText hr']) ?_
  rcases lt_or_eq_of_le (Int.ediv_le_ediv (by decide) h.le : t / dayMicros ≤ t' / dayMicros) with hlt | hday
  · exact Or.inl (dateText_lt hr hr' hlt)
  · refine Or.inr ⟨by rw [hday], List.cons_lt_cons_iff.mpr (Or.inr ⟨rfl, ?_⟩)⟩
    have hmicros : t % dayMicros < t' % dayMicros := by
      have hdiv := Int.mul_ediv_add_emod t dayMicros
      have hdiv' := Int.mul_ediv_add_emod t' dayMicros
      rw [hday] at hdiv
      omega
    have hlow : 0 ≤ t % dayMicros := Int.emod_nonneg _ (by decide)
    have hhigh : t' % dayMicros < 86400000000 := Int.emod_lt_of_pos _ (by decide)
    generalize t % dayMicros = m, t' % dayMicros = m' at *
    simp only [hourMicros]
    -- hour, minute and second
    refine lt_of_field_sep (by decide) (by omega) (by omega) (by omega) fun hhour => ?_
    refine lt_of_field_sep (by decide) (by omega) (by omega) (by omega) fun hminute => ?_
    have hsecond : m / 1000000 % 60 ≤ m' / 1000000 % 60 := by omega
    refine lt_of_field (by decide) (by omega) (by omega) (by omega) (by omega) ?_
    rcases lt_or_eq_of_le hsecond with hlt | heq
    · exact Or.inl hlt
    · refine Or.inr ⟨heq, ?_⟩
      have hfraction : m % 1000000 < m' % 1000000 := by omega
      rw [if_neg (show m' % 1000000 ≠ 0 by omega)]
      split
      · -- `+` comes before the point of a fraction
        exact List.cons_lt_cons_iff.mpr (Or.inl (by decide))
      · refine List.cons_lt_cons_iff.mpr (Or.inr ⟨rfl, ?_⟩)
        exact lt_of_field (by decide) (by omega) (by omega) (by omega) (by omega) (Or.inl hfraction)

end Hailcast
