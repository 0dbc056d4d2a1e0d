import Hailcast.Common.Isoformat

/-!
# Calendar times and their texts

The fields of a `datetime`, and what `fromisoformat`, `strftime` and `strptime` make of a text. Of a time with a
zone only the reading is kept.
-/

namespace Hailcast

def isLeap (year : Nat) : Bool := year % 4 = 0 ∧ (year % 100 ≠ 0 ∨ year % 400 = 0)

def daysInMonth (year month : Nat) : Nat :=
  if month = 2 then if isLeap year then 29 else 28
  else if month = 4 ∨ month = 6 ∨ month = 9 ∨ month = 11 then 30
  else 31

structure Datetime where
  year : Nat
  month : Nat
  day : Nat
  hour : Nat
  minute : Nat
  second : Nat
  microsecond : Nat
  year_mem : 1 ≤ year ∧ year ≤ 9999
  month_mem : 1 ≤ month ∧ month ≤ 12
  day_mem : 1 ≤ day ∧ day ≤ daysInMonth year month
  clock_lt : hour < 24 ∧ minute < 60 ∧ second < 60
  microsecond_lt : microsecond < 1000000
deriving DecidableEq

/-- `ymd2ord`: the number of the day, where 0001-01-01 is day 1. -/
def ymdToOrdinal (year month day : Nat) : Int :=
  let before : Int := year - 1
  before * 365 + before / 4 - before / 100 + before / 400 +
    ((List.range (month - 1)).map (fun i => daysInMonth year (i + 1))).sum + day

namespace Datetime

/-- A field out of its range is a `ValueError`. -/
def ofFields (year month day hour minute second microsecond : Nat) : Except PyError Datetime :=
  if h : (1 ≤ year ∧ year ≤ 9999) ∧ (1 ≤ month ∧ month ≤ 12) ∧ (1 ≤ day ∧ day ≤ daysInMonth year month) ∧
      (hour < 24 ∧ minute < 60 ∧ second < 60) ∧ microsecond < 1000000 then
    .ok ⟨year, month, day, hour, minute, second, microsecond, h.1, h.2.1, h.2.2.1, h.2.2.2.1, h.2.2.2.2⟩
  else .error .valueError

def toordinal (dt : Datetime) : Int := ymdToOrdinal dt.year dt.month dt.day

/-- Monday is 0. -/
def weekday (dt : Datetime) : Int := (dt.toordinal + 6) % 7

/-- The reading, as the microseconds since that of 1970-01-01. -/
def wall (dt : Datetime) : Int :=
  (dt.toordinal - 719163) * dayMicros + dt.hour * hourMicros + dt.minute * 60000000 + dt.second * 1000000 +
    dt.microsecond

def wholeSeconds (dt : Datetime) : Datetime := { dt with microsecond := 0, microsecond_lt := by decide }

end Datetime

/-! ## Reading digits -/

namespace DateText

def digitsValue (cs : List Char) : Nat := cs.foldl (fun n c => 10 * n + (c.toNat - '0'.toNat)) 0

def takeDigits (count : Nat) (cs : List Char) : Option (Nat × List Char) :=
  if (cs.take count).length = count ∧ (cs.take count).all Char.isDigit then
    some (digitsValue (cs.take count), cs.drop count)
  else none

def takeChar (c : Char) : List Char → Option (List Char)
  | x :: cs => if x = c then some cs else none
  | [] => none

/-- A separator that stands between all the fields or between none of them. -/
def takeSep (c : Char) (used : Bool) (cs : List Char) : Option (List Char) := if used then takeChar c cs else some cs

/-! ## fromisoformat -/

/-- Where the date ends: its separators and its digits tell which of the date formats it has. -/
def separatorIndex (cs : List Char) : Nat :=
  if cs.length = 7 then 7
  else if cs[4]? = some '-' then
    if cs[5]? = some 'W' then
      if cs[8]? = some '-' then if (cs[10]?).any Char.isDigit then 8 else 10
      else 8
    else 10
  else if cs[4]? = some 'W' then
    let last := 7 + ((cs.drop 7).takeWhile Char.isDigit).length
    if last < 9 then last else if last % 2 = 0 then 7 else 8
  else 8

def isoWeekToGregorian (year week day : Nat) : Option (Nat × Nat × Nat) :=
  let first := ymdToOrdinal year 1 1
  let long := first % 7 = 4 ∨ first % 7 = 3 ∧ isLeap year
  if (1 ≤ year ∧ year ≤ 9999) ∧ (1 ≤ week ∧ (week ≤ 52 ∨ week = 53 ∧ long)) ∧ 1 ≤ day ∧ day ≤ 7 then
    let firstWeekday := (first + 6) % 7
    let monday := first - firstWeekday + if 3 < firstWeekday then 7 else 0
    let (year, month, day) := civilFromDays (monday + (week - 1) * 7 + (day - 1) - 719163)
    some (year.toNat, month.toNat, day.toNat)
  else none

/-- `YYYY-MM-DD`, `YYYYMMDD`, `YYYY-Www`, `YYYYWww`, `YYYY-Www-D` and `YYYYWwwD` -/
def isoDate (cs : List Char) : Option (Nat × Nat × Nat) := do
  let (year, cs) ← takeDigits 4 cs
  let used := cs.head? = some '-'
  let cs ← takeSep '-' used cs
  match cs with
  | 'W' :: cs =>
      let (week, cs) ← takeDigits 2 cs
      if cs.isEmpty then isoWeekToGregorian year week 1
      else
        let cs ← takeSep '-' used cs
        let (day, _) ← takeDigits 1 cs
        isoWeekToGregorian year week day
  | cs =>
      let (month, cs) ← takeDigits 2 cs
      let cs ← takeSep '-' used cs
      let (day, _) ← takeDigits 2 cs
      return (year, month, day)

/-- `HH[:MM[:SS[.ffffff]]]`, also without the colons and with any number of digits after the point. -/
def isoClock (cs : List Char) : Option (Nat × Nat × Nat × Nat) := do
  let (hour, cs) ← takeDigits 2 cs
  if cs.isEmpty then return (hour, 0, 0, 0)
  let used := cs.head? = some ':'
  let cs ← takeSep ':' used cs
  let (minute, cs) ← takeDigits 2 cs
  if cs.isEmpty then return (hour, minute, 0, 0)
  let cs ← takeSep ':' used cs
  let (second, cs) ← takeDigits 2 cs
  match cs with
  | [] => return (hour, minute, second, 0)
  | point :: digits =>
      if (point = '.' ∨ point = ',') ∧ digits ≠ [] ∧ digits.all Char.isDigit then
        return (hour, minute, second, digitsValue ((digits ++ List.replicate 6 '0').take 6))
      else none

/-- What follows the date: a separator, which is any character, the clock and the zone, or nothing. -/
def isoTime : List Char → Option (Nat × Nat × Nat × Nat)
  | [] => some (0, 0, 0, 0)
  | _ :: cs => do
    let (clock, zone) := cs.span (fun c => c ≠ '+' ∧ c ≠ '-' ∧ c ≠ 'Z')
    let time ← isoClock clock
    match zone with
    | [] => return time
    | 'Z' :: rest => if rest.isEmpty then return time else none
    | _ :: offset =>
        let (hour, minute, second, _) ← isoClock offset
        -- an offset is less than a day
        if hour * 3600 + minute * 60 + second < 86400 then return time else none

end DateText

namespace Datetime

/-- `datetime.fromisoformat(s)` -/
def fromisoformat (s : String) : Except PyError Datetime :=
  let cs := s.toList
  let separator := DateText.separatorIndex cs
  match DateText.isoDate (cs.take separator), DateText.isoTime (cs.drop separator) with
  | some (year, month, day), some (hour, minute, second, microsecond) =>
      if 7 ≤ cs.length then ofFields year month day hour minute second microsecond else .error .valueError
  | _, _ => .error .valueError

/-- `dt.strftime("%Y-%m-%d %H:%M:%S")` -/
def strftime (dt : Datetime) : String :=
  padded 4 dt.year ++ "-" ++ padded 2 dt.month ++ "-" ++ padded 2 dt.day ++ " " ++ padded 2 dt.hour ++ ":" ++
    padded 2 dt.minute ++ ":" ++ padded 2 dt.second

end Datetime

/-! ## strptime -/

namespace DateText

/-- The zeros of the decimal digits of Unicode; the digits of a script follow each other. -/
def decimalZeros : List Nat :=
  [0x30, 0x660, 0x6F0, 0x7C0, 0x966, 0x9E6, 0xA66, 0xAE6, 0xB66, 0xBE6, 0xC66, 0xCE6, 0xD66, 0xDE6, 0xE50, 0xED0,
    0xF20, 0x1040, 0x1090, 0x17E0, 0x1810, 0x1946, 0x19D0, 0x1A80, 0x1A90, 0x1B50, 0x1BB0, 0x1C40, 0x1C50, 0xA620,
    0xA8D0, 0xA900, 0xA9D0, 0xA9F0, 0xAA50, 0xABF0, 0xFF10, 0x104A0, 0x10D30, 0x11066, 0x110F0, 0x11136, 0x111D0,
    0x112F0, 0x11450, 0x114D0, 0x11650, 0x116C0, 0x11730, 0x118E0, 0x11950, 0x11C50, 0x11D50, 0x11DA0, 0x11F50,
    0x16A60, 0x16AC0, 0x16B50, 0x1D7CE, 0x1D7D8, 0x1D7E2, 0x1D7EC, 0x1D7F6, 0x1E140, 0x1E2F0, 0x1E4F0, 0x1E950,
    0x1FBF0]

def decimal? (c : Char) : Option Nat :=
  (decimalZeros.find? (fun first => first ≤ c.toNat ∧ c.toNat < first + 10)).map (fun first => c.toNat - first)

/-- `\d` -/
def isDecimal (c : Char) : Bool := (decimal? c).isSome

/-- `\s` -/
def isBlank (c : Char) : Bool :=
  let n := c.toNat
  0x9 ≤ n ∧ n ≤ 0xD ∨ 0x1C ≤ n ∧ n ≤ 0x20 ∨ n ∈ [0x85, 0xA0, 0x1680] ∨ 0x2000 ≤ n ∧ n ≤ 0x200A ∨
    n ∈ [0x2028, 0x2029, 0x202F, 0x205F, 0x3000]

/-- `[low-high]` -/
def between (low high c : Char) : Bool := low ≤ c ∧ c ≤ high

/-- One character of each class. -/
def takeClasses : List (Char → Bool) → List Char → Option (List Char × List Char)
  | [], cs => some ([], cs)
  | admits :: classes, c :: cs => if admits c then (takeClasses classes cs).map (Prod.map (c :: ·) id) else none
  | _ :: _, [] => none

/-- `int(s)` of a matched field, which may begin with a blank. -/
def decimalsValue (cs : List Char) : Nat := (cs.filterMap decimal?).foldl (fun n d => 10 * n + d) 0

/-- The first of the alternatives that matches. After each field but the last stands a character that no field
admits, so that no later alternative would match the whole text. -/
def takeField (alternatives : List (List (Char → Bool))) (cs : List Char) : Option (Nat × List Char) :=
  (alternatives.findSome? (fun classes => takeClasses classes cs)).map (Prod.map decimalsValue id)

/-- `%Y` -/
def yearField : List (List (Char → Bool)) := [[isDecimal, isDecimal, isDecimal, isDecimal]]

/-- `%m`: `1[0-2]|0[1-9]|[1-9]` -/
def monthField : List (List (Char → Bool)) :=
  [[between '1' '1', between '0' '2'], [between '0' '0', between '1' '9'], [between '1' '9']]

/-- `%d`: `3[0-1]|[1-2]\d|0[1-9]|[1-9]| [1-9]` -/
def dayField : List (List (Char → Bool)) :=
  [[between '3' '3', between '0' '1'], [between '1' '2', isDecimal], [between '0' '0', between '1' '9'],
    [between '1' '9'], [between ' ' ' ', between '1' '9']]

/-- `%H`: `2[0-3]|[0-1]\d|\d` -/
def hourField : List (List (Char → Bool)) :=
  [[between '2' '2', between '0' '3'], [between '0' '1', isDecimal], [isDecimal]]

/-- `%M`: `[0-5]\d|\d` -/
def minuteField : List (List (Char → Bool)) := [[between '0' '5', isDecimal], [isDecimal]]

/-- `%S`: `6[0-1]|[0-5]\d|\d` -/
def secondField : List (List (Char → Bool)) :=
  [[between '6' '6', between '0' '1'], [between '0' '5', isDecimal], [isDecimal]]

/-- `\s+` -/
def takeBlanks : List Char → Option (List Char)
  | c :: cs => if isBlank c then some (cs.dropWhile isBlank) else none
  | [] => none

def fields (cs : List Char) : Option (Nat × Nat × Nat × Nat × Nat × Nat) := do
  let (year, cs) ← takeField yearField cs
  let (month, cs) ← takeField monthField (← takeChar '-' cs)
  let (day, cs) ← takeField dayField (← takeChar '-' cs)
  let (hour, cs) ← takeField hourField (← takeBlanks cs)
  let (minute, cs) ← takeField minuteField (← takeChar ':' cs)
  let (second, cs) ← takeField secondField (← takeChar ':' cs)
  if cs.isEmpty then return (year, month, day, hour, minute, second) else none

end DateText

/-- `datetime.strptime(s, "%Y-%m-%d %H:%M:%S")` -/
def Datetime.strptime (s : String) : Except PyError Datetime :=
  match DateText.fields s.toList with
  | some (year, month, day, hour, minute, second) => ofFields year month day hour minute second 0
  | none => .error .valueError

/-! ## A written time is read back -/

namespace DateText

theorem decimal?_digitChar : ∀ d < 10, decimal? (Nat.digitChar d) = some d := by decide

theorem decimalsValue_decimals (width n : Nat) : decimalsValue (decimals width n) = n % 10 ^ width := by
  induction width generalizing n with
  | zero => simp [decimals, decimalsValue, Nat.mod_one]
  | succ width ih =>
      have hinit := ih (n / 10)
      unfold decimalsValue at hinit ⊢
      rw [decimals, List.filterMap_append, List.foldl_append, hinit]
      simp only [List.filterMap_cons, List.filterMap_nil, decimal?_digitChar _ (Nat.mod_lt n (by decide)),
        List.foldl_cons, List.foldl_nil]
      rw [Nat.pow_succ', Nat.mod_mul, add_comm]

theorem isDecimal_decimals (width n : Nat) : ∀ c ∈ decimals width n, isDecimal c = true := by
  induction width generalizing n with
  | zero => simp [decimals]
  | succ width ih =>
      intro c hc
      rcases List.mem_append.mp hc with hc | hc
      · exact ih (n / 10) c hc
      · rw [List.mem_singleton.mp hc, isDecimal, decimal?_digitChar _ (Nat.mod_lt n (by decide))]
        rfl

theorem takeClasses_replicate {admits : Char → Bool} {cs : List Char} (h : ∀ c ∈ cs, admits c = true) :
    takeClasses (List.replicate cs.length admits) cs = some (cs, []) := by
  induction cs with
  | nil => rfl
  | cons c cs ih =>
      have hcs := ih fun c' hc' => h c' (List.mem_cons_of_mem _ hc')
      simp [List.replicate_succ, takeClasses, h c List.mem_cons_self, hcs]

/-- What follows the characters that the classes are matched with is left as it is. -/
theorem takeClasses_append {classes : List (Char → Bool)} {cs : List Char} (h : classes.length ≤ cs.length)
    (rest : List Char) :
    takeClasses classes (cs ++ rest) = (takeClasses classes cs).map (Prod.map id (· ++ rest)) := by
  induction classes generalizing cs with
  | nil => simp [takeClasses]
  | cons admits classes ih =>
      cases cs with
      | nil => simp at h
      | cons c cs =>
          have hcs := ih (Nat.le_of_succ_le_succ h)
          simp only [List.cons_append, takeClasses, hcs]
          cases admits c with
          | false => rfl
          | true => cases takeClasses classes cs <;> rfl

theorem takeField_append {alternatives : List (List (Char → Bool))} {cs : List Char}
    (h : ∀ classes ∈ alternatives, classes.length ≤ cs.length) (rest : List Char) :
    takeField alternatives (cs ++ rest) = (takeField alternatives cs).map (Prod.map id (· ++ rest)) := by
  unfold takeField
  induction alternatives with
  | nil => rfl
  | cons classes alternatives ih =>
      have hclasses := takeClasses_append (h classes List.mem_cons_self) rest
      have hrest := ih fun classes' h' => h classes' (List.mem_cons_of_mem _ h')
      simp only [List.findSome?_cons, hclasses]
      cases takeClasses classes cs with
      | none => exact hrest
      | some found => rfl

/-- A field of two digits, where each alternative has at most two characters. -/
theorem takeField_padded {alternatives : List (List (Char → Bool))} {n : Nat} (hn : n < 100)
    (hlen : ∀ classes ∈ alternatives, classes.length ≤ 2)
    (hfield : takeField alternatives (decimals 2 n) = some (n, [])) (rest : List Char) :
    takeField alternatives ((padded 2 n).toList ++ rest) = some (n, rest) := by
  have hlist : (padded 2 n).toList = decimals 2 n := toList_padded (by omega) (by exact_mod_cast hn) (by decide)
  rw [hlist, takeField_append (by rwa [length_decimals]), hfield]
  rfl

theorem takeField_year {n : Nat} (hn : n < 10 ^ 4) (rest : List Char) :
    takeField yearField ((padded 4 n).toList ++ rest) = some (n, rest) := by
  have hlist : (padded 4 n).toList = decimals 4 n := toList_padded (by omega) (by exact_mod_cast hn) (by decide)
  have hclasses := takeClasses_replicate (isDecimal_decimals 4 n)
  rw [length_decimals] at hclasses
  have hfield : takeField yearField (decimals 4 n) = some (n, []) := by
    have hvalue : decimalsValue (decimals 4 n) = n := by rw [decimalsValue_decimals, Nat.mod_eq_of_lt hn]
    have hclasses' : takeClasses [isDecimal, isDecimal, isDecimal, isDecimal] (decimals 4 n) =
        some (decimals 4 n, []) := hclasses
    simp [takeField, yearField, hclasses', hvalue]
  rw [hlist, takeField_append (by simp [yearField, length_decimals]), hfield]
  rfl

theorem monthField_decimals : ∀ n < 13, 1 ≤ n → takeField monthField (decimals 2 n) = some (n, []) := by decide

theorem dayField_decimals : ∀ n < 32, 1 ≤ n → takeField dayField (decimals 2 n) = some (n, []) := by decide

theorem hourField_decimals : ∀ n < 24, takeField hourField (decimals 2 n) = some (n, []) := by decide

theorem minuteField_decimals : ∀ n < 60, takeField minuteField (decimals 2 n) = some (n, []) := by decide

theorem secondField_decimals : ∀ n < 60, takeField secondField (decimals 2 n) = some (n, []) := by decide

theorem takeChar_cons (c : Char) (cs : List Char) : takeChar c (c :: cs) = some cs := if_pos rfl

/-- Digits end the blanks before them. -/
theorem takeBlanks_padded {n : Nat} (h : n < 100) (rest : List Char) :
    takeBlanks (' ' :: ((padded 2 n).toList ++ rest)) = some ((padded 2 n).toList ++ rest) := by
  have hlist : (padded 2 n).toList = decimals 2 n := toList_padded (by omega) (by exact_mod_cast h) (by decide)
  have hdigit : ∀ d < 10, isBlank (Nat.digitChar d) = false := by decide
  have hspace : isBlank ' ' = true := by decide
  rw [hlist]
  simp [takeBlanks, decimals, hspace, hdigit (n / 10 % 10) (Nat.mod_lt _ (by decide))]

end DateText

namespace Datetime

theorem ofFields_fields (dt : Datetime) :
    ofFields dt.year dt.month dt.day dt.hour dt.minute dt.second dt.microsecond = .ok dt :=
  dif_pos ⟨dt.year_mem, dt.month_mem, dt.day_mem, dt.clock_lt, dt.microsecond_lt⟩

theorem toList_strftime (dt : Datetime) :
    dt.strftime.toList = (padded 4 dt.year).toList ++ ('-' :: ((padded 2 dt.month).toList ++ ('-' ::
      ((padded 2 dt.day).toList ++ (' ' :: ((padded 2 dt.hour).toList ++ (':' :: ((padded 2 dt.minute).toList ++ (':' ::
        ((padded 2 dt.second).toList ++ [])))))))))) := by
  simp [strftime]

theorem day_le (dt : Datetime) : dt.day ≤ 31 := by
  have hday := dt.day_mem.2
  unfold daysInMonth at hday
  split_ifs at hday <;> omega

/-- Read back, a written time has lost its microseconds and nothing else. -/
theorem strptime_strftime (dt : Datetime) : strptime dt.strftime = .ok dt.wholeSeconds := by
  have hfields : DateText.fields dt.strftime.toList =
      some (dt.year, dt.month, dt.day, dt.hour, dt.minute, dt.second) := by
    have hyear : dt.year < 10 ^ 4 := Nat.lt_succ_of_le dt.year_mem.2
    obtain ⟨hhour, hminute, hsecond⟩ := dt.clock_lt
    have hday := dt.day_le
    have hmonth := DateText.takeField_padded (by have := dt.month_mem; omega) (by decide)
      (DateText.monthField_decimals dt.month (Nat.lt_succ_of_le dt.month_mem.2) dt.month_mem.1)
    have hdayField := DateText.takeField_padded (by omega) (by decide)
      (DateText.dayField_decimals dt.day (Nat.lt_succ_of_le hday) dt.day_mem.1)
    have hhourField := DateText.takeField_padded (by omega) (by decide) (DateText.hourField_decimals dt.hour hhour)
    have hminuteField := DateText.takeField_padded (by omega) (by decide)
      (DateText.minuteField_decimals dt.minute hminute)
    have hsecondField := DateText.takeField_padded (by omega) (by decide)
      (DateText.secondField_decimals dt.second hsecond)
    have hblank : dt.hour < 100 := by omega
    simp only [toList_strftime, DateText.fields, DateText.takeField_year hyear, DateText.takeChar_cons, hmonth,
      hdayField, DateText.takeBlanks_padded hblank, hhourField, hminuteField, hsecondField, bind, Option.bind]
    rfl
  unfold strptime
  rw [hfields]
  exact ofFields_fields dt.wholeSeconds

theorem wall_wholeSeconds (dt : Datetime) : dt.wholeSeconds.wall = dt.wall - dt.microsecond := by
  simp [wall, wholeSeconds, toordinal]

end Datetime

end Hailcast
