import Hailcast.Common.Python

/-!
# JSON values

The values that `json.loads` returns: integers and finite floats as rationals, and the floats that a number such as
`1e999` or the names `Infinity` and `NaN` stand for. A string is kept by what `datetime.fromisoformat` makes of it,
since the code reads every other string only as it is. `Blob` is the text of a stored object, by what `json.loads`
makes of the text.
-/

namespace Hailcast

/-- What `datetime.fromisoformat` returns. -/
inductive Stamp where
  | aware (t : Int)
  | naive (wall : Int)
deriving DecidableEq

/-- A string. -/
inductive Str where
  /-- A string that `datetime.fromisoformat` refuses. -/
  | text (s : String)
  /-- `t.isoformat()` of an aware time in UTC -/
  | aware (t : Int)
  /-- `t.isoformat()` of a time without a zone, by its wall-clock reading -/
  | naive (wall : Int)
  /-- `d.isoformat()` of a date, by its number of days -/
  | date (day : Int)
  /-- Any other spelling of a time or date, such as `20260801`. -/
  | iso (s : String) (stamp : Stamp)
deriving DecidableEq

/-! ## The order of strings -/

/-- Year, month and day of a day number, in the proleptic Gregorian calendar. -/
def civilFromDays (day : Int) : Int × Int × Int :=
  let z := day + 719468
  let era := z / 146097
  let dayOfEra := z % 146097
  let yearOfEra := (dayOfEra - dayOfEra / 1460 + dayOfEra / 36524 - dayOfEra / 146096) / 365
  let dayOfYear := dayOfEra - (365 * yearOfEra + yearOfEra / 4 - yearOfEra / 100)
  let month := (5 * dayOfYear + 2) / 153
  let year := yearOfEra + era * 400
  (if month < 10 then year else year + 1, if month < 10 then month + 3 else month - 9,
    dayOfYear - (153 * month + 2) / 5 + 1)

def padded (width : Nat) (n : Int) : String :=
  let digits := toString n
  String.ofList (List.replicate (width - digits.length) '0') ++ digits

def dateText (day : Int) : String :=
  let (year, month, day) := civilFromDays day
  padded 4 year ++ "-" ++ padded 2 month ++ "-" ++ padded 2 day

def wallText (wall : Int) : String :=
  let micros := wall % dayMicros
  dateText (wall / dayMicros) ++ "T" ++ padded 2 (micros / hourMicros) ++ ":" ++
    padded 2 (micros / 60000000 % 60) ++ ":" ++ padded 2 (micros / 1000000 % 60) ++
    (if micros % 1000000 = 0 then "" else "." ++ padded 6 (micros % 1000000))

/-- The characters of a string; the code spells aware times in UTC. -/
def Str.render : Str → String
  | .text s => s
  | .iso s _ => s
  | .aware t => wallText t ++ "+00:00"
  | .naive wall => wallText wall
  | .date day => dateText day

/-- `x <= y` of two strings; the spellings of aware times are in the order of the times. -/
def Str.le : Str → Str → Bool
  | .aware t, .aware t' => decide (t ≤ t')
  | x, y => decide (x.render ≤ y.render)

inductive Json where
  | null
  | bool (b : Bool)
  | num (q : ℚ)
  | inf (negative : Bool)
  | nan
  | str (s : Str)
  | arr (xs : List Json)
  | obj (kvs : List (String × Json))

namespace Json

/-- The truth value of a Python value: `if not body` and `body or default` read it. -/
def truthy : Json → Bool
  | .null => false
  | .bool b => b
  | .num q => q ≠ 0
  | .inf _ => true
  | .nan => true
  | .str (.text s) => s ≠ ""
  | .str _ => true
  | .arr xs => !xs.isEmpty
  | .obj kvs => !kvs.isEmpty

def field (key : String) : List (String × Json) → Option Json
  | [] => none
  | (k, v) :: kvs => if k = key then some v else field key kvs

/-- `body[key]` -/
def index (body : Json) (key : String) : Except PyError Json :=
  match body with
  | .obj kvs =>
      match field key kvs with
      | some v => .ok v
      | none => .error (.keyError key)
  | _ => .error .typeError

/-- `body.get(key, default)` -/
def get (body : Json) (key : String) (default : Json) : Except PyError Json :=
  match body with
  | .obj kvs => .ok ((field key kvs).getD default)
  | _ => .error .attributeError

/-- The number a value counts as in arithmetic: `True` and `False` are 1 and 0. -/
def toNumber : Json → Except PyError ExtRat
  | .num q => .ok (.fin q)
  | .inf negative => .ok (.inf negative)
  | .nan => .ok .nan
  | .bool b => .ok (.fin (if b then 1 else 0))
  | _ => .error .typeError

/-- The value of a number. -/
def ofNumber : ExtRat → Json
  | .fin q => .num q
  | .inf negative => .inf negative
  | .nan => .nan

@[simp] theorem toNumber_ofNumber (a : ExtRat) : (ofNumber a).toNumber = .ok a := by
  cases a <;> rfl

/-! ## Integers -/

/-- The zeros of the decimal digits of Unicode; nine digits follow each. -/
def decimalZeros : List Nat :=
  [0x30, 0x660, 0x6f0, 0x7c0, 0x966, 0x9e6, 0xa66, 0xae6, 0xb66, 0xbe6, 0xc66, 0xce6, 0xd66, 0xde6, 0xe50, 0xed0, 0xf20,
    0x1040, 0x1090, 0x17e0, 0x1810, 0x1946, 0x19d0, 0x1a80, 0x1a90, 0x1b50, 0x1bb0, 0x1c40, 0x1c50, 0xa620, 0xa8d0,
    0xa900, 0xa9d0, 0xa9f0, 0xaa50, 0xabf0, 0xff10, 0x104a0, 0x10d30, 0x11066, 0x110f0, 0x11136, 0x111d0, 0x112f0,
    0x11450, 0x114d0, 0x11650, 0x116c0, 0x11730, 0x118e0, 0x11950, 0x11c50, 0x11d50, 0x11da0, 0x11f50, 0x16a60, 0x16ac0,
    0x16b50, 0x1d7ce, 0x1d7d8, 0x1d7e2, 0x1d7ec, 0x1d7f6, 0x1e140, 0x1e2f0, 0x1e4f0, 0x1e950, 0x1fbf0]

/-- `_PyUnicode_TransformDecimalAndSpaceToASCII` of one character -/
def toAscii (c : Char) : Char :=
  if c.toNat < 127 then c
  else if isWideSpace c then ' '
  else
    match decimalZeros.find? (fun first => first ≤ c.toNat && c.toNat < first + 10) with
    | some first => Char.ofNat (48 + (c.toNat - first))
    | none => '?'

/-- `sys.get_int_max_str_digits()` -/
def maxStrDigits : Nat := 4300

/-- `int(s)` of a string: blanks around it, a sign, and decimal digits that single underscores may separate. -/
def intText (s : String) : Option Int :=
  let cs := (s.toList.map toAscii).dropWhile isAsciiSpace
  let (negative, cs) :=
    match cs with
    | '-' :: cs => (true, cs)
    | '+' :: cs => (false, cs)
    | cs => (false, cs)
  let run := cs.takeWhile (fun c => c.isDigit || c = '_')
  let digits := run.filter Char.isDigit
  if (cs.drop run.length).all isAsciiSpace && (run.splitOn '_').all (fun group => !group.isEmpty) &&
      digits.length ≤ maxStrDigits then
    let n : Nat := digits.foldl (fun n c => 10 * n + (c.toNat - 48)) 0
    some (if negative then -(n : Int) else n)
  else none

example : intText " １２" = some 12 ∧ intText "-1_000\n" = some (-1000) ∧ intText "1__0" = none ∧
    intText "+ 1" = none := by
  decide +kernel

def strToInt (s : String) : Except PyError Int :=
  match intText s with
  | some n => .ok n
  | none => .error .valueError

/-- `int(x)`: truncation towards zero, and the decimal reading of a string. -/
def toInt : Json → Except PyError Int
  | .num q => .ok (if 0 ≤ q then ⌊q⌋ else ⌈q⌉)
  | .inf _ => .error .overflowError
  | .nan => .error .valueError
  | .bool b => .ok (if b then 1 else 0)
  | .str (.text s) => strToInt s
  | .str (.iso s _) => strToInt s
  | .str _ => .error .valueError
  | _ => .error .typeError

end Json

/-- `datetime.fromisoformat(x)` -/
def fromisoformat : Json → Except PyError Stamp
  | .str (.aware t) => .ok (.aware t)
  | .str (.naive w) => .ok (.naive w)
  | .str (.date day) => .ok (.naive (day * dayMicros))
  | .str (.iso _ stamp) => .ok stamp
  | .str (.text _) => .error .valueError
  | _ => .error .typeError

/-- `t.isoformat()` of an aware time -/
def isoformat (t : Int) : Json := .str (.aware t)

/-- `now - stamp`: an aware and a naive time cannot be subtracted. -/
def Stamp.before (now : Int) : Stamp → Except PyError Int
  | .aware t => .ok (now - t)
  | .naive _ => .error .typeError

@[simp] theorem fromisoformat_isoformat (t : Int) : fromisoformat (isoformat t) = .ok (.aware t) := rfl

/-- The text of a stored object: by its value, if `json.loads` reads it, or else as it is. -/
inductive Blob where
  | json (j : Json)
  | text (s : String)

/-- `json.loads`; `JSONDecodeError` is a `ValueError`. -/
def Blob.loads : Blob → Except PyError Json
  | .json j => .ok j
  | .text _ => .error .valueError

end Hailcast
