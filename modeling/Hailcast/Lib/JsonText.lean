import Hailcast.Lib.Dict

/-!
# JSON texts

Values, their texts in the usual styles (compact, with blanks, indented), and the reader of such texts. A text in any
style is read back as its value. Floats are a parameter: a type with the text of each of its values.

The reader also takes what is not JSON but is often taken for it: `NaN`, `Infinity` and `-Infinity`, and escapes of
surrogates without their partners. So the strings that are read are more than those that are written.
-/

namespace JsonText

/-! ## Numbers -/

/-- `-?(0|[1-9][0-9]*)` and what follows. -/
def scanInteger : List Char → Option (List Char × List Char)
  | '0' :: cs => some (['0'], cs)
  | c :: cs => if c.isDigit then some (c :: cs.takeWhile Char.isDigit, cs.dropWhile Char.isDigit) else none
  | [] => none

/-- `(\.[0-9]+)?` -/
def scanFraction : List Char → List Char × List Char
  | '.' :: c :: cs =>
      if c.isDigit then ('.' :: c :: cs.takeWhile Char.isDigit, cs.dropWhile Char.isDigit) else ([], '.' :: c :: cs)
  | cs => ([], cs)

def scanSign : List Char → List Char × List Char
  | '-' :: cs => (['-'], cs)
  | '+' :: cs => (['+'], cs)
  | cs => ([], cs)

/-- `([eE][-+]?[0-9]+)?` -/
def scanExponent : List Char → List Char × List Char
  | e :: cs =>
      if e = 'e' ∨ e = 'E' then
        match (scanSign cs).2 with
        | c :: ds =>
            if c.isDigit then
              (e :: ((scanSign cs).1 ++ c :: ds.takeWhile Char.isDigit), ds.dropWhile Char.isDigit)
            else ([], e :: cs)
        | [] => ([], e :: cs)
      else ([], e :: cs)
  | [] => ([], [])

/-- The text of a number: its sign, its digits, and the fraction and the exponent together. -/
structure Numeral where
  negative : Bool
  digits : List Char
  rest : List Char

def scanUnsigned (negative : Bool) (cs : List Char) : Option (Numeral × List Char) :=
  match scanInteger cs with
  | some (digits, cs) =>
      let (fraction, cs) := scanFraction cs
      let (exponent, cs) := scanExponent cs
      some (⟨negative, digits, fraction ++ exponent⟩, cs)
  | none => none

def scanNumeral : List Char → Option (Numeral × List Char)
  | '-' :: cs => scanUnsigned true cs
  | cs => scanUnsigned false cs

namespace Numeral

def chars (m : Numeral) : List Char := (if m.negative then ['-'] else []) ++ m.digits ++ m.rest

def toInt (m : Numeral) : Int :=
  let n := Nat.ofDigitChars 10 m.digits 0
  if m.negative then -n else n

end Numeral

/-- A type of finite floats, with their texts; a text beyond their range is not parsed. -/
structure FloatFormat (φ : Type) where
  repr : φ → List Char
  parse : List Char → Option φ
  parse_repr : ∀ x, parse (repr x) = some x
  /-- The text of a float has a fraction or an exponent. -/
  scan_repr : ∀ x, ∃ m : Numeral, scanNumeral (repr x) = some (m, []) ∧ m.rest ≠ [] ∧ m.chars = repr x

/-- The format of a single float. -/
def oneFloat : FloatFormat Unit where
  repr _ := ['0', '.', '5']
  parse _ := some ()
  parse_repr _ := rfl
  scan_repr _ := ⟨⟨false, ['0'], ['.', '5']⟩, rfl, by decide, rfl⟩

/-! ## Strings -/

/-- What an escape in a string may stand for. -/
inductive Scalar where
  | char (c : Char)
  | surrogate (n : Nat)
deriving DecidableEq

/-- A string as it is read. -/
abbrev Units := List Scalar

namespace Units

def ofString (s : String) : Units := s.toList.map .char

def toChars : Units → Option (List Char)
  | [] => some []
  | .char c :: us => (toChars us).map (c :: ·)
  | .surrogate _ :: _ => none

/-- The string, if all its units are characters. -/
def toString? (us : Units) : Option String := (toChars us).map String.ofList

theorem toChars_map (cs : List Char) : toChars (cs.map .char) = some cs := by
  induction cs with
  | nil => rfl
  | cons c cs ih => simp [toChars, ih]

@[simp] theorem toString?_ofString (s : String) : (ofString s).toString? = some s := by
  simp [toString?, ofString, toChars_map]

theorem ofString_injective : Function.Injective ofString := by
  intro s t h
  have hs := toString?_ofString s
  rw [h, toString?_ofString] at hs
  exact (Option.some.inj hs).symm

@[simp] theorem ofString_inj {s t : String} : ofString s = ofString t ↔ s = t := ofString_injective.eq_iff

end Units

/-! ## Values -/

/-- The floats that JSON does not have. -/
inductive Special where
  | nan
  | infinity
  | negInfinity
deriving DecidableEq

/-- A value with strings `σ` and floats `φ`. -/
inductive Value (σ φ : Type) where
  | null
  | bool (b : Bool)
  | int (n : Int)
  | float (x : φ)
  | special (x : Special)
  | str (s : σ)
  | arr (xs : List (Value σ φ))
  | obj (kvs : List (σ × Value σ φ))

namespace Value

variable {σ φ : Type}

mutual
/-- No object has a key twice. -/
def WellFormed : Value σ φ → Prop
  | .arr xs => WellFormedItems xs
  | .obj kvs => (kvs.map Prod.fst).Nodup ∧ WellFormedMembers kvs
  | .null | .bool _ | .int _ | .float _ | .special _ | .str _ => True

def WellFormedItems : List (Value σ φ) → Prop
  | [] => True
  | x :: xs => x.WellFormed ∧ WellFormedItems xs

def WellFormedMembers : List (σ × Value σ φ) → Prop
  | [] => True
  | (_, x) :: kvs => x.WellFormed ∧ WellFormedMembers kvs
end

mutual
/-- How many rounds the reader needs for the value. -/
def depth : Value σ φ → Nat
  | .arr xs => depthItems xs + 1
  | .obj kvs => depthMembers kvs + 1
  | .null | .bool _ | .int _ | .float _ | .special _ | .str _ => 1

def depthItems : List (Value σ φ) → Nat
  | [] => 0
  | x :: xs => max x.depth (depthItems xs) + 1

def depthMembers : List (σ × Value σ φ) → Nat
  | [] => 0
  | (_, x) :: kvs => max x.depth (depthMembers kvs) + 1
end

mutual
/-- The value as it is read. -/
def units : Value String φ → Value Units φ
  | .null => .null
  | .bool b => .bool b
  | .int n => .int n
  | .float x => .float x
  | .special x => .special x
  | .str s => .str (Units.ofString s)
  | .arr xs => .arr (unitsItems xs)
  | .obj kvs => .obj (unitsMembers kvs)

def unitsItems : List (Value String φ) → List (Value Units φ)
  | [] => []
  | x :: xs => x.units :: unitsItems xs

def unitsMembers : List (String × Value String φ) → List (Units × Value Units φ)
  | [] => []
  | (k, x) :: kvs => (Units.ofString k, x.units) :: unitsMembers kvs
end

mutual
/-- The value, if its strings have no surrogates. -/
def strings? : Value Units φ → Option (Value String φ)
  | .null => some .null
  | .bool b => some (.bool b)
  | .int n => some (.int n)
  | .float x => some (.float x)
  | .special x => some (.special x)
  | .str s => s.toString?.map .str
  | .arr xs => (stringsItems? xs).map .arr
  | .obj kvs => (stringsMembers? kvs).map .obj

def stringsItems? : List (Value Units φ) → Option (List (Value String φ))
  | [] => some []
  | x :: xs => do
      let x ← x.strings?
      let xs ← stringsItems? xs
      return x :: xs

def stringsMembers? : List (Units × Value Units φ) → Option (List (String × Value String φ))
  | [] => some []
  | (k, x) :: kvs => do
      let k ← k.toString?
      let x ← x.strings?
      let kvs ← stringsMembers? kvs
      return (k, x) :: kvs
end

mutual
/-- Whether the value is one of JSON: without the special floats and without surrogates. -/
def isStandard : Value Units φ → Bool
  | .special _ => false
  | .str s => s.toString?.isSome
  | .arr xs => isStandardItems xs
  | .obj kvs => isStandardMembers kvs
  | .null | .bool _ | .int _ | .float _ => true

def isStandardItems : List (Value Units φ) → Bool
  | [] => true
  | x :: xs => x.isStandard && isStandardItems xs

def isStandardMembers : List (Units × Value Units φ) → Bool
  | [] => true
  | (k, x) :: kvs => k.toString?.isSome && x.isStandard && isStandardMembers kvs
end

mutual
theorem strings?_units : (v : Value String φ) → v.units.strings? = some v
  | .null | .bool _ | .int _ | .float _ | .special _ => by simp [units, strings?]
  | .str s => by simp [units, strings?]
  | .arr xs => by simp [units, strings?, stringsItems?_units xs]
  | .obj kvs => by simp [units, strings?, stringsMembers?_units kvs]

theorem stringsItems?_units : (xs : List (Value String φ)) → stringsItems? (unitsItems xs) = some xs
  | [] => by simp [unitsItems, stringsItems?]
  | x :: xs => by simp [unitsItems, stringsItems?, strings?_units x, stringsItems?_units xs]

theorem stringsMembers?_units :
    (kvs : List (String × Value String φ)) → stringsMembers? (unitsMembers kvs) = some kvs
  | [] => by simp [unitsMembers, stringsMembers?]
  | (k, x) :: kvs => by simp [unitsMembers, stringsMembers?, strings?_units x, stringsMembers?_units kvs]
end

theorem keys_unitsMembers (kvs : List (String × Value String φ)) :
    (unitsMembers kvs).map Prod.fst = (kvs.map Prod.fst).map Units.ofString := by
  induction kvs with
  | nil => rfl
  | cons kv kvs ih =>
      obtain ⟨k, x⟩ := kv
      simp [unitsMembers, ih]

end Value

/-! ## Writing -/

def isBlank (c : Char) : Bool := c = ' ' || c = '\t' || c = '\n' || c = '\r'

/-- A style: the indentation, if there is one, and the blanks after a comma and after a colon. -/
structure Style where
  indent : Option Nat
  itemGap : List Char
  keyGap : List Char
  itemGap_blank : itemGap.all isBlank = true
  keyGap_blank : keyGap.all isBlank = true

namespace Style

def compact : Style := ⟨none, [], [], rfl, rfl⟩

def spaced : Style := ⟨none, [' '], [' '], rfl, rfl⟩

def indented (n : Nat) : Style := ⟨some n, [], [' '], rfl, rfl⟩

def newline (style : Style) (level : Nat) : List Char :=
  match style.indent with
  | some n => '\n' :: List.replicate (n * level) ' '
  | none => []

def gap (style : Style) (level : Nat) : List Char := style.itemGap ++ style.newline level

end Style

def escapeChar (c : Char) : List Char :=
  if c = '"' then ['\\', '"']
  else if c = '\\' then ['\\', '\\']
  else if c = '\n' then ['\\', 'n']
  else if c = '\r' then ['\\', 'r']
  else if c = '\t' then ['\\', 't']
  else if c = '\x0c' then ['\\', 'f']
  else if c = '\x08' then ['\\', 'b']
  else if c.toNat < 32 then ['\\', 'u', '0', '0', Nat.digitChar (c.toNat / 16), Nat.digitChar (c.toNat % 16)]
  else [c]

def quote (s : String) : List Char := '"' :: s.toList.flatMap escapeChar ++ ['"']

def intChars : Int → List Char
  | .ofNat n => Nat.toDigits 10 n
  | .negSucc n => '-' :: Nat.toDigits 10 (n + 1)

def Special.chars : Special → List Char
  | .nan => ['N', 'a', 'N']
  | .infinity => ['I', 'n', 'f', 'i', 'n', 'i', 't', 'y']
  | .negInfinity => ['-', 'I', 'n', 'f', 'i', 'n', 'i', 't', 'y']

section Write

variable {φ : Type} (F : FloatFormat φ) (style : Style)

mutual
def write (level : Nat) : Value String φ → List Char
  | .null => ['n', 'u', 'l', 'l']
  | .bool true => ['t', 'r', 'u', 'e']
  | .bool false => ['f', 'a', 'l', 's', 'e']
  | .int n => intChars n
  | .float x => F.repr x
  | .special x => x.chars
  | .str s => quote s
  | .arr [] => ['[', ']']
  | .arr (x :: xs) =>
      '[' :: (style.newline (level + 1) ++ write (level + 1) x ++ writeItems (level + 1) xs ++ style.newline level ++
        [']'])
  | .obj [] => ['{', '}']
  | .obj ((k, x) :: kvs) =>
      '{' :: (style.newline (level + 1) ++ quote k ++ ':' :: style.keyGap ++ write (level + 1) x ++
        writeMembers (level + 1) kvs ++ style.newline level ++ ['}'])

/-- The items after the first one. -/
def writeItems (level : Nat) : List (Value String φ) → List Char
  | [] => []
  | x :: xs => ',' :: (style.gap level ++ write level x ++ writeItems level xs)

def writeMembers (level : Nat) : List (String × Value String φ) → List Char
  | [] => []
  | (k, x) :: kvs =>
      ',' :: (style.gap level ++ quote k ++ ':' :: style.keyGap ++ write level x ++ writeMembers level kvs)
end

def dumps (v : Value String φ) : String := String.ofList (write F style 0 v)

end Write

/-! ## Reading -/

def skipBlanks (cs : List Char) : List Char := cs.dropWhile isBlank

def hexValue (c : Char) : Option Nat :=
  if c.isDigit then some (c.toNat - 48)
  else if 'a' ≤ c ∧ c ≤ 'f' then some (c.toNat - 87)
  else if 'A' ≤ c ∧ c ≤ 'F' then some (c.toNat - 55)
  else none

def hexValue4 (a b c d : Char) : Option Nat := do
  let a ← hexValue a
  let b ← hexValue b
  let c ← hexValue c
  let d ← hexValue d
  return ((a * 16 + b) * 16 + c) * 16 + d

def unescape : Char → Option Char
  | '"' => some '"'
  | '\\' => some '\\'
  | '/' => some '/'
  | 'b' => some '\x08'
  | 'f' => some '\x0c'
  | 'n' => some '\n'
  | 'r' => some '\r'
  | 't' => some '\t'
  | _ => none

def push (u : Scalar) : Option (Units × List Char) → Option (Units × List Char) :=
  Option.map fun p => (u :: p.1, p.2)

def isHighSurrogate (n : Nat) : Bool := 0xd800 ≤ n && n ≤ 0xdbff

def isLowSurrogate (n : Nat) : Bool := 0xdc00 ≤ n && n ≤ 0xdfff

/-- The units of a string up to its closing quote, one for each escape. -/
def readUnits : List Char → Option (Units × List Char)
  | [] => none
  | '"' :: cs => some ([], cs)
  | '\\' :: 'u' :: a :: b :: c :: d :: cs =>
      match hexValue4 a b c d with
      | none => none
      | some n =>
          if isHighSurrogate n || isLowSurrogate n then push (.surrogate n) (readUnits cs)
          else push (.char (Char.ofNat n)) (readUnits cs)
  | '\\' :: e :: cs =>
      match unescape e with
      | some c => push (.char c) (readUnits cs)
      | none => none
  | c :: cs => if c.toNat < 32 then none else push (.char c) (readUnits cs)

/-- A high surrogate and the low one behind it are a character. -/
def joinPairs : Units → Units
  | .surrogate n :: .surrogate m :: us =>
      if isHighSurrogate n && isLowSurrogate m then
        .char (Char.ofNat (0x10000 + (n - 0xd800) * 0x400 + (m - 0xdc00))) :: joinPairs us
      else .surrogate n :: joinPairs (.surrogate m :: us)
  | u :: us => u :: joinPairs us
  | [] => []

def readString (cs : List Char) : Option (Units × List Char) :=
  (readUnits cs).map fun p => (joinPairs p.1, p.2)

section Read

variable {φ : Type} (F : FloatFormat φ)

/-- A number; a float beyond the range is read as an infinity. -/
def readNumber (cs : List Char) : Option (Value Units φ × List Char) :=
  match scanNumeral cs with
  | some (m, cs) =>
      if m.rest = [] then some (.int m.toInt, cs)
      else
        match F.parse m.chars with
        | some x => some (.float x, cs)
        | none => some (.special (if m.negative then .negInfinity else .infinity), cs)
  | none => none

/-- The object of these pairs: a key that comes again replaces its value. -/
def objectOf {σ : Type} [DecidableEq σ] (kvs : List (σ × Value σ φ)) : List (σ × Value σ φ) :=
  kvs.foldl (fun d kv => Dict.assign kv.1 kv.2 d) []

mutual
def readValue : Nat → List Char → Option (Value Units φ × List Char)
  | 0, _ => none
  | n + 1, cs =>
      match cs with
      | '"' :: cs =>
          match readString cs with
          | some (s, cs) => some (.str s, cs)
          | none => none
      | '[' :: cs =>
          match skipBlanks cs with
          | ']' :: cs => some (.arr [], cs)
          | cs =>
              match readItems n cs with
              | some (xs, cs) => some (.arr xs, cs)
              | none => none
      | '{' :: cs =>
          match skipBlanks cs with
          | '}' :: cs => some (.obj [], cs)
          | cs =>
              match readMembers n cs with
              | some (kvs, cs) => some (.obj (objectOf kvs), cs)
              | none => none
      | 'n' :: 'u' :: 'l' :: 'l' :: cs => some (.null, cs)
      | 't' :: 'r' :: 'u' :: 'e' :: cs => some (.bool true, cs)
      | 'f' :: 'a' :: 'l' :: 's' :: 'e' :: cs => some (.bool false, cs)
      | 'N' :: 'a' :: 'N' :: cs => some (.special .nan, cs)
      | 'I' :: 'n' :: 'f' :: 'i' :: 'n' :: 'i' :: 't' :: 'y' :: cs => some (.special .infinity, cs)
      | '-' :: 'I' :: 'n' :: 'f' :: 'i' :: 'n' :: 'i' :: 't' :: 'y' :: cs => some (.special .negInfinity, cs)
      | cs => readNumber F cs

def readItems : Nat → List Char → Option (List (Value Units φ) × List Char)
  | 0, _ => none
  | n + 1, cs =>
      match readValue n cs with
      | some (x, cs) =>
          match skipBlanks cs with
          | ']' :: cs => some ([x], cs)
          | ',' :: cs =>
              match readItems n (skipBlanks cs) with
              | some (xs, cs) => some (x :: xs, cs)
              | none => none
          | _ => none
      | none => none

def readMembers : Nat → List Char → Option (List (Units × Value Units φ) × List Char)
  | n + 1, '"' :: cs =>
      match readString cs with
      | some (k, cs) =>
          match skipBlanks cs with
          | ':' :: cs =>
              match readValue n (skipBlanks cs) with
              | some (x, cs) =>
                  match skipBlanks cs with
                  | '}' :: cs => some ([(k, x)], cs)
                  | ',' :: cs =>
                      match readMembers n (skipBlanks cs) with
                      | some (kvs, cs) => some ((k, x) :: kvs, cs)
                      | none => none
                  | _ => none
              | none => none
          | _ => none
      | none => none
  | _, _ => none
end

/-- Each round of the reader takes a character, or is followed by one that does. -/
def loads (s : String) : Option (Value Units φ) :=
  match readValue F (2 * s.toList.length + 1) (skipBlanks s.toList) with
  | some (v, cs) => if skipBlanks cs = [] then some v else none
  | none => none

/-- The reader that refuses surrogates. -/
def loadsStrings (s : String) : Option (Value String φ) := (loads F s).bind Value.strings?

end Read

end JsonText
