import Hailcast.Common.Python
import Hailcast.Lib.Dict

/-!
# CSV texts

`csv.reader` and `csv.DictReader` over `io.StringIO(text)`, with the dialect `excel`. The reader takes the
characters one by one, and the end of each line, which is a character of its own to it.
-/

namespace Hailcast

namespace Csv

/-- `csv.field_size_limit()` -/
def fieldLimit : Nat := 131072

inductive ReaderState where
  | startRecord
  | startField
  | inField
  | inQuotedField
  | quoteInQuotedField
  | eatCrnl
deriving DecidableEq

/-- The fields of the record so far, and the characters of the field that is being read. -/
structure Reader where
  state : ReaderState := .startRecord
  field : List Char := []
  fields : List String := []

namespace Reader

def addChar (r : Reader) (c : Char) : Except PyError Reader :=
  if r.field.length < fieldLimit then .ok { r with field := r.field ++ [c] }
  else .error (.csvError "field larger than field limit (131072)")

def saveField (r : Reader) : Reader := { r with field := [], fields := r.fields ++ [String.ofList r.field] }

/-- The field ends with its line; `none` is the end of the line. -/
def endLine (r : Reader) (c : Option Char) : Reader :=
  { r.saveField with state := if c = none then .startRecord else .eatCrnl }

def enter (state : ReaderState) (r : Reader) : Reader := { r with state := state }

/-- In `START_FIELD`, and for the first character of a record. -/
def startField (r : Reader) (c : Option Char) : Except PyError Reader :=
  match c with
  | none | some '\n' | some '\r' => .ok (r.endLine c)
  | some '"' => .ok (r.enter .inQuotedField)
  | some ',' => .ok (r.saveField.enter .startField)
  | some c => (r.addChar c).map (enter .inField)

/-- `parse_process_char` -/
def processChar (r : Reader) (c : Option Char) : Except PyError Reader :=
  match r.state with
  | .startRecord =>
      match c with
      | none => .ok r
      | some '\n' | some '\r' => .ok (r.enter .eatCrnl)
      | c => r.startField c
  | .startField => r.startField c
  | .inField =>
      match c with
      | none | some '\n' | some '\r' => .ok (r.endLine c)
      | some ',' => .ok (r.saveField.enter .startField)
      | some c => r.addChar c
  | .inQuotedField =>
      match c with
      | none => .ok r
      | some '"' => .ok (r.enter .quoteInQuotedField)
      | some c => r.addChar c
  | .quoteInQuotedField =>
      match c with
      | some '"' => (r.addChar '"').map (enter .inQuotedField)
      | some ',' => .ok (r.saveField.enter .startField)
      | none | some '\n' | some '\r' => .ok (r.endLine c)
      | some c => (r.addChar c).map (enter .inField)
  | .eatCrnl =>
      match c with
      | some '\n' | some '\r' => .ok r
      | none => .ok (r.enter .startRecord)
      | some _ =>
          .error (.csvError
            "new-line character seen in unquoted field - do you need to open the file with newline=''?")

def processLine (r : Reader) (line : List Char) : Except PyError Reader := do
  let r ← line.foldlM (fun r c => r.processChar (some c)) r
  r.processChar none

end Reader

/-- The lines of `io.StringIO(text)`, each with the newline that ends it. -/
def lines : List Char → List (List Char)
  | [] => []
  | c :: cs =>
      if c = '\n' then [c] :: lines cs
      else
        match lines cs with
        | [] => [[c]]
        | line :: rest => (c :: line) :: rest

/-- A record ends with a line at whose end the reader is back in its first state; a quoted field may end with the
text. -/
def recordsFrom (r : Reader) : List (List Char) → Except PyError (List (List String))
  | [] => .ok (if r.field ≠ [] ∨ r.state = .inQuotedField then [r.saveField.fields] else [])
  | line :: rest => do
      let r ← r.processLine line
      if r.state = .startRecord then
        let records ← recordsFrom {} rest
        return r.fields :: records
      else recordsFrom r rest

/-- `list(csv.reader(io.StringIO(text)))` -/
def records (text : String) : Except PyError (List (List String)) := recordsFrom {} (lines text.toList)

/-- What `csv.DictReader` reads: the names of the fields, and the rows that are not blank. -/
structure Table where
  fieldnames : List String
  rows : List (List String)

/-- `list(csv.DictReader(io.StringIO(text)))` -/
def dictReader (text : String) : Except PyError Table := do
  match ← records text with
  | [] => return ⟨[], []⟩
  | fieldnames :: rows => return ⟨fieldnames, rows.filter (fun row => !row.isEmpty)⟩

/-- `row[key]`: of two fields with one name it is the last, and `None` where the row is short. -/
def Table.item (table : Table) (row : List String) (key : String) : Except PyError (Option String) :=
  let cells := row.map some ++ List.replicate (table.fieldnames.length - row.length) none
  match Dict.lookup key (table.fieldnames.zip cells).reverse with
  | some cell => .ok cell
  | none => .error (.keyError key)

end Csv

end Hailcast
