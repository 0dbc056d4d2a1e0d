import Hailcast.Common.Json
import Hailcast.Lib.Dict

/-!
# DynamoDB items and the table of the accuracy log

An item is a dict of attribute values, each `{"S": ..}`, `{"N": ..}` or of another type; numbers are kept by
their value. The table is keyed by the two strings `prediction_date` and `target_time`.
-/

namespace Hailcast

inductive AttributeValue where
  | s (x : Str)
  | n (q : ℚ)
  | other (value : Json)

/-- `int(value)` of a decoded value: a `str`, a `Decimal`, or the raw dict. -/
def AttributeValue.toInt : AttributeValue → Except PyError Int
  | .s x => (Json.str x).toInt
  | .n q => (Json.num q).toInt
  | .other _ => .error .typeError

abbrev DynamoItem := List (String × AttributeValue)

namespace DynamoItem

/-- `item.get(key)` -/
def attr (item : DynamoItem) (key : String) : Option AttributeValue :=
  match item with
  | [] => none
  | (k, v) :: item => if k = key then some v else attr item key

/-- `item[key] = value` -/
def setAttr (item : DynamoItem) (key : String) (value : AttributeValue) : DynamoItem :=
  match item with
  | [] => [(key, value)]
  | (k, v) :: item => if k = key then (k, value) :: item else (k, v) :: setAttr item key value

theorem attr_setAttr (item : DynamoItem) (key other : String) (value : AttributeValue) :
    attr (setAttr item key value) other = if key = other then some value else attr item other := by
  induction item with
  | nil => rfl
  | cons x item ih =>
      obtain ⟨k, v⟩ := x
      by_cases hk : k = key
      · subst hk
        by_cases ho : k = other <;> simp [setAttr, attr, ho]
      · by_cases ho : k = other
        · subst ho
          simp [setAttr, attr, hk, Ne.symm hk]
        · simp [setAttr, attr, hk, ho, ih]

def key (item : DynamoItem) : Option (Str × Str) :=
  match item.attr "prediction_date", item.attr "target_time" with
  | some (.s date), some (.s time) => some (date, time)
  | _, _ => none

end DynamoItem

/-! ## The table -/

/-- The rows of the table: for each key the attributes beside it. -/
abbrev DynamoTable := Dict (Str × Str) DynamoItem

namespace DynamoTable

def item (key : Str × Str) (attributes : DynamoItem) : DynamoItem :=
  ("prediction_date", .s key.1) :: ("target_time", .s key.2) :: attributes

/-- What a scan of the whole table returns. -/
def items (table : DynamoTable) : List DynamoItem := table.entries.map (fun row => item row.1 row.2)

/-- `put_item` of an item with this key: a row with the key is replaced. -/
def put (table : DynamoTable) (key : Str × Str) (attributes : DynamoItem) : DynamoTable := table.set key attributes

/-- `update_item` with `SET name = value`: without a row for the key it makes one. -/
def update (table : DynamoTable) (key : Str × Str) (name : String) (value : AttributeValue) : DynamoTable :=
  table.set key (((table.get? key).getD []).setAttr name value)

theorem mem_items {table : DynamoTable} {record : DynamoItem} :
    record ∈ table.items ↔ ∃ key attributes, table.get? key = some attributes ∧ record = item key attributes := by
  constructor
  · intro h
    obtain ⟨⟨key, attributes⟩, hrow, rfl⟩ := List.mem_map.mp h
    exact ⟨key, attributes, (Dict.mem_entries_iff table).mp hrow, rfl⟩
  · rintro ⟨key, attributes, hrow, rfl⟩
    exact List.mem_map.mpr ⟨(key, attributes), (Dict.mem_entries_iff table).mpr hrow, rfl⟩

theorem get?_update (table : DynamoTable) (key other : Str × Str) (name : String) (value : AttributeValue) :
    (table.update key name value).get? other =
      if key = other then some (((table.get? key).getD []).setAttr name value) else table.get? other :=
  Dict.get?_set table key other _

@[simp] theorem key_item (key : Str × Str) (attributes : DynamoItem) : (item key attributes).key = some key := rfl

end DynamoTable

end Hailcast
