import Hailcast.Lib.JsonReader
import Hailcast.Worker.Service

/-!
# The models of a call

What `CallRequest` and `CallMessage` accept, and the text of a message in the queue. The `datetime` of pydantic is a
parameter: how it is written, and which JSON values it is read from.
-/

namespace Hailcast.CallApi

open JsonText

variable {φ δ : Type}

/-! ## Times -/

/-- The times `δ` of pydantic, over JSON with floats `φ`. -/
structure Datetimes (φ δ : Type) where
  stamp : δ → Stamp
  validate : Value Units φ → Option δ
  /-- The ISO 8601 text of a time in `model_dump_json`. -/
  dump : δ → String
  /-- The time with zone `timezone.utc` at this instant. -/
  utc : Int → δ
  stamp_utc : ∀ t, stamp (utc t) = .aware t
  validate_dump : ∀ d, validate (.str (Units.ofString (dump d))) = some d

/-- An aware time, with its instant. -/
structure AwareTime (C : Datetimes φ δ) where
  value : δ
  instant : Int
  stamp_value : C.stamp value = .aware instant

theorem AwareTime.eq_of_value {C : Datetimes φ δ} {t u : AwareTime C} (h : t.value = u.value) : t = u := by
  obtain ⟨v, i, hi⟩ := t
  obtain ⟨w, j, hj⟩ := u
  obtain rfl : v = w := h
  obtain rfl : i = j := Stamp.aware.inj (hi.symm.trans hj)
  rfl

def AwareTime.utc (C : Datetimes φ δ) (t : Int) : AwareTime C := ⟨C.utc t, t, C.stamp_utc t⟩

/-- A naive time is taken as UTC. -/
def ensureTz (C : Datetimes φ δ) (v : δ) : AwareTime C :=
  match h : C.stamp v with
  | .aware t => ⟨v, t, h⟩
  | .naive wall => .utc C wall

@[simp] theorem ensureTz_value {C : Datetimes φ δ} (t : AwareTime C) : ensureTz C t.value = t := by
  apply AwareTime.eq_of_value
  unfold ensureTz
  split
  · rfl
  · rename_i wall h
    rw [t.stamp_value] at h
    cases h

/-! ## CallRequest -/

inductive Source where
  | api
  | simulator
deriving DecidableEq

namespace Source

def text : Source → String
  | .api => "api"
  | .simulator => "simulator"

/-- The pattern `^(api|simulator)$` -/
def ofText (s : String) : Option Source :=
  if s = "api" then some .api
  else if s = "simulator" then some .simulator
  else none

@[simp] theorem ofText_text (source : Source) : ofText source.text = some source := by
  cases source <;> rfl

end Source

/-- A text of a length that a field allows. -/
abbrev Text (maxLength : Nat) := { s : String // 1 ≤ s.length ∧ s.length ≤ maxLength }

structure CallRequest (C : Datetimes φ δ) where
  userId : Text 64
  pickup : Text 200
  destination : Text 200
  requestedAt : Option (AwareTime C)
  source : Source

/-- What pydantic finds wrong with a value. -/
inductive Problem where
  | missing
  | stringType
  | stringUnicode
  | stringTooShort (minLength : Nat)
  | stringTooLong (maxLength : Nat)
  | stringPatternMismatch
  /-- The value is no time. -/
  | datetime
  | modelType
  | jsonInvalid
deriving DecidableEq

/-- The field, unless the body as a whole is wrong, and what is wrong. -/
structure ErrorDetail where
  loc : Option String
  problem : Problem
deriving DecidableEq

/-- An element of `exc.errors()`, with the value that it shows. -/
structure FieldError (φ : Type) where
  detail : ErrorDetail
  input : Value Units φ

/-- The errors of a field, of which there is one at most. A field that is missing shows the body. -/
def errorsOf {α : Type} (body : Value Units φ) (loc : String) (value : Option (Value Units φ)) :
    Except Problem α → List (FieldError φ)
  | .ok _ => []
  | .error problem => [⟨⟨some loc, problem⟩, value.getD body⟩]

/-- `str = Field(..., min_length=1, max_length=maxLength)` -/
def readText (maxLength : Nat) : Option (Value Units φ) → Except Problem (Text maxLength)
  | none => .error .missing
  | some (.str us) =>
      match us.toString? with
      | some s =>
          if h : 1 ≤ s.length ∧ s.length ≤ maxLength then .ok ⟨s, h⟩
          else if s.length < 1 then .error (.stringTooShort 1)
          else .error (.stringTooLong maxLength)
      | none => .error .stringUnicode
  | some _ => .error .stringType

/-- `datetime | None = Field(default=None)`, with `ensure_tz` -/
def readRequestedAt (C : Datetimes φ δ) : Option (Value Units φ) → Except Problem (Option (AwareTime C))
  | none => .ok none
  | some .null => .ok none
  | some v =>
      match C.validate v with
      | some d => .ok (some (ensureTz C d))
      | none => .error .datetime

/-- `str = Field(default=SOURCE_API, pattern="^(api|simulator)$")` -/
def readSource : Option (Value Units φ) → Except Problem Source
  | none => .ok .api
  | some (.str us) =>
      match us.toString? with
      | some s =>
          match Source.ofText s with
          | some source => .ok source
          | none => .error .stringPatternMismatch
      | none => .error .stringUnicode
  | some _ => .error .stringType

/-- The value of a field. -/
def fieldOf (name : String) (kvs : List (Units × Value Units φ)) : Option (Value Units φ) :=
  Dict.lookup (Units.ofString name) kvs

namespace CallRequest

variable (C : Datetimes φ δ)

/-- `CallRequest.model_validate`: every field is checked, and keys that are no field are ignored. -/
def validate : Value Units φ → Except (List (FieldError φ)) (CallRequest C)
  | .obj kvs =>
      let userId := readText 64 (fieldOf "user_id" kvs)
      let pickup := readText 200 (fieldOf "pickup" kvs)
      let destination := readText 200 (fieldOf "destination" kvs)
      let requestedAt := readRequestedAt C (fieldOf "requested_at" kvs)
      let source := readSource (fieldOf "source" kvs)
      match userId, pickup, destination, requestedAt, source with
      | .ok userId, .ok pickup, .ok destination, .ok requestedAt, .ok source =>
          .ok ⟨userId, pickup, destination, requestedAt, source⟩
      | userId, pickup, destination, requestedAt, source =>
          .error (errorsOf (.obj kvs) "user_id" (fieldOf "user_id" kvs) userId ++
            errorsOf (.obj kvs) "pickup" (fieldOf "pickup" kvs) pickup ++
            errorsOf (.obj kvs) "destination" (fieldOf "destination" kvs) destination ++
            errorsOf (.obj kvs) "requested_at" (fieldOf "requested_at" kvs) requestedAt ++
            errorsOf (.obj kvs) "source" (fieldOf "source" kvs) source)
  | v => .error [⟨⟨none, .modelType⟩, v⟩]

variable {C}

def dump (r : CallRequest C) : Value String φ :=
  .obj [("user_id", .str r.userId.1), ("pickup", .str r.pickup.1), ("destination", .str r.destination.1),
    ("requested_at", match r.requestedAt with | some t => .str (C.dump t.value) | none => .null),
    ("source", .str r.source.text)]

end CallRequest

theorem readText_str {maxLength : Nat} (s : Text maxLength) :
    readText maxLength (some (.str (Units.ofString s.1)) : Option (Value Units φ)) = .ok s := by
  simp only [readText, Units.toString?_ofString]
  rw [dif_pos s.2]

theorem readRequestedAt_dump {C : Datetimes φ δ} (t : Option (AwareTime C)) :
    readRequestedAt C (some (match t with | some t => .str (C.dump t.value) | none => .null : Value String φ).units) =
      .ok t := by
  cases t with
  | none => rfl
  | some t => simp [Value.units, readRequestedAt, C.validate_dump]

theorem readSource_text (source : Source) :
    readSource (some (.str (Units.ofString source.text)) : Option (Value Units φ)) = .ok source := by
  simp [readSource]

/-- What a request is dumped to is accepted as this request. -/
theorem CallRequest.validate_dump {C : Datetimes φ δ} (r : CallRequest C) : validate C r.dump.units = .ok r := by
  unfold dump
  simp only [Value.units, Value.unitsMembers, validate, fieldOf, Dict.lookup, Units.ofString_inj, String.reduceEq,
    ↓reduceIte, readText_str, readRequestedAt_dump, readSource_text]

theorem errorsOf_eq_nil {α : Type} {body : Value Units φ} {loc : String} {value : Option (Value Units φ)}
    {x : Except Problem α} (h : errorsOf body loc value x = []) : ∃ a, x = .ok a := by
  cases x with
  | ok a => exact ⟨a, rfl⟩
  | error problem => cases h

theorem loc_of_mem_errorsOf {α : Type} {body : Value Units φ} {loc : String} {value : Option (Value Units φ)}
    {x : Except Problem α} {e : FieldError φ} (h : e ∈ errorsOf body loc value x) : e.detail.loc = some loc := by
  cases x with
  | ok a => cases h
  | error problem =>
      obtain rfl := List.mem_singleton.mp h
      rfl

/-- An error list is never empty, and each error is of a field, or of a body that is no object. -/
theorem CallRequest.errors_of_validate {C : Datetimes φ δ} {v : Value Units φ} {errors : List (FieldError φ)}
    (h : validate C v = .error errors) :
    errors ≠ [] ∧ ∀ e ∈ errors, (e.detail.loc = none ∧ ∀ kvs, v ≠ .obj kvs) ∨
      ∃ name ∈ ["user_id", "pickup", "destination", "requested_at", "source"], e.detail.loc = some name := by
  cases v with
  | obj kvs =>
      simp only [validate] at h
      split at h
      · cases h
      · rename_i hbad
        obtain rfl := Except.error.inj h
        constructor
        · intro hnil
          simp only [List.append_eq_nil_iff] at hnil
          obtain ⟨⟨⟨⟨h₁, h₂⟩, h₃⟩, h₄⟩, h₅⟩ := hnil
          obtain ⟨userId, huserId⟩ := errorsOf_eq_nil h₁
          obtain ⟨pickup, hpickup⟩ := errorsOf_eq_nil h₂
          obtain ⟨destination, hdestination⟩ := errorsOf_eq_nil h₃
          obtain ⟨requestedAt, hrequestedAt⟩ := errorsOf_eq_nil h₄
          obtain ⟨source, hsource⟩ := errorsOf_eq_nil h₅
          exact hbad userId pickup destination requestedAt source huserId hpickup hdestination hrequestedAt hsource
        · intro e he
          simp only [List.mem_append] at he
          rcases he with (((he | he) | he) | he) | he <;> exact .inr ⟨_, by decide, loc_of_mem_errorsOf he⟩
  | _ =>
      obtain rfl := Except.error.inj h
      refine ⟨by simp, fun e he => .inl ?_⟩
      obtain rfl := List.mem_singleton.mp he
      exact ⟨rfl, fun kvs hv => by cases hv⟩

/-! ## CallMessage -/

/-- A message of the queue. -/
structure CallMessage (C : Datetimes φ δ) where
  requestId : String
  version : String := "1"
  timestamp : δ
  data : CallRequest C

def readString (default : Option String) : Option (Value Units φ) → Option String
  | none => default
  | some (.str us) => us.toString?
  | some _ => none

namespace CallMessage

section

variable (C : Datetimes φ δ)

/-- `CallMessage.model_validate`, without the errors. -/
def validate : Value Units φ → Option (CallMessage C)
  | .obj kvs => do
      let requestId ← readString none (fieldOf "request_id" kvs)
      let version ← readString (some "1") (fieldOf "version" kvs)
      let timestamp ← C.validate (← fieldOf "timestamp" kvs)
      let data ← (CallRequest.validate C (← fieldOf "data" kvs)).toOption
      return ⟨requestId, version, timestamp, data⟩
  | _ => none

variable (F : FloatFormat φ)

/-- `CallMessage.model_validate_json`, whose reader takes no lone surrogates; `none` is a `ValidationError`. -/
def fromBody (body : String) : Option (CallMessage C) := (loadsStrings F body).bind fun v => validate C v.units

end

variable {C : Datetimes φ δ}

def dump (m : CallMessage C) : Value String φ :=
  .obj [("request_id", .str m.requestId), ("version", .str m.version), ("timestamp", .str (C.dump m.timestamp)),
    ("data", m.data.dump)]

/-- `json.loads(self.model_dump_json())` -/
def toBody (F : FloatFormat φ) (m : CallMessage C) : Option (Value String φ) :=
  loadsStrings F (dumps F .compact m.dump)

/-- What the worker reads of a message. -/
def received (m : CallMessage C) : Hailcast.CallMessage where
  requestId := m.requestId
  version := m.version
  timestamp := C.stamp m.timestamp
  requestedAt := m.data.requestedAt.map AwareTime.instant

end CallMessage

/-- The worker's `CallMessage.from_body`. -/
def workerFromBody (C : Datetimes φ δ) (F : FloatFormat φ) (body : String) : Option Hailcast.CallMessage :=
  (CallMessage.fromBody C F body).map CallMessage.received

/-- `json.dumps(body, ensure_ascii=False, default=str)`, the text that `send_message` publishes. -/
def messageBody (F : FloatFormat φ) (body : Value String φ) : String := dumps F .spaced body

theorem CallRequest.wellFormed_dump {C : Datetimes φ δ} (r : CallRequest C) : r.dump.WellFormed := by
  refine ⟨by simp, trivial, trivial, trivial, ?_, trivial, trivial⟩
  cases r.requestedAt <;> trivial

theorem CallMessage.wellFormed_dump {C : Datetimes φ δ} (m : CallMessage C) : m.dump.WellFormed :=
  ⟨by simp, trivial, trivial, trivial, m.data.wellFormed_dump, trivial⟩

theorem CallMessage.validate_dump {C : Datetimes φ δ} (m : CallMessage C) : validate C m.dump.units = some m := by
  unfold dump
  simp [Value.units, Value.unitsMembers, validate, fieldOf, Dict.lookup, readString, C.validate_dump,
    CallRequest.validate_dump, Except.toOption]

theorem CallMessage.toBody_eq {C : Datetimes φ δ} (F : FloatFormat φ) (m : CallMessage C) :
    m.toBody F = some m.dump := loadsStrings_dumps .compact m.wellFormed_dump

/-- The text of a message is read back as the message. -/
theorem CallMessage.fromBody_dump {C : Datetimes φ δ} (F : FloatFormat φ) (m : CallMessage C) :
    fromBody C F (messageBody F m.dump) = some m := by
  unfold fromBody messageBody
  rw [loadsStrings_dumps .spaced m.wellFormed_dump]
  exact m.validate_dump

end Hailcast.CallApi
