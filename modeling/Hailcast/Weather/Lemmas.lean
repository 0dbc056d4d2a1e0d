import Hailcast.Weather.Service

/-!
# What the CSV keeps of a forecast
-/

namespace Hailcast

/-! ## Rounding -/

theorem pyRound_intCast (n : Int) (digits : Nat) : pyRound (n : ℚ) digits = n := by
  have hscaled : (n : ℚ) * 10 ^ digits = ((n * 10 ^ digits : Int) : ℚ) := by push_cast; rfl
  rw [pyRound, hscaled, roundHalfEven_intCast]
  push_cast
  exact mul_div_cancel_right₀ _ (by positivity)

/-! ## One point -/

/-- The number that a value counts as. -/
def ApiJson.number : ApiJson → Option ExtRat
  | .bool b => some (.fin (if b then 1 else 0))
  | .int n => some (.fin n)
  | .float x => some x
  | _ => none

def ApiJson.isNull : ApiJson → Bool
  | .null => true
  | _ => false

/-- A finite number. -/
def ApiJson.Finite (x : ApiJson) : Prop := ∃ q, x.number = some (.fin q)

/-- The integer is a float: its digits are read as itself. -/
def IsFloat (n : Int) : Prop := ExtRat.ofRat n = .fin n

instance (n : Int) : Decidable (IsFloat n) := inferInstanceAs (Decidable (_ = _))

namespace ForecastPoint

/-- Neither value is `None`. -/
def hasBoth (p : ForecastPoint) : Bool := !p.temperature.isNull && !p.humidity.isNull

/-- The row has the wall-clock time of the point, its rounded values and its rain flag. -/
structure IsRow (p : ForecastPoint) (row : ParsedRow) : Prop where
  time : ∃ dt, Datetime.fromisoformat p.time = .ok dt ∧ row.time = dt.wall
  temperature : ∃ x, p.temperature.number = some x ∧ row.temperature = WeatherService.roundTenth x
  humidity : ∃ q, p.humidity.number = some (.fin q) ∧ row.humidity = .fin (roundHalfEven q)
  isRaining : row.isRaining = p.isRaining

/-- A time in whole seconds, a temperature that is a number, and a humidity that is a finite one; where one of them is
written as an integer, it is a float. -/
structure Complete (p : ForecastPoint) : Prop where
  time : ∃ dt, Datetime.fromisoformat p.time = .ok dt ∧ dt.microsecond = 0
  temperature : ∃ x, p.temperature.number = some x ∧ ∀ n, p.temperature = .int n → IsFloat n
  humidity : ∃ q, p.humidity.number = some (.fin q) ∧ IsFloat (roundHalfEven q)

end ForecastPoint

namespace WeatherService

variable {p : ForecastPoint} {row : ParsedRow} {x : ApiJson} {cell : Cell} {cells : List Cell} {y : ExtRat}

/-! ## One row -/

theorem temperatureCell_iff : (∃ cell, temperatureCell x = .ok cell) ↔ x.isNull ∨ x.number.isSome := by
  cases x <;> simp [temperatureCell, roundedCell, ApiJson.isNull, ApiJson.number]

theorem humidityCell_iff : (∃ cell, humidityCell x = .ok cell) ↔ x.isNull ∨ x.Finite := by
  cases x with
  | float y =>
      cases y <;>
        simp [humidityCell, roundedCell, roundWhole, Except.map, ApiJson.isNull, ApiJson.Finite, ApiJson.number]
  | _ => simp [humidityCell, roundedCell, ApiJson.isNull, ApiJson.Finite, ApiJson.number]

/-- What the reader finds in the cell of a temperature. -/
def readTenth : ApiJson → Option ExtRat
  | .bool b => some (.fin (if b then 1 else 0))
  | .int n => some (.ofRat n)
  | .float x => some (roundTenth x)
  | _ => none

theorem toFloat_temperatureCell (h : temperatureCell x = .ok cell) :
    Cell.toFloat (some cell) = .ok y ↔ readTenth x = some y := by
  cases x with
  | null => cases h; simp [Cell.toFloat, readTenth]
  | bool b =>
      have hread : ExtRat.ofRat ((if b then 1 else 0 : Int) : ℚ) = .fin (if b then 1 else 0) := by
        cases b <;> decide +kernel
      cases h
      simp only [Cell.toFloat, readTenth, hread, Except.ok.injEq, Option.some.injEq]
  | int n => cases h; simp [Cell.toFloat, readTenth]
  | float x => cases h; simp [Cell.toFloat, readTenth]
  | str s => cases h
  | arr xs => cases h
  | obj kvs => cases h

theorem toFloat_humidityCell (h : humidityCell x = .ok cell) :
    Cell.toFloat (some cell) = .ok y ↔ ∃ q, x.number = some (.fin q) ∧ y = .ofRat (roundHalfEven q) := by
  cases x with
  | null => cases h; simp [Cell.toFloat, ApiJson.number]
  | bool b => cases h; cases b <;> simp [Cell.toFloat, ApiJson.number, roundHalfEven, eq_comm]
  | int n => cases h; simp [Cell.toFloat, ApiJson.number, eq_comm]
  | float x =>
      cases x with
      | fin q => cases h; simp [Cell.toFloat, ApiJson.number, eq_comm]
      | inf negative => cases h
      | nan => cases h
  | str s => cases h
  | arr xs => cases h
  | obj kvs => cases h

theorem isSome_of_readTenth (h : readTenth x = some y) : x.number.isSome := by
  cases x <;> first | rfl | cases h

/-- The reader finds the rounded temperature, except for an integer that is no float. -/
theorem tenth_iff (h : readTenth x = some y) :
    (∃ value, x.number = some value ∧ y = roundTenth value) ↔
      ∃ value, x.number = some value ∧ ∀ n, x = .int n → IsFloat n := by
  cases x with
  | int n =>
      obtain rfl := Option.some.inj h
      simp only [ApiJson.number, Option.some.injEq, exists_eq_left', roundTenth, pyRound_intCast, ApiJson.int.injEq,
        forall_eq', IsFloat]
  | bool b =>
      obtain rfl := Option.some.inj h
      have hround : roundTenth (.fin (if b then 1 else 0)) = .fin (if b then 1 else 0) := by
        cases b <;> decide +kernel
      exact iff_of_true ⟨_, rfl, hround.symm⟩ ⟨_, rfl, by simp⟩
  | float value =>
      obtain rfl := Option.some.inj h
      exact iff_of_true ⟨value, rfl, rfl⟩ ⟨value, rfl, by simp⟩
  | _ => cases h

theorem loadWeatherRow_cells (date weekday temperature humidity rain : Cell) :
    loadWeatherRow csvFields [date, weekday, temperature, humidity, rain] = (do
      let dt ← Cell.toDatetime (some date)
      let temperature ← Cell.toFloat (some temperature)
      let humidity ← Cell.toFloat (some humidity)
      let rain ← Cell.toInt (some rain)
      return ⟨dt.wall, temperature, humidity, decide (rain ≠ 0)⟩) := by
  have hdate : rowField csvFields [date, weekday, temperature, humidity, rain] "날짜" = .ok (some date) := rfl
  have htemperature :
      rowField csvFields [date, weekday, temperature, humidity, rain] "온도" = .ok (some temperature) := rfl
  have hhumidity : rowField csvFields [date, weekday, temperature, humidity, rain] "습도" = .ok (some humidity) := rfl
  have hrain : rowField csvFields [date, weekday, temperature, humidity, rain] "강수유무" = .ok (some rain) := rfl
  simp only [loadWeatherRow, hdate, htemperature, hhumidity, hrain, bind, Except.bind]

/-- What the reader makes of the row of a point. -/
theorem decodes_iff :
    (toRow p >>= loadWeatherRow csvFields) = .ok row ↔
      ∃ dt y q, Datetime.fromisoformat p.time = .ok dt ∧ readTenth p.temperature = some y ∧
        p.humidity.number = some (.fin q) ∧
        row = ⟨dt.wholeSeconds.wall, y, .ofRat (roundHalfEven q), p.isRaining⟩ := by
  have hrain : decide ((if p.isRaining then (1 : Int) else 0) ≠ 0) = p.isRaining := by cases p.isRaining <;> rfl
  constructor
  · intro h
    obtain ⟨cells, hcells, hload⟩ := bind_eq_ok h
    obtain ⟨dt, hdt, hcells⟩ := bind_eq_ok hcells
    obtain ⟨temperature, htemperature, hcells⟩ := bind_eq_ok hcells
    obtain ⟨humidity, hhumidity, hcells⟩ := bind_eq_ok hcells
    obtain rfl := Except.ok.inj hcells
    rw [loadWeatherRow_cells] at hload
    obtain ⟨time, htime, hload⟩ := bind_eq_ok hload
    obtain ⟨y, hy, hload⟩ := bind_eq_ok hload
    obtain ⟨z, hz, hload⟩ := bind_eq_ok hload
    obtain rfl := Except.ok.inj ((Datetime.strptime_strftime dt).symm.trans htime)
    obtain ⟨q, hq, rfl⟩ := (toFloat_humidityCell hhumidity).mp hz
    refine ⟨dt, y, q, hdt, (toFloat_temperatureCell htemperature).mp hy, hq, ?_⟩
    rw [← hrain]
    exact (Except.ok.inj hload).symm
  · rintro ⟨dt, y, q, hdt, hy, hq, rfl⟩
    obtain ⟨temperature, htemperature⟩ : ∃ cell, temperatureCell p.temperature = .ok cell :=
      temperatureCell_iff.mpr (Or.inr (isSome_of_readTenth hy))
    obtain ⟨humidity, hhumidity⟩ : ∃ cell, humidityCell p.humidity = .ok cell :=
      humidityCell_iff.mpr (Or.inr ⟨q, hq⟩)
    have hcells : toRow p = .ok [.text dt.strftime, .int (weekdaySundayZero dt), temperature, humidity,
        .int (if p.isRaining then 1 else 0)] := by
      simp only [toRow, hdt, htemperature, hhumidity, bind, Except.bind]
      rfl
    have htime : Cell.toDatetime (some (.text dt.strftime)) = .ok dt.wholeSeconds := Datetime.strptime_strftime dt
    rw [hcells]
    simp only [bind, Except.bind]
    rw [loadWeatherRow_cells]
    simp only [htime, (toFloat_temperatureCell htemperature).mpr hy, (toFloat_humidityCell hhumidity).mpr ⟨q, hq, rfl⟩,
      bind, Except.bind, Cell.toInt, hrain]
    rfl

theorem hasBoth_of_number (ht : p.temperature.number.isSome) (hh : p.humidity.number.isSome) : p.hasBoth = true := by
  have hnull : ∀ {x : ApiJson}, x.number.isSome → x.isNull = false := by
    intro x hx
    cases x with
    | null => cases hx
    | _ => rfl
  simp [ForecastPoint.hasBoth, hnull ht, hnull hh]

theorem isRow_of_decodes (h : (toRow p >>= loadWeatherRow csvFields) = .ok row) :
    p.hasBoth = true ∧ (p.IsRow row ↔ p.Complete) := by
  obtain ⟨dt, y, q, hdt, hy, hq, rfl⟩ := decodes_iff.mp h
  refine ⟨hasBoth_of_number (isSome_of_readTenth hy) (by rw [hq]; rfl), ?_⟩
  constructor
  · rintro ⟨⟨dt', hdt', htime⟩, htemperature, ⟨q', hq', hhumidity⟩, _⟩
    obtain rfl := Except.ok.inj (hdt.symm.trans hdt')
    cases hq.symm.trans hq'
    refine ⟨⟨dt, hdt, ?_⟩, (tenth_iff hy).mp htemperature, q, hq, hhumidity⟩
    have hwall := dt.wall_wholeSeconds
    have htime : dt.wholeSeconds.wall = dt.wall := htime
    omega
  · rintro ⟨⟨dt', hdt', hmicros⟩, htemperature, ⟨q', hq', hfloat⟩⟩
    obtain rfl := Except.ok.inj (hdt.symm.trans hdt')
    cases hq.symm.trans hq'
    refine ⟨⟨dt, hdt, ?_⟩, (tenth_iff hy).mpr htemperature, ⟨q, hq, hfloat⟩, rfl⟩
    have hwall := dt.wall_wholeSeconds
    rw [hmicros] at hwall
    simpa using hwall

theorem decodes_of_complete (h : p.Complete) : ∃ row, (toRow p >>= loadWeatherRow csvFields) = .ok row := by
  obtain ⟨⟨dt, hdt, _⟩, ⟨value, hvalue, _⟩, q, hq, _⟩ := h
  obtain ⟨y, hy⟩ : ∃ y, readTenth p.temperature = some y := by
    revert hvalue
    cases p.temperature <;> simp [readTenth, ApiJson.number]
  exact ⟨_, decodes_iff.mpr ⟨dt, y, q, hdt, hy, hq, rfl⟩⟩

/-! ## The whole forecast -/

variable {points : List ForecastPoint} {cfg : WeatherSettings} {env : WeatherEnv} {s : WeatherState}

/-- The reader of the written CSV has a row for every point with both values, in their order. -/
def ContractKept (cfg : WeatherSettings) (env : WeatherEnv) (s : WeatherState) (points : List ForecastPoint) : Prop :=
  ∃ rows, (collect cfg env s).1 = .ok points.length ∧ loadWeatherRows (collect cfg env s).2.csv = .ok rows ∧
    List.Forall₂ ForecastPoint.IsRow (points.filter ForecastPoint.hasBoth) rows

theorem toRow_ne_nil (h : toRow p = .ok cells) : cells ≠ [] := by
  obtain ⟨dt, _, h⟩ := bind_eq_ok h
  obtain ⟨temperature, _, h⟩ := bind_eq_ok h
  obtain ⟨humidity, _, h⟩ := bind_eq_ok h
  obtain rfl := Except.ok.inj h
  exact List.cons_ne_nil _ _

theorem rows_ne_nil {rows : List (List Cell)} (h : List.Forall₂ (fun p row => toRow p = .ok row) points rows) :
    ∀ cells ∈ rows, cells ≠ [] := by
  induction h with
  | nil => simp
  | cons hcells _ ih => simpa [toRow_ne_nil hcells] using ih

/-- A call that writes the CSV returns the number of the points. -/
theorem collect_rows (hfetch : fetchWithRetry cfg env.reply = .ok points) (hwrite : env.writeFault = none) :
    (∃ rows, points.mapM toRow = .ok rows ∧
        collect cfg env s = (.ok points.length, ⟨some ⟨csvFields, rows⟩, some points.length⟩)) ∨
      ∃ exc, points.mapM toRow = .error exc ∧ collect cfg env s = (.error exc, s) := by
  unfold collect
  simp only [hfetch, hwrite]
  cases hrows : points.mapM toRow with
  | error exc => exact Or.inr ⟨exc, rfl, rfl⟩
  | ok rows =>
      have hlength := (mapM_eq_ok_iff.mp hrows).length_eq
      exact Or.inl ⟨rows, rfl, by rw [hlength]⟩

theorem loadWeatherRows_toRow {rows : List (List Cell)} (hrows : points.mapM toRow = .ok rows) :
    loadWeatherRows (some ⟨csvFields, rows⟩) = rows.mapM (loadWeatherRow csvFields) := by
  have hall : rows.filter (fun row => !row.isEmpty) = rows :=
    List.filter_eq_self.mpr fun cells hcells => by simpa using rows_ne_nil (mapM_eq_ok_iff.mp hrows) cells hcells
  rw [loadWeatherRows, hall]

theorem contractKept_decodes (hfetch : fetchWithRetry cfg env.reply = .ok points) (hwrite : env.writeFault = none) :
    ContractKept cfg env s points ↔
      ∃ rows, List.Forall₂ (fun p row => (toRow p >>= loadWeatherRow csvFields) = .ok row) points rows ∧
        List.Forall₂ ForecastPoint.IsRow (points.filter ForecastPoint.hasBoth) rows := by
  simp only [← mapM_mapM_iff]
  rcases collect_rows (s := s) hfetch hwrite with ⟨cells, hcells, hcollect⟩ | ⟨exc, herror, hcollect⟩
  · simp only [ContractKept, hcollect, true_and, hcells, Except.ok.injEq, exists_eq_left']
    simp only [loadWeatherRows_toRow hcells]
  · simp [ContractKept, hcollect, herror]

/-- The rows of complete points are read back; of others there is none, or it has not the time of the point. -/
theorem isRows_iff {rows : List ParsedRow}
    (h : List.Forall₂ (fun p row => (toRow p >>= loadWeatherRow csvFields) = .ok row) points rows) :
    List.Forall₂ ForecastPoint.IsRow (points.filter ForecastPoint.hasBoth) rows ↔ ∀ p ∈ points, p.Complete := by
  induction h with
  | nil => simp
  | cons hdecode _ ih =>
      obtain ⟨hboth, hrow⟩ := isRow_of_decodes hdecode
      rw [List.filter_cons_of_pos hboth, List.forall₂_cons, hrow, ih]
      simp

theorem rows_of_complete (h : ∀ p ∈ points, p.Complete) :
    ∃ rows, List.Forall₂ (fun p row => (toRow p >>= loadWeatherRow csvFields) = .ok row) points rows := by
  obtain ⟨rows, hrows, _⟩ := mapM_ok (f := fun p => toRow p >>= loadWeatherRow csvFields) (R := fun _ _ => True)
    fun p hp => (decodes_of_complete (h p hp)).imp fun row hrow => ⟨hrow, trivial⟩
  exact ⟨rows, mapM_eq_ok_iff.mp hrows⟩

end WeatherService

end Hailcast
