import Hailcast.Training.Dataset
import Hailcast.Weather.Lemmas

/-!
# What the model is trained on
-/

namespace Hailcast

/-! ## Features of an hour -/

namespace Features

theorem hourOf_seconds (wall : Int) : hourOf (wall / 1000000 * 1000000) = hourOf wall := by
  simp only [hourOf, hourMicros]
  omega

theorem hourOf_floorToHour (wall : Int) : hourOf (floorToHour wall) = hourOf wall := by
  simp only [hourOf, floorToHour, hourMicros]
  omega

theorem weekdaySundayZero_floorToHour (wall : Int) : weekdaySundayZero (floorToHour wall) = weekdaySundayZero wall := by
  simp only [weekdaySundayZero, weekdayOf, floorToHour, hourMicros, dayMicros]
  omega

end Features

theorem buildFeatures_floorToHour (wall : Int) (temperature humidity : ℚ) (isRaining : Bool) :
    buildFeatures (floorToHour wall) temperature humidity isRaining =
      buildFeatures wall temperature humidity isRaining := by
  simp [buildFeatures, Features.hourOf_floorToHour, Features.weekdaySundayZero_floorToHour]

/-! ## Two roundings to a tenth -/

/-- A temperature nearer to a tenth of a degree than a fortieth. -/
def NearTenth (x : ℚ) : Prop := |x| < 2 ^ 40 ∧ ∃ n : Int, |x - n / 10| < 1 / 40

/-- `round(x, 1)` and `Series.round(1)` agree near the tenths. -/
theorem seriesRound_eq_pyRound {x : ℚ} (h : NearTenth x) : seriesRound x = pyRound x 1 := by
  obtain ⟨hbound, n, hn⟩ := h
  rw [abs_lt] at hn
  have hexact : roundHalfEven (x * 10 ^ 1) = n := roundHalfEven_eq (abs_lt.mpr ⟨by linarith, by linarith⟩)
  have hrounded : roundHalfEven (FloatFormat.binary64.round (x * 10)) = n := by
    have hscaled : |x * 10| < ((FloatFormat.binary64.base : ℕ) : ℚ) ^ (44 : Int) := by
      rw [abs_mul]
      calc |x| * |(10 : ℚ)| < 2 ^ 40 * 16 := by
            rw [abs_of_pos (by norm_num : (0 : ℚ) < 10)]
            linarith
        _ = ((FloatFormat.binary64.base : ℕ) : ℚ) ^ (44 : Int) := by decide +kernel
    have hunit : FloatFormat.binary64.unit (x * 10) ≤ 1 / 512 :=
      (FloatFormat.unit_le (by decide) hscaled).trans_eq (by decide +kernel)
    have herror := abs_le.mp (FloatFormat.abs_round_sub_le FloatFormat.binary64 (x * 10))
    exact roundHalfEven_eq (abs_lt.mpr ⟨by linarith, by linarith⟩)
  rw [seriesRound, pyRound, hexact, hrounded, pow_one]

/-- The float 0.35 is below the half, and ten times it is rounded to the half. -/
example : seriesRound (FloatFormat.binary64.round (35 / 100)) = 4 / 10 ∧
    pyRound (FloatFormat.binary64.round (35 / 100)) 1 = 3 / 10 := by decide +kernel

/-! ## Rows of the data set -/

namespace MergedRow

variable {row : MergedRow} {out : DatasetRow}

theorem toOut_eq_ok (h : row.toOut = .ok out) :
    ∃ dt count temperature humidity precipitation, row.1 = ⟨some dt, some count⟩ ∧
      row.temperature = some temperature ∧ row.humidity = some humidity ∧ row.precipitation = some precipitation ∧
      out.label = truncate count ∧ out.date = dt / 1000000 * 1000000 ∧
      out.features =
        buildFeatures dt (seriesRound temperature) (roundHalfEven humidity) (decide (0 < precipitation)) := by
  obtain ⟨⟨pickup, count⟩, weather⟩ := row
  unfold toOut at h
  split at h
  · rename_i dt count temperature humidity precipitation hdt hcount htemperature hhumidity hprecipitation
    obtain rfl := Except.ok.inj h
    simp only at hdt hcount
    subst hdt hcount
    refine ⟨dt, count, temperature, humidity, precipitation, rfl, htemperature, hhumidity, hprecipitation, rfl, rfl, ?_⟩
    simp [DatasetRow.features, PredictBatch.BatchRow.features, buildFeatures, Features.hourOf_seconds]
  · cases h

theorem toOut_isOk (hna : row.isna = false) :
    (∃ out, row.toOut = .ok out) ↔ row.1.pickupTimestamp.isSome ∧ row.1.passengerCount.isSome := by
  obtain ⟨⟨pickup, count⟩, weather⟩ := row
  simp only [isna, Bool.or_eq_false_iff, Option.isNone_eq_false_iff, Option.isSome_iff_exists] at hna
  obtain ⟨⟨⟨temperature, ht⟩, humidity, hh⟩, precipitation, hp⟩ := hna
  cases pickup <;> cases count <;> simp [toOut, ht, hh, hp]

end MergedRow

variable {taxi : List TaxiRow} {weather : List ArchiveRow} {rows : List DatasetRow}

def TaxiRow.hour (row : TaxiRow) : Option Int := row.pickupTimestamp.map floorToHour

/-- The weather of its hour. -/
def TaxiRow.weatherIn (row : TaxiRow) (weather : List ArchiveRow) : Option ArchiveRow :=
  LeftJoin.partner TaxiRow.hour ArchiveRow.hour weather row

theorem mergeWeather_eq (hn : (weather.map ArchiveRow.hour).Nodup) :
    mergeWeather taxi weather = taxi.map fun row => (row, row.weatherIn weather) := LeftJoin.eq_map hn

theorem buildDataset_eq_ok (hn : (weather.map ArchiveRow.hour).Nodup) :
    buildDataset taxi weather = .ok rows ↔ (∀ row ∈ taxi, MergedRow.isna (row, row.weatherIn weather) = false) ∧
      List.Forall₂ (fun row out => MergedRow.toOut (row, row.weatherIn weather) = .ok out) taxi rows := by
  rw [buildDataset, mergeWeather_eq hn]
  simp only [List.any_map]
  split
  · rename_i hany
    simp only [reduceCtorEq, false_iff, not_and]
    intro hna
    obtain ⟨row, hrow, hisna⟩ := List.any_eq_true.mp hany
    exact absurd (hna row hrow) (by simpa using hisna)
  · rename_i hnone
    have hna : ∀ row ∈ taxi, MergedRow.isna (row, row.weatherIn weather) = false := by simpa using hnone
    rw [mapM_eq_ok_iff, List.forall₂_map_left_iff]
    exact ⟨fun h => ⟨hna, h⟩, And.right⟩

/-! ## The examples -/

structure TrainingExample where
  time : Int
  features : Features
  label : ℚ

def DatasetRow.toExample (row : DatasetRow) : TrainingExample := ⟨row.date, row.features, row.label⟩

/-- The example of a taxi row has its count, and the features of its hour and weather. They are those with which the
service asks the model in such an hour, for a complete point of a forecast with the same measurements, exactly if the
two roundings to a tenth give that temperature the same value. -/
def TrainedAs (weather : List ArchiveRow) (row : TaxiRow) (ex : TrainingExample) : Prop :=
  ∃ dt count temperature humidity precipitation, row = ⟨some dt, some count⟩ ∧
    ⟨floorToHour dt, some temperature, some humidity, some precipitation⟩ ∈ weather ∧
    ex.time = dt / 1000000 * 1000000 ∧ ex.label = truncate count ∧
    ex.features = buildFeatures dt (seriesRound temperature) (roundHalfEven humidity) (decide (0 < precipitation)) ∧
    ∀ (point : ForecastPoint) (served : WeatherRow), point.Complete →
      point.temperature.number = some (.fin temperature) → point.humidity.number = some (.fin humidity) →
      point.isRaining = decide (0 < precipitation) →
      (WeatherService.toRow point >>= loadWeatherRow WeatherService.csvFields) = .ok served.parsed →
      floorToHour served.time = floorToHour dt →
      (ex.features = buildFeatures (floorToHour served.time) served.temperature served.humidity served.isRaining ↔
        seriesRound temperature = pyRound temperature 1)

theorem trainedAs_of_toOut {row : TaxiRow} {out : DatasetRow}
    (h : MergedRow.toOut (row, row.weatherIn weather) = .ok out) : TrainedAs weather row out.toExample := by
  obtain ⟨dt, count, temperature, humidity, precipitation, hrow, ht, hh, hp, hlabel, hdate, hfeatures⟩ :=
    MergedRow.toOut_eq_ok h
  simp only at hrow
  have hmem : ⟨floorToHour dt, some temperature, some humidity, some precipitation⟩ ∈ weather := by
    cases hw : row.weatherIn weather with
    | none => simp [MergedRow.temperature, hw] at ht
    | some w =>
        obtain ⟨hmem, hkey⟩ := LeftJoin.partner_mem hw
        simp only [TaxiRow.hour, hrow, Option.map_some, Option.some.injEq] at hkey
        simp only [MergedRow.temperature, MergedRow.humidity, MergedRow.precipitation, hw, Option.bind_some] at ht hh hp
        rw [hkey, ← ht, ← hh, ← hp]
        exact hmem
  refine ⟨dt, count, temperature, humidity, precipitation, hrow, hmem, hdate, hlabel, hfeatures, ?_⟩
  intro point served hcomplete htemperature hhumidity hrain hserved hhour
  obtain ⟨_, ⟨x, hx, hxrow⟩, ⟨y, hy, hyrow⟩, hrow⟩ := (WeatherService.isRow_of_decodes hserved).2.mpr hcomplete
  obtain rfl := Option.some.inj (htemperature.symm.trans hx)
  cases hhumidity.symm.trans hy
  obtain ⟨time, t, r, rain⟩ := served
  obtain rfl : t = pyRound temperature 1 := ExtRat.fin.inj hxrow
  obtain rfl : r = roundHalfEven humidity := ExtRat.fin.inj hyrow
  obtain rfl : rain = point.isRaining := hrow
  have hex : out.toExample.features =
      buildFeatures dt (seriesRound temperature) (roundHalfEven humidity) (decide (0 < precipitation)) := hfeatures
  rw [hhour, buildFeatures_floorToHour, hrain, hex]
  exact ⟨fun h => congrArg Features.temperature h, fun h => by rw [h]⟩

/-! ## The split -/

theorem sliceTo_append_sliceFrom {α : Type} (n : Int) (xs : List α) : sliceTo n xs ++ sliceFrom n xs = xs := by
  unfold sliceTo sliceFrom
  split <;> exact List.take_append_drop _ xs

theorem truncate_ratio (n : Nat) : truncate (n * (1 - validRatio)) = ((n * 17 / 20 : Nat) : Int) := by
  have hvalue : (n : ℚ) * (1 - validRatio) = ((n * 17 : Nat) : ℚ) / ((20 : Nat) : ℚ) := by
    simp only [validRatio]
    push_cast
    ring
  have hnonneg : (0 : ℚ) ≤ ((n * 17 : Nat) : ℚ) / ((20 : Nat) : ℚ) := by positivity
  rw [truncate, hvalue, if_pos hnonneg, Rat.floor_natCast_div_natCast]
  rfl

variable {order : SortValues}

/-- Every row is in one part, and none of the first part is later than one of the second. -/
theorem timeBasedSplit_loadDataset (order : SortValues) (rows : List DatasetRow) :
    ∃ train valid, timeBasedSplit (loadDataset order rows) validRatio = (train, valid) ∧ (train ++ valid).Perm rows ∧
      train.length = rows.length * 17 / 20 ∧ ∀ a ∈ train, ∀ b ∈ valid, a.date ≤ b.date := by
  refine ⟨_, _, rfl, ?_, ?_, ?_⟩
  · rw [sliceTo_append_sliceFrom]
    exact order.perm rows
  · have hlength : (loadDataset order rows).length = rows.length := (order.perm rows).length_eq
    have hle : rows.length * 17 / 20 ≤ rows.length := by omega
    simp only [truncate_ratio, sliceTo, hlength, Int.natCast_nonneg, if_true, Int.toNat_natCast, List.length_take]
    exact min_eq_left hle
  · have hsorted := order.sorted rows
    rw [← sliceTo_append_sliceFrom (truncate ((loadDataset order rows).length * (1 - validRatio))) (order.sort rows),
      List.pairwise_append] at hsorted
    exact hsorted.2.2

/-- Of the rows that are merged, each is one example with the features of the service, up to the rounding of a
temperature that is not near a tenth, in one part of the split, and none that is trained on is later than one for
validation. -/
theorem trained_as_served (order : SortValues) (hn : (weather.map ArchiveRow.hour).Nodup)
    (h : buildDataset taxi weather = .ok rows) :
    ∃ examples train valid : List TrainingExample, List.Forall₂ (TrainedAs weather) taxi examples ∧
      (∀ temperature, NearTenth temperature → seriesRound temperature = pyRound temperature 1) ∧
      (train ++ valid).Perm examples ∧
      fitInput order rows = ⟨train.map TrainingExample.features, train.map TrainingExample.label,
        valid.map TrainingExample.features, valid.map TrainingExample.label⟩ ∧
      train.length = taxi.length * 17 / 20 ∧ ∀ a ∈ train, ∀ b ∈ valid, a.time ≤ b.time := by
  obtain ⟨-, hrows⟩ := (buildDataset_eq_ok hn).mp h
  obtain ⟨train, valid, hsplit, hperm, hlength, htimes⟩ := timeBasedSplit_loadDataset order rows
  refine ⟨rows.map DatasetRow.toExample, train.map DatasetRow.toExample, valid.map DatasetRow.toExample, ?_,
    fun _ => seriesRound_eq_pyRound, ?_, ?_, ?_, ?_⟩
  · rw [List.forall₂_map_right_iff]
    exact hrows.imp fun _ _ => trainedAs_of_toOut
  · rw [← List.map_append]
    exact hperm.map _
  · simp [fitInput, hsplit, Function.comp_def, DatasetRow.toExample]
  · rw [List.length_map, hlength, hrows.length_eq]
  · simpa [DatasetRow.toExample] using htimes

/-- Two half hours of one morning, and a third with a count too many hours before it. -/
def sampleTaxi : List TaxiRow :=
  [⟨some 1435739400000000, some 18000⟩, ⟨some 1435734000000000, some 9000⟩, ⟨some 1435737600000000, some 17000⟩]

def sampleWeather : List ArchiveRow :=
  [⟨1435734000000000, some (2117 / 100), some (81 / 2), some 0⟩, ⟨1435737600000000, some 22, some 79, some (3 / 10)⟩]

def sortByDate : SortValues where
  sort rows := rows.mergeSort fun a b => decide (a.date ≤ b.date)
  perm rows := List.mergeSort_perm rows _
  sorted rows := by
    have h : (rows.mergeSort fun a b => decide (a.date ≤ b.date)).Pairwise fun a b => decide (a.date ≤ b.date) :=
      List.pairwise_mergeSort (fun a b c hab hbc => by simp only [decide_eq_true_eq] at *; omega)
        (fun a b => by simp only [Bool.or_eq_true, decide_eq_true_eq]; omega) rows
    simpa using h

theorem trained_as_served_morning :
    ∃ rows, rows.length = 3 ∧ buildDataset sampleTaxi sampleWeather = .ok rows ∧
      ∃ examples train valid : List TrainingExample, List.Forall₂ (TrainedAs sampleWeather) sampleTaxi examples ∧
        (∀ temperature, NearTenth temperature → seriesRound temperature = pyRound temperature 1) ∧
        (train ++ valid).Perm examples ∧
        fitInput sortByDate rows = ⟨train.map TrainingExample.features, train.map TrainingExample.label,
          valid.map TrainingExample.features, valid.map TrainingExample.label⟩ ∧
        train.length = 2 ∧ ∀ a ∈ train, ∀ b ∈ valid, a.time ≤ b.time :=
  ⟨_, rfl, rfl, trained_as_served sortByDate (by decide) rfl⟩

/-! ## Which inputs are accepted -/

/-- The archive has every hour of these days once, with its three values. -/
structure ArchiveHourly.Covers (hourly : ArchiveHourly) (first last : Int) : Prop where
  temperatures : hourly.temperature2m.length = hourly.time.length
  humidities : hourly.relativeHumidity2m.length = hourly.time.length
  precipitations : hourly.precipitation.length = hourly.time.length
  distinct : hourly.time.Nodup
  hours : ∀ hour, floorToHour hour = hour → first ≤ hour / dayMicros → hour / dayMicros ≤ last → hour ∈ hourly.time
  noneMissing : ∀ x ∈ hourly.temperature2m ++ hourly.relativeHumidity2m ++ hourly.precipitation, x.isSome

def ArchiveRow.Complete (row : ArchiveRow) : Prop :=
  row.temperature.isSome ∧ row.humidity.isSome ∧ row.precipitation.isSome

theorem ArchiveHourly.Covers.fetched {hourly : ArchiveHourly} {first last : Int} (h : hourly.Covers first last) :
    ∃ weather, fetchWeather hourly = .ok weather ∧ weather.map ArchiveRow.hour = hourly.time ∧
      ∀ row ∈ weather, row.Complete := by
  obtain ⟨htemperature, hhumidity, hprecipitation, -, -, hsome⟩ := h
  refine ⟨_, by rw [fetchWeather, if_pos (by omega)], ?_, ?_⟩
  · rw [List.map_map]
    change (hourly.time.zip _).map Prod.fst = hourly.time
    exact List.map_fst_zip (by simp only [List.length_zip]; omega)
  · intro row hrow
    obtain ⟨⟨hour, t, q, p⟩, hmem, rfl⟩ := List.mem_map.mp hrow
    have hvalues := List.of_mem_zip hmem
    have hrest := List.of_mem_zip hvalues.2
    have hlast := List.of_mem_zip hrest.2
    exact ⟨hsome t (by simp [hrest.1]), hsome q (by simp [hlast.1]), hsome p (by simp [hlast.2])⟩

theorem exists_of_forall₂ {α β : Type} {R : α → β → Prop} {xs : List α} {ys : List β} (h : List.Forall₂ R xs ys)
    {x : α} (hx : x ∈ xs) : ∃ y, R x y := by
  induction h with
  | nil => simp at hx
  | cons hxy _ ih =>
      cases List.mem_cons.mp hx with
      | inl heq => exact ⟨_, heq ▸ hxy⟩
      | inr hx => exact ih hx

/-- A frame of complete rows is merged as a whole if it has the hour of each pickup. -/
theorem buildDataset_isOk (hn : (weather.map ArchiveRow.hour).Nodup) (hcomplete : ∀ row ∈ weather, row.Complete)
    (hhours : ∀ row ∈ taxi, ∀ dt, row.pickupTimestamp = some dt → floorToHour dt ∈ weather.map ArchiveRow.hour) :
    (∃ rows, buildDataset taxi weather = .ok rows) ↔
      ∀ row ∈ taxi, row.pickupTimestamp.isSome ∧ row.passengerCount.isSome := by
  constructor
  · rintro ⟨rows, hrows⟩ row hrow
    obtain ⟨hna, hout⟩ := (buildDataset_eq_ok hn).mp hrows
    exact (MergedRow.toOut_isOk (hna row hrow)).mp (exists_of_forall₂ hout hrow)
  · intro hsome
    have hna : ∀ row ∈ taxi, MergedRow.isna (row, row.weatherIn weather) = false := by
      intro row hrow
      obtain ⟨dt, hdt⟩ := Option.isSome_iff_exists.mp (hsome row hrow).1
      obtain ⟨w, hw, hhour⟩ := List.mem_map.mp (hhours row hrow dt hdt)
      have hpartner : row.weatherIn weather = some w :=
        LeftJoin.partner_of_mem hn hw (by simp [TaxiRow.hour, hdt, hhour])
      obtain ⟨ht, hh, hp⟩ := hcomplete w hw
      simp [MergedRow.isna, MergedRow.temperature, MergedRow.humidity, MergedRow.precipitation, hpartner, ht, hh, hp]
    have hout : ∀ row ∈ taxi, ∃ out, MergedRow.toOut (row, row.weatherIn weather) = .ok out ∧
        MergedRow.toOut (row, row.weatherIn weather) = .ok out := by
      intro row hrow
      obtain ⟨out, hout⟩ := (MergedRow.toOut_isOk (hna row hrow)).mpr (hsome row hrow)
      exact ⟨out, hout, hout⟩
    obtain ⟨rows, -, hrows⟩ := mapM_ok hout
    exact ⟨rows, (buildDataset_eq_ok hn).mpr ⟨hna, hrows⟩⟩

theorem floorToHour_idem (t : Int) : floorToHour (floorToHour t) = floorToHour t := by
  simp only [floorToHour, hourMicros]
  omega

theorem floorToHour_div_day (t : Int) : floorToHour t / dayMicros = t / dayMicros := by
  simp only [floorToHour, hourMicros, dayMicros]
  omega

/-- The weather that is asked for is that of all pickups: from an archive that has its days, preprocessing fails only
for a row without a time or a count, or without any row. -/
theorem preprocess_ok_iff {archive : Int → Int → Except DatasetError ArchiveHourly}
    (hcovers : ∀ first last, first ≤ last → ∃ hourly, archive first last = .ok hourly ∧ hourly.Covers first last) :
    (∃ rows, preprocess archive taxi = .ok rows) ↔
      taxi ≠ [] ∧ ∀ row ∈ taxi, row.pickupTimestamp.isSome ∧ row.passengerCount.isSome := by
  unfold preprocess
  cases hfirst : (taxi.filterMap TaxiRow.pickupTimestamp).min? with
  | none =>
      have hnil := List.min?_eq_none_iff.mp hfirst
      simp only [hfirst, reduceCtorEq, exists_false, false_iff, not_and, not_forall]
      intro hne
      obtain ⟨row, rest, rfl⟩ := List.exists_cons_of_ne_nil hne
      refine ⟨row, List.mem_cons_self, fun hpickup => ?_⟩
      simp only [List.filterMap_eq_nil_iff] at hnil
      simp [hnil row List.mem_cons_self] at hpickup
  | some first =>
      cases hlast : (taxi.filterMap TaxiRow.pickupTimestamp).max? with
      | none =>
          rw [List.max?_eq_none_iff] at hlast
          simp [hlast] at hfirst
      | some last =>
          have hbounds : ∀ row ∈ taxi, ∀ dt, row.pickupTimestamp = some dt → first ≤ dt ∧ dt ≤ last := by
            intro row hrow dt hdt
            have hmem : dt ∈ taxi.filterMap TaxiRow.pickupTimestamp := List.mem_filterMap.mpr ⟨row, hrow, hdt⟩
            exact ⟨(List.min?_eq_some_iff.mp hfirst).2 dt hmem, (List.max?_eq_some_iff.mp hlast).2 dt hmem⟩
          obtain ⟨row, hrow, hpickup⟩ := List.mem_filterMap.mp (List.min?_eq_some_iff.mp hfirst).1
          have hdays : first / dayMicros ≤ last / dayMicros :=
            Int.ediv_le_ediv (by decide) (hbounds row hrow first hpickup).2
          obtain ⟨hourly, hanswer, hcover⟩ := hcovers _ _ hdays
          obtain ⟨weather, hweather, hhours, hcomplete⟩ := hcover.fetched
          simp only [hfirst, hlast, hanswer, hweather, bind, Except.bind]
          rw [buildDataset_isOk (hhours ▸ hcover.distinct) hcomplete]
          · exact ⟨fun h => ⟨List.ne_nil_of_mem hrow, h⟩, And.right⟩
          · intro row hrow dt hdt
            obtain ⟨hfrom, hto⟩ := hbounds row hrow dt hdt
            rw [hhours]
            refine hcover.hours _ (floorToHour_idem dt) ?_ ?_
            · rw [floorToHour_div_day]
              exact Int.ediv_le_ediv (by decide) hfrom
            · rw [floorToHour_div_day]
              exact Int.ediv_le_ediv (by decide) hto

/-- An archive of steady weather. -/
def steadyArchive (first last : Int) : Except DatasetError ArchiveHourly :=
  let time := (List.range (24 * (last - first + 1)).toNat).map fun i : Nat => first * dayMicros + i * hourMicros
  let column (q : ℚ) := time.map fun _ => some q
  .ok ⟨time, column 20, column 60, column 0⟩

theorem steadyArchive_covers (first last : Int) :
    ∃ hourly, steadyArchive first last = .ok hourly ∧ hourly.Covers first last := by
  refine ⟨_, rfl, by simp, by simp, by simp, ?_, ?_, ?_⟩
  · refine List.nodup_range.map fun i j h => ?_
    simp only [hourMicros] at h
    omega
  · intro hour hfloor hfirst hlast
    simp only [floorToHour, hourMicros, dayMicros] at hfloor hfirst hlast
    refine List.mem_map.mpr ⟨((hour - first * dayMicros) / hourMicros).toNat, List.mem_range.mpr ?_, ?_⟩
    · simp only [hourMicros, dayMicros]
      omega
    · simp only [hourMicros, dayMicros]
      omega
  · intro x hx
    simp only [List.append_assoc, List.mem_append, List.mem_map] at hx
    rcases hx with ⟨_, _, rfl⟩ | ⟨_, _, rfl⟩ | ⟨_, _, rfl⟩ <;> rfl

theorem preprocess_ok_iff_steady :
    (∃ rows, preprocess steadyArchive sampleTaxi = .ok rows) ∧
      ¬ ∃ rows, preprocess steadyArchive (⟨none, some 5⟩ :: sampleTaxi) = .ok rows := by
  have hcovers := fun first last (_ : first ≤ last) => steadyArchive_covers first last
  rw [preprocess_ok_iff hcovers, preprocess_ok_iff hcovers]
  simp [sampleTaxi]

end Hailcast
