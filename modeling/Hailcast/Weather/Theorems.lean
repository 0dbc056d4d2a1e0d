import Hailcast.Weather.Collection

/-!
# The weather CSV between the two services

Which forecasts the reader of the CSV gets back, and which replies of the API a collection survives.
-/

namespace Hailcast

namespace WeatherService

/-- The CSV gives the reader its rows exactly if every point has a time in whole seconds and both of its values, as
numbers that its columns can hold. -/
theorem weather_csv_contract_iff (cfg : WeatherSettings) (env : WeatherEnv) (s : WeatherState)
    (points : List ForecastPoint) (hfetch : fetchWithRetry cfg env.reply = .ok points)
    (hwrite : env.writeFault = none) : ContractKept cfg env s points ↔ ∀ p ∈ points, p.Complete := by
  rw [contractKept_decodes hfetch hwrite]
  constructor
  · rintro ⟨rows, hdecodes, hrows⟩
    exact (isRows_iff hdecodes).mp hrows
  · intro h
    obtain ⟨rows, hdecodes⟩ := rows_of_complete h
    exact ⟨rows, hdecodes, (isRows_iff hdecodes).mpr h⟩

/-- A payload with this `minutely_15` block. -/
def blockReply (block : List (String × ApiJson)) : HttpReply := .json (.obj [("minutely_15", .obj block)])

/-- Two half hours and the quarter between them, with these temperatures. -/
def forecastReply (temperatures : List ApiJson) : HttpReply :=
  blockReply [("time", .arr [.str "2026-08-01T07:00", .str "2026-08-01T07:15", .str "2026-08-01T07:30"]),
    ("temperature_2m", .arr temperatures), ("relative_humidity_2m", .arr [.int 60, .int 61, .int 62]),
    ("precipitation", .arr [.int 0, .int 0, .int 1])]

def forecastPointsOf (second : ApiJson) : List ForecastPoint :=
  [⟨"2026-08-01T07:00", .float (.fin (41 / 2)), .int 60, false⟩, ⟨"2026-08-01T07:30", second, .int 62, true⟩]

def fullEnv : WeatherEnv where
  reply := fun _ => forecastReply [.float (.fin (41 / 2)), .float (.fin 21), .float (.fin (43 / 2))]

theorem weather_csv_contract_full : ContractKept {} fullEnv {} (forecastPointsOf (.float (.fin (43 / 2)))) := by
  refine (weather_csv_contract_iff {} fullEnv {} (forecastPointsOf (.float (.fin (43 / 2)))) rfl rfl).mpr ?_
  intro p hp
  simp only [forecastPointsOf, List.mem_cons, List.not_mem_nil, or_false] at hp
  rcases hp with rfl | rfl <;>
    exact ⟨⟨_, rfl, rfl⟩, ⟨_, rfl, by simp⟩, _, rfl, by decide +kernel⟩

/-- The array of the temperatures is one value short: the reader fails on the whole CSV. -/
theorem weather_csv_missing_temperature :
    let env : WeatherEnv := { reply := fun _ => forecastReply [.float (.fin (41 / 2)), .float (.fin 21)] }
    OpenMeteoAdapter.fetchForecast (env.reply 1) = .ok (forecastPointsOf .null) ∧
      (collect {} env {}).1 = .ok 2 ∧ loadWeatherRows (collect {} env {}).2.csv = .error .valueError ∧
      ¬ ContractKept {} env {} (forecastPointsOf .null) := by
  intro env
  have hload : loadWeatherRows (collect {} env {}).2.csv = .error .valueError := by rfl
  refine ⟨rfl, rfl, hload, ?_⟩
  rintro ⟨rows, _, hrows, _⟩
  rw [hload] at hrows
  cases hrows

open OpenMeteoAdapter

/-- A collection raises nothing and keeps the stored CSV when it has no point exactly if there is an attempt, and the
first reply that is not refused, if there is one, has half hours, which can all be written. -/
theorem weather_collect_harmless_iff (cfg : WeatherSettings) (env : WeatherEnv) (s : WeatherState)
    (hwrite : env.writeFault = none) :
    Harmless cfg env s ↔
      0 < cfg.weatherRetryCount ∧ ∀ k, 1 ≤ k → k ≤ cfg.weatherRetryCount →
        (∀ j, 1 ≤ j → j < k → Refused (env.reply j)) → Refused (env.reply k) ∨
          Usable (env.reply k) ∧ (HasHalfHour (env.reply k) ∨ s.csv = some ⟨csvFields, []⟩) := by
  rcases fetchFrom_cases env.reply cfg.weatherRetryCount 1 none with
    ⟨hall, hend⟩ | ⟨k, hk, hk', hall, hdecides, hsame⟩
  · rcases hend with ⟨hzero, _⟩ | ⟨message, hexternal⟩
    · have hraised : fetchWithRetry cfg env.reply = .error (.raised .typeError) := by
        rw [fetchWithRetry, hzero]
        rfl
      exact iff_of_false (not_harmless_of_raised hraised) fun h => by omega
    · refine iff_of_true (harmless_of_external hexternal) ⟨?_, fun k hk hk' _ => Or.inl (hall k hk (by omega))⟩
      rcases Nat.eq_zero_or_pos cfg.weatherRetryCount with hzero | hpos
      · rw [hzero] at hexternal
        cases hexternal
      · exact hpos
  · rw [harmless_iff_of_reply hwrite hsame hdecides]
    constructor
    · intro hreply
      refine ⟨by omega, fun k' hk₁ _ hbefore => ?_⟩
      rcases lt_trichotomy k' k with hlt | rfl | hgt
      · exact Or.inl (hall k' hk₁ hlt)
      · exact Or.inr hreply
      · exact absurd (hbefore k hk hgt) hdecides
    · rintro ⟨_, h⟩
      exact (h k hk (by omega) hall).resolve_left hdecides

/-- The first attempt fails, and the second is answered. -/
theorem weather_collect_harmless_second :
    Harmless {} { reply := fun k => if k = 1 then .httpError "timed out" else forecastReply [.int 20] } {} := by
  refine (weather_collect_harmless_iff {} _ {} rfl).mpr ⟨by decide, fun k hk _ _ => ?_⟩
  by_cases hfirst : k = 1
  · simp [hfirst, Refused]
  · have husable : Usable (forecastReply [.int 20]) := usable_iff.mpr ⟨_, _, rfl, rfl⟩
    have hhalf : HasHalfHour (forecastReply [.int 20]) := (hasHalfHour_iff rfl).mpr (List.cons_ne_nil _ _)
    simp only [hfirst, ↓reduceIte]
    exact Or.inr ⟨husable, Or.inl hhalf⟩

/-- A stored CSV with one row. -/
def storedCsv : WeatherCsv :=
  ⟨csvFields, [[.text "2026-08-01 07:00:00", .int 6, .float (.fin (41 / 2)), .int 60, .int 0]]⟩

/-- With no times in the answer the stored row is gone, and a precipitation of `null` raises. -/
theorem weather_collect_harms :
    ¬ Harmless {} { reply := fun _ => blockReply [("time", .arr [])] } { csv := some storedCsv } ∧
      (collect {} { reply := fun _ => blockReply [("time", .arr [.str "2026-08-01T07:00"]),
        ("precipitation", .arr [.null])] } { csv := some storedCsv }).1 = .error .typeError := by
  refine ⟨?_, rfl⟩
  rintro ⟨_, hunchanged⟩
  have hcsv := (hunchanged fun points hpoints => (Except.ok.inj hpoints).symm).2
  cases hcsv

end WeatherService

end Hailcast
