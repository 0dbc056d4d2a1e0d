import Hailcast.Weather.Lemmas

/-!
# Which replies a collection survives
-/

namespace Hailcast

/-! ## Replies -/

namespace OpenMeteoAdapter

variable {temps hums precs : ApiJson} {times : List ApiJson} {reply : HttpReply}

/-- The next attempt is made: the request has failed, or the answer is an object without the times of a `minutely_15`
block. -/
def Refused : HttpReply → Prop
  | .httpError _ => True
  | .json (.obj payload) =>
      ∀ block, Dict.lookup "minutely_15" payload = some (.obj block) → Dict.lookup "time" block = none
  | _ => False

/-- A half hour that can be written: its time is one, its values are numbers or missing, its humidity no infinity or
NaN, and its precipitation is a number if it is not beyond the end. -/
structure PointOk (temps hums precs : ApiJson) (i : Nat) (t : String) : Prop where
  time : ∃ dt, Datetime.fromisoformat t = .ok dt
  temperature : ∃ x, temps.itemOr i .null = .ok x ∧ (x.isNull ∨ x.number.isSome)
  humidity : ∃ x, hums.itemOr i .null = .ok x ∧ (x.isNull ∨ x.Finite)
  precipitation : ∃ x, precs.itemOr i (.int 0) = .ok x ∧ x.number.isSome

/-- The times from index `i` on are strings, and their half hours can be written. -/
def UsableFrom (temps hums precs : ApiJson) : Nat → List ApiJson → Prop
  | _, [] => True
  | i, .str t :: times =>
      (isHalfHourly t = true → PointOk temps hums precs i t) ∧ UsableFrom temps hums precs (i + 1) times
  | _, _ :: _ => False

/-- Every half hour of the reply can be written. -/
def Usable (reply : HttpReply) : Prop :=
  ∃ payload block times ts, reply = .json (.obj payload) ∧ Dict.lookup "minutely_15" payload = some (.obj block) ∧
    Dict.lookup "time" block = some times ∧ times.elements = .ok ts ∧
    UsableFrom (series block "temperature_2m") (series block "relative_humidity_2m") (series block "precipitation") 0 ts

/-- A `minutely_15` block of the reply has a half hour among its times. -/
def HasHalfHour (reply : HttpReply) : Prop :=
  ∃ payload block times ts t, reply = .json (.obj payload) ∧ Dict.lookup "minutely_15" payload = some (.obj block) ∧
    Dict.lookup "time" block = some times ∧ times.elements = .ok ts ∧ .str t ∈ ts ∧ isHalfHourly t = true

theorem refused_iff : Refused reply ↔ ∃ message, fetchForecast reply = .error (.external message) := by
  cases reply with
  | httpError message => exact iff_of_true trivial ⟨_, rfl⟩
  | notJson => exact iff_of_false id (by rintro ⟨_, h⟩; cases h)
  | json payload =>
      cases payload with
      | obj payload =>
          simp only [Refused, fetchForecast]
          cases hblock : Dict.lookup "minutely_15" payload with
          | none => simp
          | some block =>
              cases block with
              | obj block =>
                  cases htime : Dict.lookup "time" block with
                  | none => simp [htime]
                  | some times => cases hpoints : blockPoints block times <;> simp [htime, hpoints, Except.mapError]
              | _ => simp
      | _ => exact iff_of_false id (by rintro ⟨_, h⟩; cases h)

/-- A reply that gives points has times, and the points are made of them. -/
theorem fetchForecast_eq_ok {points : List ForecastPoint} :
    fetchForecast reply = .ok points ↔
      ∃ payload block times ts, reply = .json (.obj payload) ∧ Dict.lookup "minutely_15" payload = some (.obj block) ∧
        Dict.lookup "time" block = some times ∧ times.elements = .ok ts ∧
        pointsFrom (series block "temperature_2m") (series block "relative_humidity_2m") (series block "precipitation")
          0 ts = .ok points := by
  constructor
  · intro h
    unfold fetchForecast at h
    split at h
    · cases h
    · cases h
    · rename_i payload
      split at h
      · rename_i block hblock
        split at h
        · rename_i times htime
          cases hpoints : blockPoints block times with
          | error exc => rw [hpoints] at h; cases h
          | ok points' =>
              rw [hpoints] at h
              obtain rfl := Except.ok.inj h
              obtain ⟨ts, hts, hfrom⟩ := bind_eq_ok hpoints
              exact ⟨payload, block, times, ts, rfl, hblock, htime, hts, hfrom⟩
        · cases h
      · cases h
    · cases h
  · rintro ⟨payload, block, times, ts, rfl, hblock, htime, hts, hfrom⟩
    simp only [fetchForecast, hblock, htime, blockPoints, hts, bind, Except.bind, hfrom]
    rfl

end OpenMeteoAdapter

namespace WeatherService

open OpenMeteoAdapter

variable {p : ForecastPoint} {x : ApiJson} {temps hums precs : ApiJson} {times : List ApiJson} {reply : HttpReply}

theorem positive_iff : (∃ b, x.positive = .ok b) ↔ x.number.isSome := by
  cases x with
  | float x => cases x <;> simp [ApiJson.positive, ApiJson.number]
  | _ => simp [ApiJson.positive, ApiJson.number]

theorem toRow_iff :
    (∃ row, toRow p = .ok row) ↔ (∃ dt, Datetime.fromisoformat p.time = .ok dt) ∧
      (p.temperature.isNull ∨ p.temperature.number.isSome) ∧ (p.humidity.isNull ∨ p.humidity.Finite) := by
  rw [← temperatureCell_iff, ← humidityCell_iff]
  constructor
  · rintro ⟨row, h⟩
    obtain ⟨dt, hdt, h⟩ := bind_eq_ok h
    obtain ⟨temperature, htemperature, h⟩ := bind_eq_ok h
    obtain ⟨humidity, hhumidity, _⟩ := bind_eq_ok h
    exact ⟨⟨dt, hdt⟩, ⟨temperature, htemperature⟩, humidity, hhumidity⟩
  · rintro ⟨⟨dt, hdt⟩, ⟨temperature, htemperature⟩, humidity, hhumidity⟩
    simp [toRow, hdt, htemperature, hhumidity, bind, Except.bind, pure, Except.pure]

/-- The times are usable if their points are made and written. -/
theorem usableFrom_iff (i : Nat) :
    UsableFrom temps hums precs i times ↔
      ∃ points rows, pointsFrom temps hums precs i times = .ok points ∧ points.mapM toRow = .ok rows := by
  induction times generalizing i with
  | nil => exact iff_of_true trivial ⟨[], [], rfl, rfl⟩
  | cons t times ih =>
      cases t with
      | str t =>
          by_cases hhalf : isHalfHourly t = true
          · simp only [UsableFrom, pointsFrom, hhalf, ↓reduceIte, forall_const]
            constructor
            · rintro ⟨⟨htime, ⟨x, hx, hx'⟩, ⟨y, hy, hy'⟩, ⟨z, hz, hz'⟩⟩, hrest⟩
              obtain ⟨rain, hrain⟩ := positive_iff.mpr hz'
              obtain ⟨points, rows, hpoints, hrows⟩ := (ih (i + 1)).mp hrest
              obtain ⟨row, hrow⟩ := toRow_iff (p := ⟨t, x, y, rain⟩).mpr ⟨htime, hx', hy'⟩
              refine ⟨⟨t, x, y, rain⟩ :: points, row :: rows, ?_, ?_⟩
              · simp [hx, hy, hz, hrain, hpoints, bind, Except.bind, pure, Except.pure]
              · rw [List.mapM_cons, hrow, hrows]
                rfl
            · rintro ⟨points, rows, hpoints, hrows⟩
              obtain ⟨x, hx, hpoints⟩ := bind_eq_ok hpoints
              obtain ⟨y, hy, hpoints⟩ := bind_eq_ok hpoints
              obtain ⟨z, hz, hpoints⟩ := bind_eq_ok hpoints
              obtain ⟨rain, hrain, hpoints⟩ := bind_eq_ok hpoints
              obtain ⟨rest, hrest, hpoints⟩ := bind_eq_ok hpoints
              obtain rfl := Except.ok.inj hpoints
              rw [List.mapM_cons] at hrows
              obtain ⟨row, hrow, hrows⟩ := bind_eq_ok hrows
              obtain ⟨rows', hrows', _⟩ := bind_eq_ok hrows
              obtain ⟨htime, hx', hy'⟩ := toRow_iff.mp ⟨row, hrow⟩
              exact ⟨⟨htime, ⟨x, hx, hx'⟩, ⟨y, hy, hy'⟩, z, hz, positive_iff.mp ⟨rain, hrain⟩⟩,
                (ih (i + 1)).mpr ⟨rest, rows', hrest, hrows'⟩⟩
          · simp only [UsableFrom, pointsFrom, hhalf, Bool.false_eq_true, ↓reduceIte, false_implies, true_and]
            exact ih (i + 1)
      | _ => exact iff_of_false id (by rintro ⟨_, _, h, _⟩; cases h)

theorem usable_iff :
    Usable reply ↔ ∃ points rows, fetchForecast reply = .ok points ∧ points.mapM toRow = .ok rows := by
  simp only [Usable, fetchForecast_eq_ok, usableFrom_iff]
  constructor
  · rintro ⟨payload, block, times, ts, hreply, hblock, htime, hts, points, rows, hpoints, hrows⟩
    exact ⟨points, rows, ⟨payload, block, times, ts, hreply, hblock, htime, hts, hpoints⟩, hrows⟩
  · rintro ⟨points, rows, ⟨payload, block, times, ts, hreply, hblock, htime, hts, hpoints⟩, hrows⟩
    exact ⟨payload, block, times, ts, hreply, hblock, htime, hts, points, rows, hpoints, hrows⟩

theorem pointsFrom_ne_nil_iff {points : List ForecastPoint} {i : Nat}
    (h : pointsFrom temps hums precs i times = .ok points) :
    points ≠ [] ↔ ∃ t, .str t ∈ times ∧ isHalfHourly t = true := by
  induction times generalizing i points with
  | nil =>
      obtain rfl := Except.ok.inj h
      simp
  | cons t times ih =>
      cases t with
      | str t =>
          by_cases hhalf : isHalfHourly t = true
          · simp only [pointsFrom, hhalf, ↓reduceIte] at h
            obtain ⟨x, _, h⟩ := bind_eq_ok h
            obtain ⟨y, _, h⟩ := bind_eq_ok h
            obtain ⟨z, _, h⟩ := bind_eq_ok h
            obtain ⟨rain, _, h⟩ := bind_eq_ok h
            obtain ⟨rest, _, h⟩ := bind_eq_ok h
            obtain rfl := Except.ok.inj h
            exact iff_of_true (List.cons_ne_nil _ _) ⟨t, List.mem_cons_self, hhalf⟩
          · simp only [pointsFrom, hhalf] at h
            rw [ih h]
            constructor
            · rintro ⟨t', ht', hhalf'⟩
              exact ⟨t', List.mem_cons_of_mem _ ht', hhalf'⟩
            · rintro ⟨t', ht', hhalf'⟩
              rcases List.mem_cons.mp ht' with heq | ht'
              · obtain rfl := ApiJson.str.inj heq
                exact absurd hhalf' hhalf
              · exact ⟨t', ht', hhalf'⟩
      | _ => cases h

theorem hasHalfHour_iff {points : List ForecastPoint} (h : fetchForecast reply = .ok points) :
    HasHalfHour reply ↔ points ≠ [] := by
  obtain ⟨payload, block, times, ts, rfl, hblock, htime, hts, hpoints⟩ := fetchForecast_eq_ok.mp h
  rw [pointsFrom_ne_nil_iff hpoints]
  constructor
  · rintro ⟨payload', block', times', ts', t, hreply, hblock', htime', hts', ht, hhalf⟩
    cases hreply
    cases hblock.symm.trans hblock'
    cases htime.symm.trans htime'
    cases hts.symm.trans hts'
    exact ⟨t, ht, hhalf⟩
  · rintro ⟨t, ht, hhalf⟩
    exact ⟨payload, block, times, ts, t, rfl, hblock, htime, hts, ht, hhalf⟩

/-! ## Attempts -/

variable {cfg : WeatherSettings} {env : WeatherEnv} {s : WeatherState}

/-- Every attempt is refused, or the first that is not decides. -/
theorem fetchFrom_cases (reply : Nat → HttpReply) (left attempt : Nat) (last : Option String) :
    ((∀ k, attempt ≤ k → k < attempt + left → Refused (reply k)) ∧
        (left = 0 ∧ last = none ∨ ∃ message, fetchFrom reply left attempt last = .error (.external message))) ∨
      ∃ k, attempt ≤ k ∧ k < attempt + left ∧ (∀ j, attempt ≤ j → j < k → Refused (reply j)) ∧ ¬ Refused (reply k) ∧
        fetchFrom reply left attempt last = fetchForecast (reply k) := by
  induction left generalizing attempt last with
  | zero =>
      refine Or.inl ⟨fun k hk hk' => absurd hk (by omega), ?_⟩
      cases last with
      | none => exact Or.inl ⟨rfl, rfl⟩
      | some message => exact Or.inr ⟨message, rfl⟩
  | succ left ih =>
      by_cases hrefused : Refused (reply attempt)
      · obtain ⟨message, hfetch⟩ := refused_iff.mp hrefused
        have hnext : fetchFrom reply (left + 1) attempt last = fetchFrom reply left (attempt + 1) (some message) := by
          rw [fetchFrom, hfetch]
        rw [hnext]
        rcases ih (attempt + 1) (some message) with ⟨hall, hend⟩ | ⟨k, hk, hk', hall, hdecides, hsame⟩
        · refine Or.inl ⟨Retry.forall_from hrefused fun k hk hk' => hall k hk (by omega), Or.inr ?_⟩
          rcases hend with ⟨_, hnone⟩ | hend
          · cases hnone
          · exact hend
        · exact Or.inr ⟨k, by omega, by omega, Retry.forall_from hrefused hall, hdecides, hsame⟩
      · refine Or.inr ⟨attempt, le_refl _, by omega, fun j hj hj' => absurd hj (by omega), hrefused, ?_⟩
        cases hfetch : fetchForecast (reply attempt) with
        | ok points => rw [fetchFrom, hfetch]
        | error exc =>
            cases exc with
            | external message => exact absurd (refused_iff.mpr ⟨message, hfetch⟩) hrefused
            | raised exc => rw [fetchFrom, hfetch]

/-- `collect` has no forecast point to write. -/
def NoPoints (cfg : WeatherSettings) (env : WeatherEnv) : Prop :=
  ∀ points, fetchWithRetry cfg env.reply = .ok points → points = []

/-- `collect` returns; without a point it returns 0 and leaves the stored CSV as it is. -/
structure Harmless (cfg : WeatherSettings) (env : WeatherEnv) (s : WeatherState) : Prop where
  returns : ∃ n, (collect cfg env s).1 = .ok n
  unchanged : NoPoints cfg env → (collect cfg env s).1 = .ok 0 ∧ (collect cfg env s).2.csv = s.csv

theorem harmless_of_external {message : String} (h : fetchWithRetry cfg env.reply = .error (.external message)) :
    Harmless cfg env s := by
  have hcollect : collect cfg env s = (.ok 0, { s with lastRowCount := some 0 }) := by
    rw [collect, h]
  constructor
  · exact ⟨0, by rw [hcollect]⟩
  · intro _
    rw [hcollect]
    exact ⟨rfl, rfl⟩

theorem not_harmless_of_raised {exc : PyError} (h : fetchWithRetry cfg env.reply = .error (.raised exc)) :
    ¬ Harmless cfg env s := by
  rintro ⟨⟨n, hn⟩, _⟩
  rw [collect, h] at hn
  cases hn

/-- A CSV that has been written replaces the stored one: without a point they must be the same. -/
theorem harmless_iff_of_rows {points : List ForecastPoint} {rows : List (List Cell)}
    (hpoints : fetchWithRetry cfg env.reply = .ok points) (hlength : points.length = rows.length)
    (hcollect : collect cfg env s = (.ok points.length, ⟨some ⟨csvFields, rows⟩, some points.length⟩)) :
    Harmless cfg env s ↔ points ≠ [] ∨ s.csv = some ⟨csvFields, []⟩ := by
  constructor
  · rintro ⟨_, hunchanged⟩
    by_cases hnil : points = []
    · subst hnil
      obtain rfl := List.length_eq_zero_iff.mp hlength.symm
      obtain ⟨_, hcsv⟩ := hunchanged fun points hpoints' => (Except.ok.inj (hpoints.symm.trans hpoints')).symm
      rw [hcollect] at hcsv
      exact Or.inr hcsv.symm
    · exact Or.inl hnil
  · intro hstored
    constructor
    · exact ⟨_, by rw [hcollect]⟩
    · intro hnone
      obtain rfl := hnone points hpoints
      obtain rfl := List.length_eq_zero_iff.mp hlength.symm
      rw [hcollect]
      exact ⟨rfl, (hstored.resolve_left fun hne => hne rfl).symm⟩

/-- A reply that is not refused must have half hours that can be written; without any, the empty CSV must be the
stored one. -/
theorem harmless_iff_of_reply (hwrite : env.writeFault = none)
    (h : fetchWithRetry cfg env.reply = fetchForecast reply) (hdecides : ¬ Refused reply) :
    Harmless cfg env s ↔ Usable reply ∧ (HasHalfHour reply ∨ s.csv = some ⟨csvFields, []⟩) := by
  cases hfetch : fetchForecast reply with
  | error exc =>
      cases exc with
      | external message => exact absurd (refused_iff.mpr ⟨message, hfetch⟩) hdecides
      | raised exc =>
          refine iff_of_false (not_harmless_of_raised (h.trans hfetch)) ?_
          rintro ⟨husable, _⟩
          obtain ⟨points, _, hpoints, _⟩ := usable_iff.mp husable
          cases hfetch.symm.trans hpoints
  | ok points =>
      have hpoints : fetchWithRetry cfg env.reply = .ok points := h.trans hfetch
      rw [hasHalfHour_iff hfetch]
      rcases collect_rows (s := s) hpoints hwrite with ⟨rows, hrows, hcollect⟩ | ⟨exc, herror, hcollect⟩
      · have husable : Usable reply := usable_iff.mpr ⟨points, rows, hfetch, hrows⟩
        rw [harmless_iff_of_rows hpoints (mapM_eq_ok_iff.mp hrows).length_eq hcollect, and_iff_right husable]
      · refine iff_of_false ?_ ?_
        · rintro ⟨⟨n, hn⟩, _⟩
          rw [hcollect] at hn
          cases hn
        · rintro ⟨husable, _⟩
          obtain ⟨points', rows, hpoints', hrows⟩ := usable_iff.mp husable
          cases hfetch.symm.trans hpoints'
          cases herror.symm.trans hrows

end WeatherService

end Hailcast
