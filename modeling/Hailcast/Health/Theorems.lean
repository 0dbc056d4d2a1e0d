import Hailcast.Health.Lemmas

/-!
# Which contents of the store `/health` survives
-/

namespace Hailcast

namespace HealthService

open HealthState

/-- The service answers with its five components and the worst of their statuses exactly if `latest.json` and the
weather CSV, as far as they are read, are empty or say when they are from. -/
theorem health_sound_iff (cfg : PredictSettings) (zone : Zone) (jsonText : Json → String) (backend : StoreBackend)
    (schedulers : List NamedScheduler) (env : HealthEnv) (s : HealthState) :
    (∃ response s', exec env (health cfg zone jsonText backend schedulers) s = (.ok response, s') ∧ Sound response) ↔
      PredictionFits env cfg backend ∧ WeatherFits env cfg jsonText backend := by
  constructor
  · intro h
    exact fits_of_wp_health ((Prog.wp_returns_iff (P := fun response _ => Sound response) _).mpr h)
  · rintro ⟨hprediction, hweather⟩
    exact (Prog.wp_returns_iff _).mp (wp_health schedulers hprediction hweather s)

/-- The clocks of New York in winter. -/
def winterZone : Zone where
  offset := fun _ => -5 * hourMicros
  utcOf := fun wall => wall + 5 * hourMicros
  shows := by
    intro t
    ring

/-- A bucket with these objects, and a queue without attributes. -/
def bucketAnswer (objects : String → Option Blob) : (o : HealthRequest) → Except PyError o.Answer
  | .s3 (.headObject key) => if (objects key).isSome then .ok () else .error (.clientError "404")
  | .s3 (.getObject key) =>
      match objects key with
      | some blob => .ok blob
      | none => .error (.clientError "NoSuchKey")
  | .getQueueUrl => .ok ()
  | .getQueueAttributes => .ok none
  | _ => .error .botoCoreError

def bucketEnv (objects : String → Option Blob) : HealthEnv where
  answer := bucketAnswer objects
  clock := fun _ => 0
  exceptions := by
    intro o exc h
    unfold bucketAnswer at h
    split at h
    · split at h <;> cases h
      trivial
    · split at h <;> cases h
      trivial
    · cases h
    · cases h
    · cases h
      trivial

/-- A `latest.json` without `generated_at`, and a weather CSV without the column of the dates, take `/health` down. -/
theorem health_raises :
    let undated := bucketEnv fun key => if key = "predictions/latest.json" then some (.json (.obj [])) else none
    let unnamed := bucketEnv fun key => if key = "weather/nyc-forecast.csv" then some (.text "time\n1\n") else none
    let answer := fun env => exec env (health {} winterZone (fun _ => "") .s3 []) {}
    (answer undated).1 = .error (.keyError "generated_at") ∧ (answer unnamed).1 = .error (.keyError "날짜") ∧
      ¬ ∀ env, ∃ response s', answer env = (.ok response, s') ∧ Sound response := by
  intro undated unnamed answer
  have hundated : (answer undated).1 = .error (.keyError "generated_at") := by rfl
  refine ⟨hundated, by rfl, fun hall => ?_⟩
  obtain ⟨response, s', hok, _⟩ := hall undated
  rw [hok] at hundated
  cases hundated

end HealthService

end Hailcast
