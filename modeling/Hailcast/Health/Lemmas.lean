import Hailcast.Health.Service
import Hailcast.Store.Working

/-!
# What each check returns
-/

namespace Hailcast

variable {env : HealthEnv} {cfg : PredictSettings} {backend : StoreBackend} {key : String} {s : HealthState}

/-- The read of the key is answered with this object. -/
def HealthEnv.Reads (env : HealthEnv) (backend : StoreBackend) (key : String) (blob : Blob) : Prop :=
  match backend with
  | .s3 => env.answer (.s3 (.headObject key)) = .ok () ∧ env.answer (.s3 (.getObject key)) = .ok blob
  | .local => env.answer (.localExists key) = .ok true ∧ env.answer (.localReadText key) = .ok blob

namespace HealthState

theorem handler_error {o : HealthRequest} {exc : PyError} (h : (handler env o s).1 = .error exc) :
    exc.IsException := by
  cases o with
  | isResolved => cases h
  | setResolved => cases h
  | now => cases h
  | _ => exact env.exceptions _ _ h

end HealthState

open HealthState

/-! ## Guarded parts -/

/-- The program raises only what `except Exception` catches, if its requests do. -/
abbrev Guarded {Op : Type} {Res : Op → Type} {α : Type} (p : Prog Op Res PyError α) : Prop :=
  p.RaisesOnly (fun _ exc => exc.IsException) PyError.IsException

theorem guarded_request (o : HealthRequest) : Guarded (healthRequest o) := Prog.RaisesOnly.perform fun _ h => h

theorem exec_attempt_of_exec {α : Type} {p : HealthM α} {r : Except PyError α} {s' : HealthState}
    (hp : exec env p s = (r, s')) (hr : ∀ exc, r = .error exc → exc.IsException) :
    exec env (attempt p) s = (.ok r, s') := by
  unfold exec at hp ⊢
  unfold attempt
  rw [Prog.tryCatch_eq, Prog.exec_tryCatch, Prog.exec_bind, hp]
  cases r with
  | ok a => rfl
  | error exc =>
      cases exc with
      | systemExit code => exact (hr _ rfl).elim
      | _ => rfl

theorem exec_attempt {α : Type} (env : HealthEnv) {p : HealthM α} (hp : Guarded p) (s : HealthState) :
    exec env (attempt p) s = (.ok (exec env p s).1, (exec env p s).2) := by
  refine exec_attempt_of_exec rfl fun exc hexc => ?_
  exact hp.exec (h := handler env) (fun _ _ _ => handler_error) (Prod.ext hexc rfl)

/-- After a guarded part only what it returns or raises is to be looked at. -/
theorem wp_attempt_bind {α β : Type} {p : HealthM α} (hp : Guarded p) {f : Except PyError α → HealthM β}
    {P : β → HealthState → Prop} {Q : PyError → HealthState → Prop}
    (hf : ∀ r s, Prog.wp (handler env) (f r) P Q s) : Prog.wp (handler env) (attempt p >>= f) P Q s := by
  have hexec := exec_attempt env hp s
  unfold exec at hexec
  apply (Prog.wp_bind _ _).mpr
  unfold Prog.wp
  rw [hexec]
  exact hf _ _

/-- A guarded part that always ends in one way. -/
theorem wp_attempt_bind_iff {α β : Type} {p : HealthM α} (hp : Guarded p) {r : Except PyError α}
    (hexec : ∀ s, exec env p s = (r, s)) {f : Except PyError α → HealthM β} {P : β → HealthState → Prop}
    {Q : PyError → HealthState → Prop} :
    Prog.wp (handler env) (attempt p >>= f) P Q s ↔ Prog.wp (handler env) (f r) P Q s := by
  have hattempt := exec_attempt env hp s
  rw [hexec] at hattempt
  unfold exec at hattempt
  rw [Prog.wp_bind]
  unfold Prog.wp
  rw [hattempt]

/-! ## The queue and the model -/

theorem guarded_ofExcept {α : Type} {r : Except PyError α} (hr : ∀ exc, r = .error exc → exc.IsException) :
    Guarded (Prog.ofExcept r : HealthM α) := by
  cases r with
  | ok a => trivial
  | error exc => exact hr exc rfl

theorem get_error {body default : Json} {exc : PyError} (h : body.get key default = .error exc) :
    exc.IsException := by
  cases body <;> cases h <;> trivial

theorem strToInt_error {x : String} {exc : PyError} (h : Json.strToInt x = .error exc) : exc.IsException := by
  unfold Json.strToInt at h
  split at h <;> cases h
  trivial

theorem toInt_error {body : Json} {exc : PyError} (h : body.toInt = .error exc) : exc.IsException := by
  cases body with
  | str x =>
      cases x with
      | text x => exact strToInt_error h
      | iso x _ => exact strToInt_error h
      | _ => cases h; trivial
  | _ => cases h <;> trivial

theorem loads_error {blob : Blob} {exc : PyError} (h : blob.loads = .error exc) : exc.IsException := by
  cases blob <;> cases h
  trivial

namespace HealthService

theorem guarded_wrap {α : Type} {operation : String} {p : HealthM α} (hp : Guarded p) :
    Guarded (wrap cfg operation p) := by
  refine hp.tryCatch fun exc hexc => ?_
  cases exc with
  | clientError code => trivial
  | botoCoreError => trivial
  | _ => exact hexc

theorem guarded_queueUrl (cfg : PredictSettings) : Guarded (queueUrl cfg) := by
  refine (guarded_request .isResolved).bind fun resolved => ?_
  cases resolved with
  | true => trivial
  | false =>
      refine (Prog.RaisesOnly.tryCatch (guarded_request .getQueueUrl) fun exc hexc => ?_).bind fun _ =>
        guarded_request .setResolved
      cases exc with
      | clientError code =>
          simp only
          split
          · exact guarded_request .createQueue
          · trivial
      | botoCoreError => trivial
      | _ => exact hexc

theorem guarded_queueAttributes (cfg : PredictSettings) : Guarded (queueAttributes cfg) :=
  guarded_wrap ((guarded_queueUrl cfg).bind fun _ => (guarded_request .getQueueAttributes).bind fun _ => trivial)

theorem guarded_s3 {α : Type} {p : StoreM α} (hp : Guarded p) : Guarded (s3 p) := by
  induction p with
  | ret a => trivial
  | raise exc => exact hp
  | act o k ih => exact ⟨fun a => ih _ (hp.1 a), fun exc hexc => ih _ (hp.2 exc hexc)⟩

theorem guarded_storeRequest (o : StoreRequest) : Guarded (storeRequest o) := Prog.RaisesOnly.perform fun _ h => h

theorem guarded_s3_wrap {α : Type} {operation key : String} {p : StoreM α} (hp : Guarded p) :
    Guarded (S3Adapter.wrap operation key p) := by
  refine hp.tryCatch fun exc hexc => ?_
  cases exc with
  | clientError code => trivial
  | botoCoreError => trivial
  | _ => exact hexc

theorem guarded_downloadJson (key : String) : Guarded (downloadJson key) := by
  refine guarded_s3 (guarded_s3_wrap ?_)
  refine (guarded_storeRequest (.getObject key)).bind fun blob => ?_
  cases hloads : blob.loads with
  | ok body => trivial
  | error exc => exact loads_error hloads

/-- Whatever the queue answers. -/
theorem wp_checkQueue (env : HealthEnv) (cfg : PredictSettings) (s : HealthState) :
    Prog.wp (handler env) (checkQueue cfg) (fun c _ => c.name = "queue") (fun _ _ => False) s := by
  refine wp_attempt_bind ?_ fun r s => ?_
  · refine (guarded_queueAttributes cfg).bind fun attrs => guarded_ofExcept fun exc hexc => ?_
    cases hget : attrs.get "ApproximateNumberOfMessages" (.num 0) with
    | error exc' =>
        rw [hget] at hexc
        cases hexc
        exact get_error hget
    | ok count =>
        rw [hget] at hexc
        exact toInt_error hexc
  · cases r <;> rfl

theorem wp_checkModel (env : HealthEnv) (cfg : PredictSettings) (s : HealthState) :
    Prog.wp (handler env) (checkModel cfg) (fun c _ => c.name = "model") (fun _ _ => False) s := by
  refine wp_attempt_bind ?_ fun r s => ?_
  · exact (guarded_downloadJson _).bind fun metadata => guarded_ofExcept fun exc => get_error
  · cases r <;> rfl

/-! ## Reading the store -/

/-- Requests of the S3 adapter leave the state alone. -/
theorem exec_s3 {α : Type} (env : HealthEnv) (p : StoreM α) (s : HealthState) :
    exec env (s3 p) s = ((Prog.exec (fun o u => (env.answer (.s3 o), u)) p ()).1, s) := by
  unfold exec s3
  induction p generalizing s with
  | ret a => rfl
  | raise exc => rfl
  | act o k ih =>
      have hmap : (env.answer (.s3 o)).map (fun answer => answer) = env.answer (.s3 o) := by
        cases env.answer (.s3 o) <;> rfl
      simp only [Prog.lift, Prog.exec, handler, hmap]
      exact ih _ s

theorem guarded_readText (backend : StoreBackend) (key : String) : Guarded (readText backend key) := by
  cases backend with
  | «local» =>
      refine (guarded_request (.localExists key)).bind fun found => ?_
      cases found with
      | true => exact (guarded_request (.localReadText key)).bind fun _ => trivial
      | false => trivial
  | s3 =>
      have hexists : Guarded (S3Adapter.exists key) := by
        have hhead := guarded_storeRequest (.headObject key)
        refine Prog.RaisesOnly.tryCatch (hhead.bind fun _ => trivial) fun exc hexc => ?_
        cases exc with
        | clientError code => trivial
        | _ => exact hexc
      refine guarded_s3 (hexists.bind fun found => ?_)
      cases found with
      | true => exact (guarded_s3_wrap (guarded_storeRequest (.getObject key))).bind fun _ => trivial
      | false => trivial

theorem exec_readText (env : HealthEnv) (backend : StoreBackend) (key : String) :
    ∃ r, (∀ s, exec env (readText backend key) s = (r, s)) ∧
      ∀ blob, r = .ok (some blob) ↔ env.Reads backend key blob := by
  cases backend with
  | «local» =>
      unfold readText exec healthRequest HealthEnv.Reads
      simp only [Prog.exec_bind, Prog.exec_perform, handler]
      cases hexists : env.answer (.localExists key) with
      | error exc => exact ⟨.error exc, fun _ => rfl, by simp⟩
      | ok found =>
          cases found with
          | false => exact ⟨.ok none, fun _ => rfl, by simp⟩
          | true =>
              cases hread : env.answer (.localReadText key) with
              | error exc =>
                  refine ⟨.error exc, fun s => ?_, by simp⟩
                  simp [Prog.exec_bind, Prog.exec_perform, handler, hread]
              | ok blob =>
                  refine ⟨.ok (some blob), fun s => ?_, by simp⟩
                  simp [Prog.exec_bind, Prog.exec_perform, handler, hread]
  | s3 =>
      refine ⟨_, fun s => exec_s3 env _ s, fun blob => ?_⟩
      unfold FileStore.readText S3Adapter.exists S3Adapter.downloadText S3Adapter.wrap storeRequest HealthEnv.Reads
      simp only [Prog.tryCatch_eq, Prog.exec_bind, Prog.exec_tryCatch, Prog.exec_perform]
      cases hhead : env.answer (.s3 (.headObject key)) with
      | error exc => cases exc <;> simp
      | ok u =>
          cases hget : env.answer (.s3 (.getObject key)) with
          | error exc => cases exc <;> simp [Prog.exec_bind, Prog.exec_tryCatch, Prog.exec_perform, hget]
          | ok blob' => simp [Prog.exec_bind, Prog.exec_tryCatch, Prog.exec_perform, hget]

theorem bind_loadBlob_iff {r : Except PyError (Option Blob)} {body : Json} :
    (r >>= loadBlob) = .ok (some body) ↔ ∃ blob, r = .ok (some blob) ∧ blob.loads = .ok body := by
  constructor
  · intro h
    obtain ⟨text, rfl, hload⟩ := bind_eq_ok h
    cases text with
    | none => cases hload
    | some blob =>
        refine ⟨blob, rfl, ?_⟩
        simp only [loadBlob] at hload
        cases hloads : blob.loads <;> rw [hloads] at hload <;> cases hload
        rfl
  · rintro ⟨blob, rfl, hloads⟩
    change blob.loads.map some = _
    rw [hloads]
    rfl

theorem exec_readJson (env : HealthEnv) (backend : StoreBackend) (key : String) :
    ∃ r, (∀ s, exec env (readJson backend key) s = (r, s)) ∧
      ∀ body, r = .ok (some body) ↔ ∃ blob, env.Reads backend key blob ∧ blob.loads = .ok body := by
  obtain ⟨r, hexec, hreads⟩ := exec_readText env backend key
  refine ⟨r >>= loadBlob, fun s => ?_, fun body => ?_⟩
  · have hs := hexec s
    unfold exec at hs
    unfold exec readJson
    rw [Prog.exec_bind, hs]
    rcases r with exc | _ | blob
    · rfl
    · rfl
    · simp only [Prog.exec_bind, Prog.exec_ofExcept]
      change _ = (blob.loads.map some, s)
      cases blob.loads <;> rfl
  · rw [bind_loadBlob_iff]
    simp only [hreads]

theorem guarded_readJson (backend : StoreBackend) (key : String) : Guarded (readJson backend key) := by
  refine (guarded_readText backend key).bind fun text => ?_
  cases text with
  | none => trivial
  | some blob => exact (guarded_ofExcept fun exc => loads_error).bind fun _ => trivial

/-! ## The prediction -/

/-- The body is an object whose `generated_at` is the ISO format of an aware time. -/
def Dated (body : Json) : Prop :=
  ∃ kvs x t, body = .obj kvs ∧ Json.field "generated_at" kvs = some x ∧ fromisoformat x = .ok (.aware t)

theorem dated_iff {body : Json} : Dated body ↔ ∃ t, (body.index "generated_at" >>= fromisoformat) = .ok (.aware t) := by
  constructor
  · rintro ⟨kvs, x, t, rfl, hfield, ht⟩
    refine ⟨t, ?_⟩
    simp only [Json.index, hfield]
    exact ht
  · rintro ⟨t, hstamp⟩
    obtain ⟨x, hindex, ht⟩ := bind_eq_ok hstamp
    cases body with
    | obj kvs =>
        simp only [Json.index] at hindex
        cases hfield : Json.field "generated_at" kvs with
        | none =>
            rw [hfield] at hindex
            cases hindex
        | some y =>
            rw [hfield] at hindex
            obtain rfl : y = x := Except.ok.inj hindex
            exact ⟨kvs, y, t, rfl, hfield, ht⟩
    | _ => cases hindex

theorem wp_ageCheck_aware (env : HealthEnv) (name : String) (t : Int) (maxAge : ℚ) (s : HealthState) :
    Prog.wp (handler env) (ageCheck name (some (.aware t)) maxAge) (fun c _ => c.name = name) (fun _ _ => False) s := by
  simp only [ageCheck, healthRequest, Prog.wp_bind, Prog.wp_perform, handler, Stamp.before, Prog.ofExcept_ok,
    Prog.wp_ret]
  split <;> rfl

theorem predictionHealth_eq {value : Json} (h : value ≠ .null) :
    predictionHealth cfg (some value) =
      (Prog.ofExcept (value.index "generated_at" >>= fromisoformat) >>= fun latest =>
        ageCheck "prediction" (some latest) (cfg.predictionIntervalSeconds * 2)) := by
  cases value with
  | null => exact absurd rfl h
  | _ => rfl

theorem wp_predictionHealth {body : Option Json} (h : ∀ value, body = some value → value = .null ∨ Dated value)
    (s : HealthState) :
    Prog.wp (handler env) (predictionHealth cfg body) (fun c _ => c.name = "prediction") (fun _ _ => False) s := by
  cases body with
  | none => rfl
  | some value =>
      by_cases hnull : value = .null
      · subst hnull
        rfl
      · obtain ⟨t, ht⟩ := dated_iff.mp ((h value rfl).resolve_left hnull)
        rw [predictionHealth_eq hnull, ht]
        exact wp_ageCheck_aware env _ t _ s

theorem dated_of_wp {value : Json} {P : ComponentHealth → HealthState → Prop}
    (h : Prog.wp (handler env) (predictionHealth cfg (some value)) P (fun _ _ => False) s) :
    value = .null ∨ Dated value := by
  by_cases hnull : value = .null
  · exact Or.inl hnull
  · rw [predictionHealth_eq hnull, Prog.wp_bind_ofExcept] at h
    obtain ⟨hok, herror⟩ := h
    cases hstamp : value.index "generated_at" >>= fromisoformat with
    | error exc => exact (herror exc hstamp).elim
    | ok stamp =>
        cases stamp with
        | naive wall => exact (hok _ hstamp).elim
        | aware t => exact Or.inr (dated_iff.mpr ⟨t, hstamp⟩)

/-- Where `latest.json` is read and is JSON, it is `null` or dated. -/
def PredictionFits (env : HealthEnv) (cfg : PredictSettings) (backend : StoreBackend) : Prop :=
  ∀ blob body, env.Reads backend (cfg.predictionS3Prefix ++ "/latest.json") blob → blob.loads = .ok body →
    body = .null ∨ Dated body

theorem wp_checkPrediction (h : PredictionFits env cfg backend) (s : HealthState) :
    Prog.wp (handler env) (checkPrediction cfg backend) (fun c _ => c.name = "prediction") (fun _ _ => False) s := by
  obtain ⟨r, hexec, hbody⟩ := exec_readJson env backend (cfg.predictionS3Prefix ++ "/latest.json")
  apply (wp_attempt_bind_iff (guarded_readJson backend _) hexec).mpr
  cases r with
  | error exc => rfl
  | ok body =>
      refine wp_predictionHealth (fun value hvalue => ?_) s
      obtain ⟨blob, hreads, hloads⟩ := (hbody value).mp (by rw [hvalue])
      exact h blob value hreads hloads

theorem predictionFits_of_wp {P : ComponentHealth → HealthState → Prop}
    (h : Prog.wp (handler env) (checkPrediction cfg backend) P (fun _ _ => False) s) :
    PredictionFits env cfg backend := by
  intro blob body hreads hloads
  obtain ⟨r, hexec, hbody⟩ := exec_readJson env backend (cfg.predictionS3Prefix ++ "/latest.json")
  obtain rfl := (hbody body).mpr ⟨blob, hreads, hloads⟩
  exact dated_of_wp ((wp_attempt_bind_iff (guarded_readJson backend _) hexec).mp h)

/-! ## The weather -/

/-- The CSV is read, and its first row, if it has one, has a date in the format of the weather rows. -/
def FirstRowDated (text : String) : Prop :=
  ∃ table, Csv.dictReader text = .ok table ∧ ∀ row ∈ table.rows.head?,
    ∃ date dt, table.item row "날짜" = .ok (some date) ∧ Datetime.strptime date = .ok dt

/-- Where the weather CSV is read, it is empty or its first row is dated. -/
def WeatherFits (env : HealthEnv) (cfg : PredictSettings) (jsonText : Json → String) (backend : StoreBackend) : Prop :=
  ∀ blob, env.Reads backend cfg.weatherCsvKey blob →
    blob.chars jsonText = "" ∨ FirstRowDated (blob.chars jsonText)

variable {zone : Zone} {jsonText : Json → String} {text : String}

theorem wp_weatherHealth (h : FirstRowDated text) (s : HealthState) :
    Prog.wp (handler env) (weatherHealth cfg zone text) (fun c _ => c.name = "weather") (fun _ _ => False) s := by
  obtain ⟨⟨fieldnames, rows⟩, htable, hfirst⟩ := h
  unfold weatherHealth
  rw [htable]
  cases rows with
  | nil => rfl
  | cons row rows =>
      obtain ⟨date, dt, hitem, hdt⟩ := hfirst row rfl
      have htime : (Csv.Table.item ⟨fieldnames, row :: rows⟩ row "날짜" >>= firstRowTime) = .ok dt := by
        rw [hitem]
        exact hdt
      simp only [Prog.ofExcept_ok, Prog.ret_bind, htime, healthRequest, Prog.wp_bind, Prog.wp_perform, handler]
      split <;> rfl

theorem firstRowDated_of_wp {P : ComponentHealth → HealthState → Prop}
    (h : Prog.wp (handler env) (weatherHealth cfg zone text) P (fun _ _ => False) s) : FirstRowDated text := by
  unfold weatherHealth at h
  rw [Prog.wp_bind_ofExcept] at h
  obtain ⟨hok, herror⟩ := h
  cases htable : Csv.dictReader text with
  | error exc => exact (herror exc htable).elim
  | ok table =>
      refine ⟨table, htable, fun row hrow => ?_⟩
      have hrows := hok table htable
      obtain ⟨fieldnames, rows⟩ := table
      cases rows with
      | nil => cases hrow
      | cons first rows =>
          obtain rfl := Option.some.inj hrow
          simp only [Prog.wp_bind_ofExcept] at hrows
          obtain ⟨-, hnone⟩ := hrows
          cases htime : Csv.Table.item ⟨fieldnames, first :: rows⟩ first "날짜" >>= firstRowTime with
          | error exc => exact (hnone exc htime).elim
          | ok dt =>
              obtain ⟨cell, hitem, hcell⟩ := bind_eq_ok htime
              cases cell with
              | none => cases hcell
              | some date => exact ⟨date, dt, hitem, hcell⟩

theorem wp_checkWeather (h : WeatherFits env cfg jsonText backend) (s : HealthState) :
    Prog.wp (handler env) (checkWeather cfg zone jsonText backend) (fun c _ => c.name = "weather")
      (fun _ _ => False) s := by
  obtain ⟨r, hexec, hreads⟩ := exec_readText env backend cfg.weatherCsvKey
  apply (wp_attempt_bind_iff (guarded_readText backend _) hexec).mpr
  rcases r with exc | _ | blob
  · rfl
  · rfl
  · by_cases hempty : blob.chars jsonText = ""
    · simp [hempty]
    · have hdated := (h blob ((hreads blob).mp rfl)).resolve_left hempty
      simp only [hempty, ↓reduceIte]
      exact wp_weatherHealth hdated s

theorem weatherFits_of_wp {P : ComponentHealth → HealthState → Prop}
    (h : Prog.wp (handler env) (checkWeather cfg zone jsonText backend) P (fun _ _ => False) s) :
    WeatherFits env cfg jsonText backend := by
  intro blob hblob
  obtain ⟨r, hexec, hreads⟩ := exec_readText env backend cfg.weatherCsvKey
  obtain rfl := (hreads blob).mpr hblob
  replace h := (wp_attempt_bind_iff (guarded_readText backend _) hexec).mp h
  by_cases hempty : blob.chars jsonText = ""
  · exact Or.inl hempty
  · simp only [hempty, ↓reduceIte] at h
    exact Or.inr (firstRowDated_of_wp h)

/-! ## The worst status -/

/-- One health for each of the five components, and the worst of their statuses. -/
structure Sound (response : HealthResponse) : Prop where
  components : response.components.map ComponentHealth.name = ["queue", "model", "prediction", "weather", "scheduler"]
  mem : ∃ c ∈ response.components, c.status = response.status
  worst : ∀ c ∈ response.components, c.status.severity ≤ response.status.severity

theorem checkSchedulers_name (schedulers : List NamedScheduler) : (checkSchedulers schedulers).name = "scheduler" := by
  unfold checkSchedulers
  simp only
  split
  · rfl
  · split <;> rfl

theorem wp_health (schedulers : List NamedScheduler) (hprediction : PredictionFits env cfg backend)
    (hweather : WeatherFits env cfg jsonText backend) (s : HealthState) :
    Prog.wp (handler env) (health cfg zone jsonText backend schedulers) (fun response _ => Sound response)
      (fun _ _ => False) s := by
  unfold health
  apply (wp_checkQueue env cfg s).bind
  intro queue s hqueue
  apply (wp_checkModel env cfg s).bind
  intro model s hmodel
  apply (wp_checkPrediction hprediction s).bind
  intro prediction s hpred
  apply (wp_checkWeather hweather s).bind
  intro weather s hweath
  have hscheduler := checkSchedulers_name schedulers
  generalize checkSchedulers schedulers = scheduler at hscheduler ⊢
  simp only
  cases hmax : List.argmax HealthStatus.severity
      ([queue, model, prediction, weather, scheduler].map ComponentHealth.status) with
  | none => cases List.argmax_eq_none.mp hmax
  | some overall =>
      have hmem := List.argmax_mem (Option.mem_def.mpr hmax)
      have hworst := fun status h => List.le_of_mem_argmax (a := status) h (Option.mem_def.mpr hmax)
      simp only [healthRequest, Prog.wp_bind, Prog.wp_perform, handler]
      refine ⟨?_, List.mem_map.mp hmem, fun c hc => hworst c.status (List.mem_map_of_mem hc)⟩
      simp [hqueue, hmodel, hpred, hweath, hscheduler]

theorem fits_of_wp_health {schedulers : List NamedScheduler} {P : HealthResponse → HealthState → Prop}
    (h : Prog.wp (handler env) (health cfg zone jsonText backend schedulers) P (fun _ _ => False) s) :
    PredictionFits env cfg backend ∧ WeatherFits env cfg jsonText backend := by
  unfold health at h
  obtain ⟨queue, s, -, h⟩ := (Prog.wp_returns_iff _).mp ((Prog.wp_bind _ _).mp h)
  obtain ⟨model, s, -, h⟩ := (Prog.wp_returns_iff _).mp ((Prog.wp_bind _ _).mp h)
  have hprediction := (Prog.wp_bind _ _).mp h
  obtain ⟨prediction, s, -, h⟩ := (Prog.wp_returns_iff _).mp hprediction
  exact ⟨predictionFits_of_wp hprediction, weatherFits_of_wp ((Prog.wp_bind _ _).mp h)⟩

/-- Readiness does not look at the store. -/
theorem ready_returns (env : HealthEnv) (cfg : PredictSettings) (s : HealthState) :
    ∃ answer s', exec env (ready cfg) s = (.ok answer, s') := by
  have hready : Prog.wp (handler env) (ready cfg) (fun _ _ => True) (fun _ _ => False) s := by
    apply (wp_checkQueue env cfg s).bind
    intro queue s _
    apply (wp_checkModel env cfg s).bind
    intro model s _
    trivial
  obtain ⟨answer, s', hexec, -⟩ := (Prog.wp_returns_iff _).mp hready
  exact ⟨answer, s', hexec⟩

end HealthService

end Hailcast
