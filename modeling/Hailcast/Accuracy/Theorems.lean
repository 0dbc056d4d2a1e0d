import Hailcast.Accuracy.Lemmas

/-!
# The accuracy log

What the entries of the log combine, over every interleaving of forecast saves, scaling ticks and checks.
-/

namespace Hailcast

/-- In every run in which each writing check is aligned, each written entry takes its demand and its weather from
one item of the newest document, for its own hour. -/
theorem accuracy_entries_match (cfg : PredictSettings) (nycOffset : Int → Int)
    (newest : Option PredictionDocument) (live : Int) (history : List ScalingEvent) (log : DynamoTable)
    (steps : List AccuracyStep)
    (h : EventRun.Along (AccuracyState.step cfg nycOffset)
      (fun s e => ∀ env entry, e = .check env → s.Writes cfg nycOffset env entry → s.Aligned cfg env.clock)
      (AccuracyState.start newest live history log) steps) :
    EventRun.Along (AccuracyState.step cfg nycOffset)
      (fun s e => ∀ env entry, e = .check env → s.Writes cfg nycOffset env entry → entry.Matches s.newest)
      (AccuracyState.start newest live history log) steps := by
  have hstart : (AccuracyState.start newest live history log).Sourced cfg := by
    intro demand hd
    cases hd
  refine EventRun.Along.imp (I := AccuracyState.Sourced cfg) (fun s e hs _ => hs.step e) ?_ hstart h
  intro s e hs ha env entry he hw
  exact hs.matches (ha env entry he hw) hw

/-- A document with one item, for the first hour. -/
def hourDocument (demand temperature : ℚ) (h : 0 ≤ demand) : PredictionDocument :=
  ⟨0, "v1", 60, 1, demand, [⟨0, demand, none, some temperature, some 50, some false, h,
    PredictionItem.confidence_mem_none⟩]⟩

def warmDocument : PredictionDocument := hourDocument 1200 20 (by norm_num)

def coldDocument : PredictionDocument := hourDocument 900 5 (by norm_num)

/-- A tick at the start of the hour in which everything answers. -/
def firstTick : TickEnv where
  document := .ok none
  ageClock := 0
  demandClock := 0
  trafficBody := .ok none
  cooldownClock := 0
  patch := fun _ => .applied 0
  appliedClock := 0
  history := .commits 0

/-- The check at minute 59, with an actual demand of 2000. -/
def checkAt59 : CheckEnv where
  clock := 59 * 60000000
  trafficBody := .ok (some (.obj [("hourly_requests", .num 2000)]))

/-- The entry for 2000 actual calls, in a zone without offset. -/
def entryOf (demand temperature : ℚ) : AccuracyEntry :=
  ⟨0, demand, 2000, 0, 4, some temperature, some 50, some false⟩

def loggingSettings : PredictSettings := { predictionAccuracyLogEnabled := true }

/-- A save, a tick in the same hour, and then the check. -/
theorem accuracy_entries_match_warm :
    EventRun.Along (AccuracyState.step loggingSettings (fun _ => 0))
      (fun s e => ∀ env entry, e = .check env → s.Writes loggingSettings (fun _ => 0) env entry →
        entry.Matches s.newest)
      (AccuracyState.start (some warmDocument) 3 [] Dict.empty) [.tick firstTick none, .check checkAt59] := by
  refine accuracy_entries_match loggingSettings (fun _ => 0) (some warmDocument) 3 [] Dict.empty _ ⟨?_, ?_, trivial⟩
  · rintro env entry ⟨⟩
  · rintro env entry ⟨⟩ _
    refine ⟨by decide, warmDocument, _, rfl, ?_, rfl⟩
    norm_num [AccuracyState.step, AccuracyState.start, AccuracyState.tickEnv, TickEnv.freshDemand, readNewest,
      firstTick, checkAt59, warmDocument, hourDocument, loggingSettings, totalSeconds, floorToHour, hourMicros]

/-- A new document between the tick and the check: the entry has the demand of the old one and the weather of
the new one. -/
theorem accuracy_entry_mixes_documents :
    let s := EventRun.run (AccuracyState.step loggingSettings (fun _ => 0))
      (AccuracyState.start (some warmDocument) 3 [] Dict.empty) [.tick firstTick none, .save coldDocument]
    s.newest = some coldDocument ∧ s.Writes loggingSettings (fun _ => 0) checkAt59 (entryOf 1200 5) ∧
      ¬ (entryOf 1200 5).Matches s.newest := by
  refine ⟨rfl, ?_, ?_⟩
  · unfold AccuracyState.Writes
    decide +kernel
  · rintro ⟨document, item, ⟨⟩, hmem, _, hdemand, _⟩
    obtain rfl := List.mem_singleton.mp hmem
    norm_num [entryOf] at hdemand

end Hailcast
