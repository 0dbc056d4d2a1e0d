import Hailcast.Common.Python

/-!
# SimulatorState

The state of the traffic generator and the methods that change it. The clocks and the uuid that a method reads
are its arguments; `time.monotonic()` is in microseconds.
-/

namespace Hailcast

/-- The fields of `SimulatorSettings` that the modelled services read. -/
structure SimulatorSettings where
  callApiUrl : String := "http://localhost:8000"
  trafficStep : ℚ := 500
  minTps : ℚ := 0
  maxTps : ℚ := 600
  k6Binary : String := "k6"
  relayUrl : String := "http://localhost:8001/_relay"
  burstMaxCount : Int := 15000
  burstConcurrency : Nat := 100

inductive TrafficMode where
  | constant
deriving DecidableEq

inductive GeneratorStatus where
  | idle
  | running
deriving DecidableEq

structure SimulatorState where
  currentTps : ℚ := 0
  running : Bool := false
  status : GeneratorStatus := .idle
  trafficMode : TrafficMode := .constant
  taskId : Option String := none
  generatedRequestCount : Nat := 0
  successCount : Nat := 0
  failCount : Nat := 0
  queuePublishCount : Nat := 0
  startTime : Option Int := none
  lastRequestTime : Option Int := none
  runStartedMonotonic : Option Int := none
  accumulatedRuntime : Int := 0
deriving DecidableEq

/-- The fields of `SimulatorStatus`, the answer of every control operation. -/
structure SimulatorStatus where
  running : Bool
  status : GeneratorStatus
  trafficMode : TrafficMode
  currentTps : ℚ
  taskId : Option String
  generatedRequests : Nat
  success : Nat
  fail : Nat
  queuePublish : Nat
  averageTps : ℚ
  uptimeSeconds : ℚ
  startedAt : Option Int
  lastRequestAt : Option Int
deriving DecidableEq

namespace SimulatorState

/-! ## The life of the k6 process -/

def markStarted (s : SimulatorState) (uuid : String) (now monotonic : Int) : SimulatorState :=
  { s with
    running := true
    status := .running
    taskId := some uuid
    startTime := some now
    runStartedMonotonic := some monotonic }

/-- `start_time` stays as it is. -/
def markStopped (s : SimulatorState) (monotonic : Int) : SimulatorState :=
  { s with
    accumulatedRuntime :=
      match s.runStartedMonotonic with
      | some started => s.accumulatedRuntime + (monotonic - started)
      | none => s.accumulatedRuntime
    runStartedMonotonic := none
    running := false
    status := .idle
    taskId := none }

/-- `_reset_fields` -/
def reset (_ : SimulatorState) : SimulatorState := {}

/-! ## The rate -/

/-- `max(self._min_tps, min(self._max_tps, tps))` -/
def clampTps (settings : SimulatorSettings) (tps : ℚ) : ℚ := max settings.minTps (min settings.maxTps tps)

/-- The rate after a change; a sum beyond the greatest float is above every bound, as an infinity is. -/
def adjusted (settings : SimulatorSettings) (tps delta : ℚ) : ℚ :=
  clampTps settings (FloatFormat.binary64.round (tps + delta))

def adjustTps (settings : SimulatorSettings) (s : SimulatorState) (delta : ℚ) : SimulatorState :=
  { s with currentTps := adjusted settings s.currentTps delta }

/-! ## The counters -/

def recordGenerated (s : SimulatorState) (now : Int) : SimulatorState :=
  { s with generatedRequestCount := s.generatedRequestCount + 1, lastRequestTime := some now }

def recordSuccess (s : SimulatorState) (queued : Bool) : SimulatorState :=
  { s with
    successCount := s.successCount + 1
    queuePublishCount := if queued then s.queuePublishCount + 1 else s.queuePublishCount }

def recordFail (s : SimulatorState) : SimulatorState := { s with failCount := s.failCount + 1 }

/-! ## Queries -/

def uptimeSeconds (s : SimulatorState) (monotonic : Int) : ℚ :=
  match s.runStartedMonotonic with
  | some started => totalSeconds (s.accumulatedRuntime + (monotonic - started))
  | none => totalSeconds s.accumulatedRuntime

def snapshot (s : SimulatorState) (monotonic : Int) : SimulatorStatus :=
  let uptime := s.uptimeSeconds monotonic
  { running := s.running
    status := s.status
    trafficMode := s.trafficMode
    currentTps := s.currentTps
    taskId := s.taskId
    generatedRequests := s.generatedRequestCount
    success := s.successCount
    fail := s.failCount
    queuePublish := s.queuePublishCount
    averageTps := if 0 < uptime then pyRound (s.generatedRequestCount / uptime) 2 else 0
    uptimeSeconds := pyRound uptime 1
    startedAt := s.startTime
    lastRequestAt := s.lastRequestTime }

end SimulatorState

end Hailcast
