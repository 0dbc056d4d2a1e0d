import Hailcast.Simulator.Service

/-!
# Relayed calls and bursts

A relayed call is two steps of the event loop: `relayCall` up to the answer of call-api, and `relayAnswer` after
it. Calls are not serialised with the control operations. A burst is a task of its own whose calls wait for its
semaphore.
-/

namespace Hailcast

inductive RelayReply where
  | answered (status : Int) (content : String)
  /-- `aiohttp.ClientError` or `asyncio.TimeoutError` -/
  | failed

namespace SimulatorState

def counters (s : SimulatorState) : Nat × Nat × Nat × Nat :=
  (s.generatedRequestCount, s.successCount, s.failCount, s.queuePublishCount)

/-- `success + fail <= generated_requests` and `queue_publish <= success` -/
def CountersOrdered (s : SimulatorState) : Prop :=
  s.successCount + s.failCount ≤ s.generatedRequestCount ∧ s.queuePublishCount ≤ s.successCount

end SimulatorState

namespace SimulatorService

/-- `relay_call` before the request: the counter. -/
def relayCall (now : Int) (s : SimulatorService) : SimulatorService := { s with state := s.state.recordGenerated now }

def relayAnswer (reply : RelayReply) (s : SimulatorService) : (Int × String) × SimulatorService :=
  match reply with
  | .failed => ((502, "\x7b\"detail\":\"relay to call-api failed\"\x7d"), { s with state := s.state.recordFail })
  | .answered status content =>
      if status = 202 then ((status, content), { s with state := s.state.recordSuccess true })
      else if status < 400 then ((status, content), { s with state := s.state.recordSuccess false })
      else ((status, content), { s with state := s.state.recordFail })

/-- `max(0, min(count, self._settings.burst_max_count))` -/
def burstCount (settings : SimulatorSettings) (count : Int) : Nat := (min count settings.burstMaxCount).toNat

end SimulatorService

/-- A running `_run_burst`: the calls that wait for the semaphore, and those that wait for their answer. -/
structure BurstTask where
  waiting : Nat
  inFlight : Nat

/-- The service with the calls that have started and have not been answered. -/
structure RelayState where
  service : SimulatorService := {}
  relayed : Nat := 0
  bursts : List BurstTask := []

inductive RelayEvent where
  | control (op : SimulatorService.ControlOp) (env : ControlEnv)
  /-- A request of k6 arrives. -/
  | relayCall (now : Int)
  | relayAnswer (reply : RelayReply)
  | burst (count : Int)
  /-- A call of the burst `task` passes the semaphore. -/
  | burstCall (task : Nat) (now : Int)
  | burstAnswer (task : Nat) (reply : RelayReply)

namespace RelayState

/-- A step that is not possible in the state leaves it as it is. -/
def step (settings : SimulatorSettings) (s : RelayState) : RelayEvent → RelayState
  | .control op env => { s with service := s.service.step settings (op, env) }
  | .relayCall now => { s with service := s.service.relayCall now, relayed := s.relayed + 1 }
  | .relayAnswer reply =>
      if 0 < s.relayed then { s with service := (s.service.relayAnswer reply).2, relayed := s.relayed - 1 } else s
  | .burst count =>
      let count := SimulatorService.burstCount settings count
      if count = 0 then s else { s with bursts := s.bursts ++ [⟨count, 0⟩] }
  | .burstCall task now =>
      match s.bursts[task]? with
      | some burst =>
          if 0 < burst.waiting ∧ burst.inFlight < settings.burstConcurrency then
            { s with
              service := s.service.relayCall now
              bursts := s.bursts.set task ⟨burst.waiting - 1, burst.inFlight + 1⟩ }
          else s
      | none => s
  | .burstAnswer task reply =>
      match s.bursts[task]? with
      | some burst =>
          if 0 < burst.inFlight then
            { s with
              service := (s.service.relayAnswer reply).2
              bursts := s.bursts.set task ⟨burst.waiting, burst.inFlight - 1⟩ }
          else s
      | none => s

def inFlight (s : RelayState) : Nat := s.relayed + (s.bursts.map BurstTask.inFlight).sum

end RelayState

end Hailcast
