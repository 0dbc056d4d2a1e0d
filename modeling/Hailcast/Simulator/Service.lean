import Hailcast.Simulator.State

/-!
# K6Runner and SimulatorService

The control operations are serialised by a lock, so each is one step on the service object: the generator state
and the handle of the k6 process. `ControlEnv` is what the outside answers during the operation. In a run of `step` a
launched process runs until it is terminated; in one of `react` it may also end by itself.
-/

namespace Hailcast

/-- The float that the text `f"{rate:g}"` reads as: six significant digits of the rate. -/
def shownRate (rate : ℚ) : ℚ := FloatFormat.binary64.round (FloatFormat.general.round rate)

/-- A k6 process with what its environment gives it: the address, and the numbers that the texts of the two rates
show. -/
structure K6Process where
  targetUrl : String
  targetRps : ℚ
  currentRps : ℚ
  exited : Bool := false
deriving DecidableEq

structure K6Runner where
  process : Option K6Process := none
deriving DecidableEq

namespace K6Runner

/-- `self._process is not None and self._process.poll() is None` -/
def isAlive (runner : K6Runner) : Bool :=
  match runner.process with
  | some process => !process.exited
  | none => false

end K6Runner

/-- `AppError(f"k6 실행 파일을 찾을 수 없거나 실행할 수 없습니다 (binary={binary}): {exc}", detail={"binary": binary})` -/
structure AppError where
  binary : String
  cause : String
deriving DecidableEq

structure SimulatorService where
  state : SimulatorState := {}
  runner : K6Runner := {}
deriving DecidableEq

structure ControlEnv where
  /-- The text of the `OSError` of `subprocess.Popen`, if it raises. -/
  popen : Option String := none
  uuid : String := ""
  now : Int := 0
  monotonic : Int := 0

abbrev SimulatorM := EStateM AppError SimulatorService

def modifyState (f : SimulatorState → SimulatorState) : SimulatorM Unit :=
  modify (fun s => { s with state := f s.state })

namespace K6Runner

/-- A live process is terminated, and killed when it does not end in time; the handle is dropped in any case. -/
def stop : SimulatorM Unit := modify (fun s => { s with runner := ⟨none⟩ })

def start (settings : SimulatorSettings) (env : ControlEnv) (targetRps currentRps : ℚ) : SimulatorM Unit := do
  stop
  match env.popen with
  | some cause => throw ⟨settings.k6Binary, cause⟩
  | none =>
      modify (fun s =>
        { s with runner := ⟨some ⟨settings.relayUrl, shownRate targetRps, shownRate currentRps, false⟩⟩ })

end K6Runner

namespace SimulatorService

def startK6 (settings : SimulatorSettings) (env : ControlEnv) (tps currentTps : ℚ) : SimulatorM Unit := do
  K6Runner.start settings env tps currentTps
  modifyState (fun s => s.markStarted env.uuid env.now env.monotonic)

def stopK6 (env : ControlEnv) : SimulatorM Unit := do
  if (← get).state.running then
    K6Runner.stop
    modifyState (fun s => s.markStopped env.monotonic)
  else return

def applyRate (settings : SimulatorSettings) (env : ControlEnv) (tps currentTps : ℚ) : SimulatorM Unit := do
  if tps ≤ 0 then stopK6 env
  else if !(← get).state.running then startK6 settings env tps currentTps
  else K6Runner.start settings env tps currentTps

def snapshot (env : ControlEnv) : SimulatorM SimulatorStatus := do return (← get).state.snapshot env.monotonic

def start (settings : SimulatorSettings) (env : ControlEnv) : SimulatorM SimulatorStatus := do
  if (← get).state.running then snapshot env
  else
    if (← get).state.currentTps ≤ 0 then modifyState (fun s => s.adjustTps settings settings.trafficStep)
    startK6 settings env (← get).state.currentTps 0
    snapshot env

def stop (env : ControlEnv) : SimulatorM SimulatorStatus := do
  stopK6 env
  snapshot env

/-- The body that `increase` and `decrease` share. -/
def changeRate (settings : SimulatorSettings) (env : ControlEnv) (delta : ℚ) : SimulatorM SimulatorStatus := do
  let wasRunning := (← get).state.running
  let before := (← get).state.currentTps
  modifyState (fun s => s.adjustTps settings delta)
  let tps := (← get).state.currentTps
  if tps ≠ before ∨ !wasRunning then applyRate settings env tps (if wasRunning then before else 0)
  snapshot env

def increase (settings : SimulatorSettings) (env : ControlEnv) : SimulatorM SimulatorStatus :=
  changeRate settings env settings.trafficStep

def decrease (settings : SimulatorSettings) (env : ControlEnv) : SimulatorM SimulatorStatus :=
  changeRate settings env (-settings.trafficStep)

def reset (env : ControlEnv) : SimulatorM SimulatorStatus := do
  stopK6 env
  modifyState SimulatorState.reset
  snapshot env

/-! ## Runs of control operations -/

inductive ControlOp where
  | start
  | stop
  | increase
  | decrease
  | reset
deriving DecidableEq

def control (settings : SimulatorSettings) (env : ControlEnv) : ControlOp → SimulatorM SimulatorStatus
  | .start => start settings env
  | .stop => stop env
  | .increase => increase settings env
  | .decrease => decrease settings env
  | .reset => reset env

/-- The service after an operation, whether it has returned or raised. -/
def step (settings : SimulatorSettings) (s : SimulatorService) (e : ControlOp × ControlEnv) : SimulatorService :=
  match control settings e.2 e.1 s with
  | .ok _ s' => s'
  | .error _ s' => s'

/-! ## Runs in which k6 ends by itself -/

inductive SimulatorEvent where
  | control (op : ControlOp) (env : ControlEnv)
  /-- The k6 process comes to the end of its duration, or is killed. -/
  | k6Exits

def exitK6 (s : SimulatorService) : SimulatorService :=
  { s with runner := ⟨s.runner.process.map (fun process => { process with exited := true })⟩ }

def react (settings : SimulatorSettings) (s : SimulatorService) : SimulatorEvent → SimulatorService
  | .control op env => s.step settings (op, env)
  | .k6Exits => s.exitK6

end SimulatorService

end Hailcast
