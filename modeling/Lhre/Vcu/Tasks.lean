import Lhre.Theory.Trace
import Lhre.Vcu.ControlLoop

/-!
# `Vcu.Tasks` — the other tasks, and runs of the app

What the telemetry, supervisor and shell tasks do to the state they share with the control task
(`boards/VCU/App/app/{telemetry,supervisor,shell_commands}.cpp`), and runs: a run plays a stream of `Tick`s, each a
number of events of the other tasks followed by one control tick.
-/

namespace Lhre.Vcu

open Lhal Can Longhorn

/-! ## Supervisor -/

/-- `kControlDeadlineMs`. -/
def kControlDeadlineMs : U32 := 30
/-- `kTelemetryDeadlineMs`. -/
def kTelemetryDeadlineMs : U32 := 300

/-- What one `App::SupervisorTick` asks of the hardware. -/
structure SupervisorActions where
  watchdogStart : Bool := false
  watchdogRefresh : Bool := false
  /-- the zero-torque frame sent before entering the bootloader -/
  stop : Option InverterTorqueCommand := none
  enterBootloader : Bool := false
deriving DecidableEq

/-- `App::SupervisorTick`. -/
def App.supervisorTick (env : Env) (a : App) (now : U32) : App × SupervisorActions :=
  if a.bootloaderRequest && env.hasBoard then
    ({ a with bootloaderRequest := false, bootloaderEntered := true, outputPins := safeOutputs },
     { stop := some { direction := true }, enterBootloader := true })
  else
    let controlMs := if a.watchdogStarted then a.controlProgressMs else now
    let telemetryMs := if a.watchdogStarted then a.telemetryProgressMs else now
    let controlMs := if a.controlBeats != a.seenControlBeats then now else controlMs
    let telemetryMs := if a.telemetryBeats != a.seenTelemetryBeats then now else telemetryMs
    let healthy := !elapsedMs now controlMs kControlDeadlineMs && !elapsedMs now telemetryMs kTelemetryDeadlineMs
    ({ a with
        bootloaderRequest := false
        watchdogStarted := true
        seenControlBeats := a.controlBeats
        seenTelemetryBeats := a.telemetryBeats
        controlProgressMs := controlMs
        telemetryProgressMs := telemetryMs
        watchdogRefreshes := if healthy then a.watchdogRefreshes + 1 else a.watchdogRefreshes
        outputPins := if healthy then a.outputPins else safeOutputs },
     { watchdogStart := !a.watchdogStarted, watchdogRefresh := healthy })

/-! ## Telemetry -/

/-- `App::TelemetryTick`: the app after the tick, and the value it hands to `SaveFaultLatch`, if any. The
    diagnostic frames are left out. -/
def App.telemetryTick (env : Env) (a : App) (now : U32) : App × Option U32 :=
  ({ a with
      diagFastGate := (a.diagFastGate.due now (periodMs 100)).1
      diagSlowGate := (a.diagSlowGate.due now (periodMs 10)).1
      latchSavePending := false
      telemetryBeats := a.telemetryBeats + 1 },
   if a.latchSavePending && env.hasBoard then some a.latchSaveValue else none)

/-! ## Events between control ticks -/

/-- What another task does between two control ticks. -/
inductive TaskEvent
  /-- the shell command `/mode 0..4` -/
  | modeCommand (mode : Fin 5)
  /-- the shell command `/launch arm` -/
  | launchCommand
  /-- the DFU console asks for the bootloader -/
  | dfuRequest
  | supervisor (now : U32)
  | telemetry (now : U32)
deriving DecidableEq

/-- The app after an event of another task. -/
def App.taskEvent (env : Env) (a : App) : TaskEvent → App
  | .modeCommand mode => { a with shellModeRequest := some mode.val }
  | .launchCommand => { a with launchRequest := true }
  | .dfuRequest => { a with bootloaderRequest := true }
  | .supervisor now => (a.supervisorTick env now).1
  | .telemetry now => (a.telemetryTick env now).1

/-! ## Runs -/

/-- The events since the last control tick, and the inputs of this one. -/
structure Tick where
  tasks : List TaskEvent := []
  inputs : TickInputs

/-- The app when the control task starts a tick. -/
def App.beforeTick (env : Env) (a : App) (τ : Tick) : App := τ.tasks.foldl (App.taskEvent env) a

/-- The app at the end of a tick. -/
def App.tick (env : Env) (a : App) (τ : Tick) : App := ((a.beforeTick env τ).controlTick env τ.inputs).1

/-- The app after the first `n` ticks of a run. -/
def runState (env : Env) (ρ : ℕ → Tick) (n : ℕ) : App := Trace.stateAt (App.tick env) (App.boot env) ρ n

/-- The app as tick `n` of a run starts. -/
def before (env : Env) (ρ : ℕ → Tick) (n : ℕ) : App := (runState env ρ n).beforeTick env (ρ n)

/-- The app at the end of tick `n` of a run. -/
def after (env : Env) (ρ : ℕ → Tick) (n : ℕ) : App := runState env ρ (n + 1)

/-- The frames tick `n` of a run queued on the Critical bus. -/
def queued (env : Env) (ρ : ℕ → Tick) (n : ℕ) : List CriticalFrame :=
  ((before env ρ n).controlTick env (ρ n).inputs).2

end Lhre.Vcu
