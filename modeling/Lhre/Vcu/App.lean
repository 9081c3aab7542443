import Lhre.Drivers.RateGate
import Lhre.Vcu.CriticalFrames
import Lhre.Vcu.Launch
import Lhre.Vcu.Regen
import Lhre.Vcu.VehicleRx

/-!
# `Vcu.App` — the state of the vehicle app

The members of `vcu::App` (`boards/VCU/App/app/vcu_app.hpp`), what the board wires to it, and what one control tick
reads from outside. Shells, the logger and the status LED touch none of this and are left out.
-/

namespace Lhre.Vcu

open Lhal Can Longhorn

/-! ## Buzzer -/

/-- Stops at the duration or ceiling, or when the shutdown loop opens. -/
structure Buzzer where
  active : Bool := false
  startMs : U32 := 0
  durationMs : U32 := 0
deriving DecidableEq

/-- `Buzzer::Start`. -/
def Buzzer.start (_b : Buzzer) (now durationMs : U32) : Buzzer :=
  { active := true, startMs := now, durationMs := durationMs }

/-- `Buzzer::Stop`. -/
def Buzzer.stop (b : Buzzer) : Buzzer := { b with active := false }

/-- `Buzzer::Update`; the sound is the `active` of the result. -/
def Buzzer.update (b : Buzzer) (now : U32) (loopClosed : Bool) (maxOnMs : U32) : Buzzer :=
  let limit := if b.durationMs < maxOnMs then b.durationMs else maxOnMs
  { b with active := b.active && !(!loopClosed || elapsedMs now b.startMs limit) }

/-! ## Parameters in use -/

/-- What `params_` points to: the set given at construction, or one of the event sets. -/
inductive ParamsRef
  | initial
  | preset (mode : EventMode)
deriving DecidableEq

/-- What is fixed for the life of the app: the wiring, the parameters given at construction, the value the
    board loads for the brake latch, and `std::pow`. -/
structure Env where
  pow : ℚ → ℚ → ℚ
  initialParams : Option Params := none
  vrefintCal : U16 := 0
  hasCriticalCan : Bool := true
  hasAudioDac : Bool := true
  hasBoard : Bool := true
  /-- what `LoadFaultLatch` returns at boot -/
  loadedLatch : U32 := 0

/-- The parameters a reference points to. -/
def ParamsRef.deref (env : Env) : ParamsRef → Params
  | .initial => env.initialParams.getD (paramsFor defaultEventMode)
  | .preset mode => paramsFor mode

/-! ## State -/

/-- `App`. -/
structure App where
  -- control task
  params : ParamsRef
  rx : VehicleRx := {}
  wheels : WheelRx := {}
  pedals : PedalProcessor := {}
  adc1Progress : AdcProgress := {}
  adc2Progress : AdcProgress := {}
  brakeBias : BrakeBias := {}
  shutdownLoop : ShutdownLoop := {}
  b1Disconnect : Debouncer := {}
  b1Overvoltage : Debouncer := {}
  b2Disconnect : Debouncer := {}
  b2Overvoltage : Debouncer := {}
  motorPower : Debouncer := {}
  motorDisconnect : Debouncer := {}
  rtdSwitch : EdgeButton := {}
  brakeLatch : BrakeFlagLatch := {}
  coolantLatch : CoolantOvertempLatch := {}
  errorLeds : ErrorLeds := {}
  sm : StateMachine := {}
  torquePath : TorquePath := {}
  battery : BatteryEstimator := {}
  buzzer : Buzzer := {}
  regen : BrakeRegen := {}
  launch : LaunchRamp := {}
  wheelControl : WheelSlipController := {}
  dacPlaying : Bool := false
  prevFaultReset : Bool := false
  handledModeCommands : U32 := 0
  /-- an event mode waiting to apply outside DRIVE -/
  pendingMode : Option ℕ := none
  bootMs : U32 := 0
  lastControlMs : U32 := 0
  controlStarted : Bool := false
  faultClearSent : Bool := false
  faults : U32 := 0
  torqueCommand : ℚ := 0
  live : ControlSnapshot := {}
  faultsGate : RateGate := {}
  energyGate : RateGate := {}
  /-- the levels last written to the output pins -/
  outputPins : DigitalOutputs := {}
  -- shared between tasks
  published : ControlSnapshot := {}
  bootloaderRequest : Bool := false
  launchRequest : Bool := false
  bootloaderEntered : Bool := false
  shellModeRequest : Option ℕ := none
  controlBeats : U32 := 0
  telemetryBeats : U32 := 0
  latchSavePending : Bool := false
  latchSaveValue : U32 := 0
  -- telemetry task
  diagFastGate : RateGate := {}
  diagSlowGate : RateGate := {}
  -- supervisor task
  watchdogStarted : Bool := false
  seenControlBeats : U32 := 0
  seenTelemetryBeats : U32 := 0
  controlProgressMs : U32 := 0
  telemetryProgressMs : U32 := 0
  watchdogRefreshes : U32 := 0
deriving DecidableEq

/-- The parameters in use. -/
def App.P (env : Env) (a : App) : Params := a.params.deref env

/-- `App::App`. -/
def App.boot (env : Env) : App :=
  let params := match env.initialParams with
    | some _ => ParamsRef.initial
    | none => ParamsRef.preset defaultEventMode
  let live : ControlSnapshot := { eventMode := (params.deref env).eventMode }
  { params := params
    brakeLatch := if env.hasBoard then BrakeFlagLatch.restore {} env.loadedLatch else {}
    live := live
    published := live
    outputPins := safeOutputs }

/-! ## What a control tick reads -/

/-- Everything one control tick reads from outside the app: the frames waiting in the two inboxes, the ADC
    scans, the pins, and the outcomes of the driver calls it makes. -/
structure TickInputs where
  now : U32
  criticalFrames : List CanFrame := []
  dataFrames : List CanFrame := []
  adc1 : Option AdcScan := none
  adc2 : Option AdcScan := none
  pins : DigitalInputPins := {}
  /-- whether the `k`-th `Send` of the tick is accepted -/
  canAccepts : ℕ → Bool := fun _ => true
  /-- whether `WaveformDac::Play` succeeds -/
  playOk : Bool := true
  /-- whether the snapshot lock is free -/
  publishLock : Bool := true

end Lhre.Vcu
