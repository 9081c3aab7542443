import Lhre.Vcu.App

/-!
# `Vcu.ControlLoop` — the control tick

`App::ControlTick` and its stages in tick order (`boards/VCU/App/app/{control_loop,critical_tx}.cpp`). Each stage is
one record update, so that the fields it leaves alone are unchanged by `rfl`.
-/

namespace Lhre.Vcu

open Lhal Can Longhorn

/-! ## Inputs -/

/-- The opening of `App::ControlTick`: the boot time and the time of this tick. -/
def App.startTick (a : App) (now : U32) : App :=
  { a with
    controlStarted := true
    bootMs := if a.controlStarted then a.bootMs else now
    lastControlMs := now }

/-- `dt_ms`. -/
def App.dtMs (a : App) (now : U32) : U32 := now - (if a.controlStarted then a.lastControlMs else now)

/-- `App::DrainCan`. -/
def App.drainCan (a : App) (x : TickInputs) : App :=
  { a with
    rx := a.rx.drain x.criticalFrames x.now
    wheels := a.wheels.drain x.dataFrames x.now }

/-- The pedal inputs of `App::ReadInputs`. -/
def pedalInputs (analog : AnalogReadings) (raw : DigitalInputs) : PedalInputs :=
  { apps1V := analog.apps1.sourceV
    apps2V := analog.apps2.sourceV
    bse1V := analog.bse1.sourceV
    bse2V := analog.bse2.sourceV
    bse1PinV := analog.bse1.pinV
    bse2PinV := analog.bse2.pinV
    hardBrakingHw := raw.hardBraking }

/-- `App::ReadInputs`; the flag is the RTD press edge. The BSPD readbacks are taken as they are. -/
def App.readInputs (env : Env) (a : App) (x : TickInputs) : App × Bool :=
  let P := a.P env
  let analog := readAnalog x.adc1 x.adc2 env.vrefintCal P.analog
  let adc1 := a.adc1Progress.fresh x.adc1 x.now
  let adc2 := a.adc2Progress.fresh x.adc2 x.now
  let raw := readDigitalInputs x.pins
  let b1Disconnect := a.b1Disconnect.update raw.b1Disconnect x.now P.digital.brakeFlagDebounceMs
  let b1Overvoltage := a.b1Overvoltage.update raw.b1Overvoltage x.now P.digital.brakeFlagDebounceMs
  let b2Disconnect := a.b2Disconnect.update raw.b2Disconnect x.now P.digital.brakeFlagDebounceMs
  let b2Overvoltage := a.b2Overvoltage.update raw.b2Overvoltage x.now P.digital.brakeFlagDebounceMs
  let motorPower := a.motorPower.update raw.motorPower x.now P.digital.motorDebounceMs
  let motorDisconnect := a.motorDisconnect.update raw.motorDisconnect x.now P.digital.motorDebounceMs
  let rtdSwitch := a.rtdSwitch.update raw.rtdPressed x.now P.digital.rtdDebounceMs
  let pedals := a.pedals.update (pedalInputs analog raw) x.now P.apps P.bse
  let brakeBias := a.brakeBias.update pedals.2.bse1Psi pedals.2.bse2Psi P.bse.biasMinTotalPsi
  let shutdownLoop := a.shutdownLoop.update analog.shutdownIn.pinV analog.shutdownOut.pinV x.now P.shutdown
  ({ a with
      adc1Progress := adc1.1
      adc2Progress := adc2.1
      b1Disconnect := b1Disconnect
      b1Overvoltage := b1Overvoltage
      b2Disconnect := b2Disconnect
      b2Overvoltage := b2Overvoltage
      motorPower := motorPower
      motorDisconnect := motorDisconnect
      rtdSwitch := rtdSwitch.1
      pedals := pedals.1
      brakeBias := brakeBias
      shutdownLoop := shutdownLoop
      live :=
        { a.live with
          analog := analog
          adcFresh := adc1.2 && adc2.2
          inputs :=
            { raw with
              b1Disconnect := b1Disconnect.value
              b1Overvoltage := b1Overvoltage.value
              b2Disconnect := b2Disconnect.value
              b2Overvoltage := b2Overvoltage.value
              motorPower := motorPower.value
              motorDisconnect := motorDisconnect.value
              rtdPressed := rtdSwitch.1.pressed }
          pedals := pedals.2
          steering := computeSteering analog.steering.sourceV P.steering
          brakeBias := brakeBias.bias
          loop := shutdownLoop.state } },
   rtdSwitch.2)

/-- `reset_level` of `App::UpdateBrakeLatch`. -/
def App.resetLevel (a : App) (now : U32) : Bool :=
  a.rx.duiDriverInputs.fresh now && a.rx.duiDriverInputs.msg.faultReset

/-- Some debounced brake flag is active. -/
def DigitalInputs.anyBrakeFlag (i : DigitalInputs) : Bool :=
  i.b1Disconnect || i.b1Overvoltage || i.b2Disconnect || i.b2Overvoltage

/-- `App::UpdateBrakeLatch`; the flag is the dash reset edge. A change of the latch is handed to the
    telemetry task, which saves it. -/
def App.updateBrakeLatch (a : App) (now : U32) : App × Bool :=
  let resetLevel := a.resetLevel now
  let resetEdge := resetLevel && !a.prevFaultReset
  let latch := a.brakeLatch.update a.live.inputs.anyBrakeFlag resetEdge
  let bse3Available := a.rx.bse3.fresh now
  ({ a with
      prevFaultReset := resetLevel
      brakeLatch := if latch.dirty then latch.markPersisted else latch
      latchSaveValue := if latch.dirty then latch.persistedValue else a.latchSaveValue
      latchSavePending := latch.dirty || a.latchSavePending
      live :=
        { a.live with
          bse3Available := bse3Available
          bse3Psi := if bse3Available then a.rx.bse3.msg.brakePressure3 else 0 } },
   resetEdge)

/-- `App::UpdateCoolantLatch`. A silent TSM leaves the latch as it is. -/
def App.updateCoolantLatch (env : Env) (a : App) (now : U32) (resetEdge : Bool) : App :=
  let coolant := a.wheels.coolantLoopTemps
  let hottest := max coolant.msg.loopTempAfterMotor coolant.msg.loopTempAfterInverter
  { a with
    coolantLatch :=
      if coolant.fresh now then
        a.coolantLatch.update (decide ((a.P env).cooling.overtempC ≤ hottest)) resetEdge
      else a.coolantLatch }

/-! ## Faults and state -/

/-- The HVC part of the state inputs, shared by `App::ComputeFaults` and `App::UpdateState`. -/
def App.hvcInputs (a : App) (now : U32) : StateInputs :=
  { hvcFresh := a.rx.contactorStatus.fresh now
    hvcState := HvcState.ofRaw a.rx.contactorStatus.msg.hvcStateMachine
    contactorsClosed := a.rx.contactorStatus.msg.positiveHvContactor &&
      a.rx.contactorStatus.msg.negativeHvContactor }

/-- The checks of `App::ComputeFaults` in its order, each with the fault it raises. -/
def App.faultChecks (a : App) (now : U32) (inverterFresh inverterFaulted : Bool) : List (Bool × FaultBit) :=
  let ped := a.live.pedals
  [(!a.live.adcFresh, .adcStale),
   (ped.appsImplausibility, .appsImplausibility),
   (ped.apps1Disconnect || ped.apps1OutOfRange, .apps1Range),
   (ped.apps2Disconnect || ped.apps2OutOfRange, .apps2Range),
   (ped.bse1Fault, .bse1Range),
   (ped.bse2Fault, .bse2Range),
   (a.live.steering.rangeFault, .steeringRange),
   (a.brakeLatch.latched, .brakeFlagLatched),
   (a.coolantLatch.latched, .coolantOvertemp),
   (ped.brakeOverThrottle, .brakeOverThrottle),
   (!a.shutdownLoop.closed, .shutdownOpen),
   (!a.rx.contactorStatus.fresh now, .hvcTimeout),
   (!inverterFresh, .inverterTimeout),
   (!a.rx.bse3.fresh now, .pduTimeout),
   (!a.rx.bse3.fresh now, .bse3Unavailable),
   (inverterFaulted, .inverterFault),
   (a.live.inputs.latchState, .bspdTripped),
   (ped.hardBrakeMismatch, .hardBrakeMismatch),
   (!a.rx.duiDriverInputs.fresh now, .duiTimeout),
   (a.live.inputs.motorDisconnect, .motorDisconnect),
   (a.live.loop == .implausibility, .shutdownSenseImplausibility),
   (a.sm.state == .drive && !(a.hvcInputs now).energized, .contactorsOpen)]

/-- `App::ComputeFaults`. -/
def App.computeFaults (a : App) (now : U32) (inverterFresh inverterFaulted : Bool) : U32 :=
  faultWord (a.faultChecks now inverterFresh inverterFaulted)

/-- The state inputs of `App::UpdateState`. -/
def App.stateInputs (env : Env) (a : App) (now : U32) (rtdEdge inverterFresh inverterFaulted : Bool) :
    StateInputs :=
  let ped := a.live.pedals
  { a.hvcInputs now with
    bspdLatched := a.live.inputs.latchState
    loopClosed := a.shutdownLoop.closed
    torqueCutFault := anyFault a.faults kTorqueCutFaults
    inverterReady := inverterFresh && !inverterFaulted
    pduFresh := a.live.bse3Available
    bseValid := !ped.bse1Fault && !ped.bse2Fault && !ped.bse1Disconnect && !ped.bse2Disconnect &&
      !ped.bse1OutOfRange && !ped.bse2OutOfRange
    brakeForRtd := ped.brakeForRtd
    pedalReleased := decide (ped.pedalTravel ≤ (a.P env).drive.rtdMaxPedal)
    rtdEdge := rtdEdge
    rtdPressed := a.live.inputs.rtdPressed
    rtdReleaseExitsDrive := (a.P env).drive.rtdReleaseExitsDrive }

/-- `App::UpdateState`. -/
def App.updateState (env : Env) (a : App) (now : U32) (rtdEdge inverterFresh inverterFaulted : Bool) : App :=
  let stepped := a.sm.step (a.stateInputs env now rtdEdge inverterFresh inverterFaulted)
  { a with
    sm := stepped.1
    buzzer :=
      if stepped.2 then
        if stepped.1.state = .drive then a.buzzer.start now (a.P env).buzzer.durationMs else a.buzzer.stop
      else a.buzzer
    torquePath := if stepped.2 && a.sm.state == .drive then a.torquePath.reset else a.torquePath }

/-- The mode `App::ApplyModeRequests` has pending once the bus and the shell have been looked at; the
    shell wins. -/
def App.requestedMode (a : App) : Option ℕ :=
  let fromBus := if a.rx.vcuModeCommand.count != a.handledModeCommands then
      some a.rx.vcuModeCommand.msg.eventMode.toNat else a.pendingMode
  if a.shellModeRequest.isSome then a.shellModeRequest else fromBus

/-- `App::ApplyModeRequests`: parameter sets switch only outside DRIVE. -/
def App.applyModeRequests (env : Env) (a : App) : App :=
  let handled := { a with handledModeCommands := a.rx.vcuModeCommand.count, shellModeRequest := none }
  match a.requestedMode with
  | none => { handled with pendingMode := none }
  | some raw =>
      if a.sm.state = .drive then { handled with pendingMode := some raw }
      else
        let next := ParamsRef.preset (eventModeOfRaw raw)
        { handled with
          pendingMode := none
          params := next
          torquePath := if next != a.params then a.torquePath.reset else a.torquePath
          live := { a.live with eventMode := (next.deref env).eventMode } }

/-! ## Torque -/

/-- `App::InverterFeedback`. -/
structure InverterFeedback where
  rpm : ℚ := 0
  dcV : ℚ := 0
  dcA : ℚ := 0
deriving DecidableEq

/-- The values of `App::ReadInverterFeedback`; held values are kept for diagnostics. -/
def App.inverterFeedback (a : App) (now : U32) : InverterFeedback :=
  { rpm := (a.rx.motorRpm now).1
    dcV := if a.rx.inverterVoltage.seen then a.rx.inverterVoltage.msg.dcBusVoltage else 0
    dcA := if a.rx.inverterCurrent.seen then a.rx.inverterCurrent.msg.dcBusCurrent else 0 }

/-- The battery inputs of `App::UpdateTorque`. -/
def App.batteryInputs (a : App) (fb : InverterFeedback) (dtMs : U32) : BatteryInputs :=
  let limits := a.rx.batteryCellLimits
  { dcBusCurrent := fb.dcA
    dcBusVoltage := fb.dcV
    minCellV := if limits.seen then limits.msg.minCellVoltage else 0
    maxCellV := if limits.seen then limits.msg.maxCellVoltage else 0
    dtMs := dtMs }

/-- `torque_allowed`: only in DRIVE with no torque-cut fault and no brake-over-throttle. -/
def App.torqueAllowed (a : App) : Bool :=
  a.sm.state == .drive && !anyFault a.faults kTorqueCutFaults && !a.live.pedals.brakeOverThrottle &&
    !a.bootloaderEntered && !a.bootloaderRequest

/-- The torque inputs of `App::PositiveTorque`. -/
def App.torqueInputs (a : App) (now dtMs : U32) (fb : InverterFeedback) : TorqueInputs :=
  let highSpeed := a.rx.inverterSpeed.fresh now
  { pedalTravel := a.live.pedals.pedalTravel
    motorRpm := fb.rpm
    motorSpeedValid := a.live.motorSpeedValid
    dcBusVoltage := fb.dcV
    dcBusCurrent := fb.dcA
    powerSampleMs := a.rx.inverterCurrent.lastMs
    ocvMinCellV := a.live.battery.ocvMinCellV
    dtMs := dtMs
    speedFromHighSpeed := highSpeed
    speedSampleMs := if highSpeed then a.rx.inverterSpeed.lastMs else a.rx.inverterStatus.lastMs }

/-- The wheel inputs of `App::PositiveTorque`. -/
def App.wheelInputs (a : App) (now : U32) : WheelInputs :=
  { fresh := a.wheels.fresh now
    fl := a.wheels.wheelSpeedFl.msg.wheelSpeed
    fr := a.wheels.wheelSpeedFr.msg.wheelSpeed
    rl := a.wheels.wheelSpeedRl.msg.wheelSpeed
    rr := a.wheels.wheelSpeedRr.msg.wheelSpeed }

/-- The launch ramp as `App::PositiveTorque` hands it to `LaunchRamp::Update`: armed on request, aborted
    while the wheel data is invalid. -/
def App.launchBeforeUpdate (env : Env) (a : App) (allowed : Bool) (rpm : ℚ) (wheel : WheelControlResult) :
    LaunchRamp :=
  let P := a.P env
  let ped := a.live.pedals
  let launch := if a.launchRequest then
      (a.launch.arm (allowed && wheel.valid && decide (wheel.referenceMS < 0.5) &&
        P.eventMode == .acceleration) ped.brakeForRtd ped.pedalTravel rpm P.launch).1
    else a.launch
  if P.launch.enabled && !wheel.valid then launch.abort else launch

/-- `App::PositiveTorque`: the app after the four controllers, and the torque the driver gets. -/
def App.positiveTorque (env : Env) (a : App) (now dtMs : U32) (allowed : Bool) (fb : InverterFeedback) :
    App × ℚ :=
  let P := a.P env
  let ped := a.live.pedals
  -- wheel control replaces the acceleration limiter
  let limiter := if P.wheelControl.enabled then { P.traction with enabled := false } else P.traction
  let torque := a.torquePath.update env.pow (a.torqueInputs now dtMs fb) P.torque P.powerLimit limiter
  let wheel := a.wheelControl.update (a.wheelInputs now) (if allowed then torque.2.traction else 0) dtMs
    P.wheelControl
  let launched := (a.launchBeforeUpdate env allowed fb.rpm wheel.2).update wheel.2.positiveNm allowed
    ped.brakeForRtd ped.pedalTravel fb.rpm dtMs P.launch
  ({ a with
      torquePath := torque.1
      wheelControl := wheel.1
      launch := launched.1
      launchRequest := false
      live :=
        { a.live with
          torque := torque.2
          wheelControl := wheel.2
          launchArmed := launched.1.armed } },
   if P.launch.enabled && !wheel.2.valid then 0 else launched.2)

/-- The regen inputs of `App::ArbitrateTorque`. -/
def App.regenInputs (a : App) (now dtMs : U32) (allowed inverterFresh : Bool) (fb : InverterFeedback) :
    RegenInputs :=
  let ped := a.live.pedals
  { drive := allowed
    feedbackFresh := inverterFresh && a.live.bse3Available && a.live.wheelControl.valid &&
      a.live.wheelControl.regenAllowed && a.rx.batteryCellLimits.fresh now && a.live.adcFresh
    hardBraking := a.live.inputs.hardBraking || ped.firmwareHardBrake
    linelockOut := a.live.inputs.linelockOut
    pedal := ped.pedalTravel
    rearPrePsi := ped.bse2Psi
    rearPostPsi := a.live.bse3Psi
    motorRpm := fb.rpm
    dcV := fb.dcV
    dcA := fb.dcA
    maxCellV := a.rx.batteryCellLimits.msg.maxCellVoltage
    dtMs := dtMs }

/-- The torque command `App::ArbitrateTorque` chooses: regen wins over the driver, and neither gets
    through while torque is not allowed. -/
def arbitrate (P : Params) (allowed : Bool) (regen : RegenResult) (bse2Psi positiveNm : ℚ) : ℚ :=
  let regenBraking := P.regen.enabled && decide (P.regen.engageMaxPsi < bse2Psi)
  if allowed && !regen.currentCut then
    if regen.torqueNm < 0 then clamp regen.torqueNm (-P.inverter.torqueLimitNm) 0
    else if !regenBraking then clamp positiveNm 0 P.inverter.torqueLimitNm
    else 0
  else 0

/-- `App::ArbitrateTorque`. -/
def App.arbitrateTorque (env : Env) (a : App) (now dtMs : U32) (allowed inverterFresh : Bool)
    (positiveNm : ℚ) (fb : InverterFeedback) : App :=
  let P := a.P env
  let regen := a.regen.update (a.regenInputs now dtMs allowed inverterFresh fb) P.regen
  let command := arbitrate P allowed regen.2 a.live.pedals.bse2Psi positiveNm
  { a with
    regen := regen.1
    torqueCommand := command
    torquePath := if !allowed then a.torquePath.reset else a.torquePath
    live :=
      { a.live with
        regenCurrentCut := regen.2.currentCut
        torqueCommand := command
        inverterEnable := a.sm.state == .drive && !anyFault a.faults kTorqueCutFaults &&
          !a.bootloaderEntered && !a.bootloaderRequest
        linelockRequest := allowed && regen.2.linelockRequest } }

/-- The measurements of `App::UpdateTorque`: the inverter feedback and the battery estimate. -/
def App.measureTorque (env : Env) (a : App) (now dtMs : U32) : App :=
  let fb := a.inverterFeedback now
  let battery := a.battery.update (a.batteryInputs fb dtMs) (a.P env).battery
  { a with
    battery := battery
    live :=
      { a.live with
        motorSpeedValid := (a.rx.motorRpm now).2
        motorRpm := fb.rpm
        battery := battery.out } }

/-- `App::UpdateTorque`. -/
def App.updateTorque (env : Env) (a : App) (now dtMs : U32) (inverterFresh : Bool) : App :=
  let fb := a.inverterFeedback now
  let a := a.measureTorque env now dtMs
  let allowed := a.torqueAllowed
  let positive := a.positiveTorque env now dtMs allowed fb
  positive.1.arbitrateTorque env now dtMs allowed inverterFresh positive.2 fb

/-! ## Outputs -/

/-- `App::UpdateStatus`: the status fields of the snapshot. -/
def App.updateStatus (a : App) (now : U32) : App :=
  { a with
    live :=
      { a.live with
        nowMs := now
        state := a.sm.state
        lastTransition := a.sm.lastReason
        faults := a.faults
        primaryFault := primaryFault a.faults
        brakeFlagsLatched := a.brakeLatch.latched
        faultResets := a.brakeLatch.resets } }

/-- `App::DriveOutputs`. -/
def App.driveOutputs (env : Env) (a : App) (x : TickInputs) : App :=
  let buzzer := a.buzzer.update x.now a.shutdownLoop.closed (a.P env).buzzer.maxOnMs
  let sound := buzzer.active
  let indicators := a.rx.indicatorsShutdownStatus
  let leds := a.errorLeds.update (indicators.fresh x.now) indicators.msg.bmsError indicators.msg.imdError
  let out := { safeOutputs with
    linelockCtrl := a.live.linelockRequest
    ampEnable := sound
    bmsLed := leds.bmsOn
    imdLed := leds.imdOn }
  { a with
    buzzer := buzzer
    dacPlaying :=
      if !env.hasAudioDac then a.dacPlaying
      else if sound && !a.dacPlaying then x.playOk
      else if !sound && a.dacPlaying then false
      else a.dacPlaying
    errorLeds := leds
    outputPins := out
    live := { a.live with buzzer := sound, outputs := out } }

/-- The one-shot inverter fault clear is due. -/
def App.faultClearDue (env : Env) (a : App) (now : U32) : Bool :=
  !a.faultClearSent && elapsedMs now a.bootMs (a.P env).inverter.faultClearDelayMs

/-- The frames `App::SendCritical` sends, in order. -/
def App.criticalSends (env : Env) (a : App) (now : U32) : List CriticalFrame :=
  let s := a.live
  let P := a.P env
  -- enable = 0 outside DRIVE also satisfies the inverter's disable-before-enable lockout
  [.inverterTorqueCommand (torqueCommandFrame s P.inverter)] ++
  (if a.faultClearDue env now then [.inverterParameterRequest (faultClearFrame P.inverter)] else []) ++
  [.appsVoltages (appsVoltagesFrame s), .acceleratorPedal (accelPedalFrame s), .brakePedal (brakePedalFrame s),
   .bseVoltages (bseVoltagesFrame s), .brakes (brakesFrame s), .steeringColumn (steeringFrame s),
   .vcuState (driveStateFrame s)] ++
  (if (a.faultsGate.due now (periodMs VcuFaults.kFrequencyHz)).2 then [.vcuFaults (faultsFrame s)] else []) ++
  (if (a.energyGate.due now (periodMs EnergyEstimate.kFrequencyHz)).2 then
    [.energyEstimate (energyFrame s), .torquePath (torquePathFrame s)] else [])

/-- `App::SendCritical`: the app after the sends, and the frames the bus queued. -/
def App.sendCritical (env : Env) (a : App) (x : TickInputs) : App × List CriticalFrame :=
  if !env.hasCriticalCan then (a, [])
  else
    ({ a with
        -- the fault clear is the second send of its tick
        faultClearSent := if a.faultClearDue env x.now then x.canAccepts 1 else a.faultClearSent
        faultsGate := (a.faultsGate.due x.now (periodMs VcuFaults.kFrequencyHz)).1
        energyGate := (a.energyGate.due x.now (periodMs EnergyEstimate.kFrequencyHz)).1 },
     ((a.criticalSends env x.now).zipIdx.filter (fun s => x.canAccepts s.2)).map Prod.fst)

/-- `App::Publish`: never blocks the control loop. -/
def App.publish (a : App) (x : TickInputs) : App :=
  { a with published := if x.publishLock then a.live else a.published }

/-! ## The tick -/

/-- The tick up to the sampled inputs and the latches; the flag is the RTD press edge. -/
def App.sense (env : Env) (a : App) (x : TickInputs) : App × Bool :=
  let read := ((a.startTick x.now).drainCan x).readInputs env x
  let latched := read.1.updateBrakeLatch x.now
  (latched.1.updateCoolantLatch env x.now latched.2, read.2)

/-- The tick up to the fault word. -/
def App.judge (env : Env) (a : App) (x : TickInputs) : App :=
  let s := (a.sense env x).1
  { s with faults := s.computeFaults x.now (s.rx.inverterFresh x.now) (s.rx.inverterFaulted x.now) }

/-- The tick up to the state machine's step. -/
def App.stepState (env : Env) (a : App) (x : TickInputs) : App :=
  let j := a.judge env x
  j.updateState env x.now (a.sense env x).2 (j.rx.inverterFresh x.now) (j.rx.inverterFaulted x.now)

/-- The tick up to the torque command. -/
def App.command (env : Env) (a : App) (x : TickInputs) : App :=
  let s := (a.stepState env x).applyModeRequests env
  s.updateTorque env x.now (a.dtMs x.now) (s.rx.inverterFresh x.now)

/-- `App::ControlTick`: the app after the tick, and the frames it queued on the Critical bus. -/
def App.controlTick (env : Env) (a : App) (x : TickInputs) : App × List CriticalFrame :=
  let sent := (((a.command env x).updateStatus x.now).driveOutputs env x).sendCritical env x
  ({ sent.1.publish x with controlBeats := sent.1.controlBeats + 1 }, sent.2)

end Lhre.Vcu
