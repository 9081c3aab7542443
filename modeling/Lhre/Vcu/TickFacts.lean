import Lhre.Vcu.Tasks

/-!
# `Vcu.TickFacts` — what one control tick does to each part of the app

The stages of the tick write disjoint parts of the app, so every part's value after a tick is the value the one
stage that writes it left. This module says so part by part; nothing after it unfolds a stage.

## Contents
- **What the late stages leave alone.** `App.SameSensed`, stage by stage, and `controlTick_same`.
- **The parts.** `controlTick_…`: a part of the app after a tick, from the app before it.
- **The state machine.** `controlTick_state`, and its inputs read off the app after the tick.
- **The torque command.** `controlTick_torqueCommand` and `controlTick_inverterEnable`; `controlTick_launch` and
  `controlTick_positive` for the launch ramp and the torque it lets through.
- **Other tasks.** `App.SameControl` and `beforeTick_same`: what the other tasks leave alone.
- **Runs.** The same facts at tick `n` of a run.
-/

namespace Lhre.Vcu

open Lhal Can Longhorn

section Tick

variable (env : Env) (a : App) (x : TickInputs)

/-! ## What the late stages leave alone -/

/-- `c` has the sampled inputs, latches, fault word and state of `b`. -/
structure App.SameSensed (b c : App) : Prop where
  sm : c.sm = b.sm
  faults : c.faults = b.faults
  rx : c.rx = b.rx
  wheels : c.wheels = b.wheels
  pedals : c.pedals = b.pedals
  adc1Progress : c.adc1Progress = b.adc1Progress
  adc2Progress : c.adc2Progress = b.adc2Progress
  shutdownLoop : c.shutdownLoop = b.shutdownLoop
  rtdSwitch : c.rtdSwitch = b.rtdSwitch
  brakeLatch : c.brakeLatch = b.brakeLatch
  prevFaultReset : c.prevFaultReset = b.prevFaultReset
  latchSaveValue : c.latchSaveValue = b.latchSaveValue
  latchSavePending : c.latchSavePending = b.latchSavePending
  bootloaderRequest : c.bootloaderRequest = b.bootloaderRequest
  bootloaderEntered : c.bootloaderEntered = b.bootloaderEntered
  liveAnalog : c.live.analog = b.live.analog
  livePedals : c.live.pedals = b.live.pedals
  liveInputs : c.live.inputs = b.live.inputs
  adcFresh : c.live.adcFresh = b.live.adcFresh
  bse3Available : c.live.bse3Available = b.live.bse3Available

theorem App.SameSensed.trans {b c d : App} (h : b.SameSensed c) (h' : c.SameSensed d) : b.SameSensed d where
  sm := h'.sm.trans h.sm
  faults := h'.faults.trans h.faults
  rx := h'.rx.trans h.rx
  wheels := h'.wheels.trans h.wheels
  pedals := h'.pedals.trans h.pedals
  adc1Progress := h'.adc1Progress.trans h.adc1Progress
  adc2Progress := h'.adc2Progress.trans h.adc2Progress
  shutdownLoop := h'.shutdownLoop.trans h.shutdownLoop
  rtdSwitch := h'.rtdSwitch.trans h.rtdSwitch
  brakeLatch := h'.brakeLatch.trans h.brakeLatch
  prevFaultReset := h'.prevFaultReset.trans h.prevFaultReset
  latchSaveValue := h'.latchSaveValue.trans h.latchSaveValue
  latchSavePending := h'.latchSavePending.trans h.latchSavePending
  bootloaderRequest := h'.bootloaderRequest.trans h.bootloaderRequest
  bootloaderEntered := h'.bootloaderEntered.trans h.bootloaderEntered
  liveAnalog := h'.liveAnalog.trans h.liveAnalog
  livePedals := h'.livePedals.trans h.livePedals
  liveInputs := h'.liveInputs.trans h.liveInputs
  adcFresh := h'.adcFresh.trans h.adcFresh
  bse3Available := h'.bse3Available.trans h.bse3Available

section Stages

variable (b : App) (now dtMs : U32)

theorem App.measureTorque_same : b.SameSensed (b.measureTorque env now dtMs) := by
  unfold App.measureTorque
  constructor <;> rfl

theorem App.positiveTorque_same (allowed : Bool) (fb : InverterFeedback) :
    b.SameSensed (b.positiveTorque env now dtMs allowed fb).1 := by
  unfold App.positiveTorque
  constructor <;> rfl

theorem App.arbitrateTorque_same (allowed fresh : Bool) (positive : ℚ) (fb : InverterFeedback) :
    b.SameSensed (b.arbitrateTorque env now dtMs allowed fresh positive fb) := by
  unfold App.arbitrateTorque
  constructor <;> rfl

theorem App.updateTorque_same (fresh : Bool) : b.SameSensed (b.updateTorque env now dtMs fresh) :=
  (b.measureTorque_same env now dtMs).trans
    ((App.positiveTorque_same env _ now dtMs _ _).trans (App.arbitrateTorque_same env _ now dtMs _ fresh _ _))

theorem App.applyModeRequests_same : b.SameSensed (b.applyModeRequests env) := by
  unfold App.applyModeRequests
  split
  · constructor <;> rfl
  · split <;> constructor <;> rfl

theorem App.updateStatus_same : b.SameSensed (b.updateStatus now) := by
  unfold App.updateStatus
  constructor <;> rfl

theorem App.driveOutputs_same : b.SameSensed (b.driveOutputs env x) := by
  unfold App.driveOutputs
  constructor <;> rfl

theorem App.sendCritical_same : b.SameSensed (b.sendCritical env x).1 := by
  unfold App.sendCritical
  split <;> constructor <;> rfl

theorem App.publish_same (beats : U32) : b.SameSensed { b.publish x with controlBeats := beats } := by
  unfold App.publish
  constructor <;> rfl

/-- The launch ramp and its request are no part of it. -/
theorem App.launch_same (launch : LaunchRamp) (request : Bool) :
    b.SameSensed { b with launch := launch, launchRequest := request } := by
  constructor <;> rfl

/-- The stages after the torque command. -/
theorem App.outputs_same : b.SameSensed
    { (((b.updateStatus x.now).driveOutputs env x).sendCritical env x).1.publish x with
      controlBeats := (((b.updateStatus x.now).driveOutputs env x).sendCritical env x).1.controlBeats + 1 } := by
  have hdriven := (b.updateStatus_same x.now).trans (App.driveOutputs_same env x _)
  have hsent := hdriven.trans (App.sendCritical_same env x _)
  exact hsent.trans (App.publish_same x _ _)

end Stages

/-- The app as `UpdateTorque` finds it: the mode requests are handled. -/
def App.moded : App := (a.stepState env x).applyModeRequests env

/-- **Nothing after the state machine's step** touches the sampled inputs, the latches, the fault word or the
    state. -/
theorem App.controlTick_same : (a.stepState env x).SameSensed (a.controlTick env x).1 :=
  ((a.stepState env x).applyModeRequests_same env).trans
    ((App.updateTorque_same env _ _ _ _).trans (App.outputs_same env x _))

/-! ## The parts -/

/-- The analog readings of the tick. -/
def App.analogAt : AnalogReadings := readAnalog x.adc1 x.adc2 env.vrefintCal (a.P env).analog

/-- The pedal inputs of the tick. -/
def App.pedalInputsAt : PedalInputs := pedalInputs (a.analogAt env x) (readDigitalInputs x.pins)

@[simp] theorem App.controlTick_sm : (a.controlTick env x).1.sm = (a.stepState env x).sm :=
  (a.controlTick_same env x).sm

@[simp] theorem App.controlTick_faults : (a.controlTick env x).1.faults = (a.judge env x).faults :=
  (a.controlTick_same env x).faults

@[simp] theorem App.controlTick_rx : (a.controlTick env x).1.rx = a.rx.drain x.criticalFrames x.now :=
  (a.controlTick_same env x).rx

@[simp] theorem App.controlTick_wheels : (a.controlTick env x).1.wheels = a.wheels.drain x.dataFrames x.now :=
  (a.controlTick_same env x).wheels

@[simp] theorem App.controlTick_pedals : (a.controlTick env x).1.pedals =
    (a.pedals.update (a.pedalInputsAt env x) x.now (a.P env).apps (a.P env).bse).1 :=
  (a.controlTick_same env x).pedals

@[simp] theorem App.controlTick_live_analog : (a.controlTick env x).1.live.analog = a.analogAt env x :=
  (a.controlTick_same env x).liveAnalog

@[simp] theorem App.controlTick_live_pedals : (a.controlTick env x).1.live.pedals =
    (a.pedals.update (a.pedalInputsAt env x) x.now (a.P env).apps (a.P env).bse).2 :=
  (a.controlTick_same env x).livePedals

@[simp] theorem App.controlTick_live_inputs : (a.controlTick env x).1.live.inputs =
    (a.sense env x).1.live.inputs :=
  (a.controlTick_same env x).liveInputs

@[simp] theorem App.controlTick_live_adcFresh : (a.controlTick env x).1.live.adcFresh =
    ((a.adc1Progress.fresh x.adc1 x.now).2 && (a.adc2Progress.fresh x.adc2 x.now).2) :=
  (a.controlTick_same env x).adcFresh

@[simp] theorem App.controlTick_live_bse3Available : (a.controlTick env x).1.live.bse3Available =
    (a.rx.drain x.criticalFrames x.now).bse3.fresh x.now :=
  (a.controlTick_same env x).bse3Available

@[simp] theorem App.controlTick_shutdownLoop : (a.controlTick env x).1.shutdownLoop =
    a.shutdownLoop.update (a.analogAt env x).shutdownIn.pinV
      (a.analogAt env x).shutdownOut.pinV x.now (a.P env).shutdown :=
  (a.controlTick_same env x).shutdownLoop

@[simp] theorem App.controlTick_rtdSwitch : (a.controlTick env x).1.rtdSwitch =
    (a.rtdSwitch.update (readDigitalInputs x.pins).rtdPressed x.now
      (a.P env).digital.rtdDebounceMs).1 :=
  (a.controlTick_same env x).rtdSwitch

@[simp] theorem App.controlTick_adc1Progress : (a.controlTick env x).1.adc1Progress =
    (a.adc1Progress.fresh x.adc1 x.now).1 :=
  (a.controlTick_same env x).adc1Progress

@[simp] theorem App.controlTick_adc2Progress : (a.controlTick env x).1.adc2Progress =
    (a.adc2Progress.fresh x.adc2 x.now).1 :=
  (a.controlTick_same env x).adc2Progress

@[simp] theorem App.controlTick_brakeLatch : (a.controlTick env x).1.brakeLatch =
    (a.sense env x).1.brakeLatch :=
  (a.controlTick_same env x).brakeLatch

@[simp] theorem App.controlTick_prevFaultReset : (a.controlTick env x).1.prevFaultReset =
    (a.sense env x).1.prevFaultReset :=
  (a.controlTick_same env x).prevFaultReset

@[simp] theorem App.controlTick_latchSaveValue : (a.controlTick env x).1.latchSaveValue =
    (a.sense env x).1.latchSaveValue :=
  (a.controlTick_same env x).latchSaveValue

@[simp] theorem App.controlTick_latchSavePending : (a.controlTick env x).1.latchSavePending =
    (a.sense env x).1.latchSavePending :=
  (a.controlTick_same env x).latchSavePending

@[simp] theorem App.controlTick_bootloaderRequest : (a.controlTick env x).1.bootloaderRequest =
    a.bootloaderRequest :=
  (a.controlTick_same env x).bootloaderRequest

@[simp] theorem App.controlTick_bootloaderEntered : (a.controlTick env x).1.bootloaderEntered =
    a.bootloaderEntered :=
  (a.controlTick_same env x).bootloaderEntered

/-- The BSPD latch readback is taken as it is. -/
theorem App.controlTick_latchState : (a.controlTick env x).1.live.inputs.latchState = readPin x.pins.latchState := by
  rw [App.controlTick_live_inputs]
  rfl

/-- The RTD level of the snapshot is the switch's debounced level. -/
theorem App.controlTick_rtdPressed :
    (a.controlTick env x).1.live.inputs.rtdPressed = (a.controlTick env x).1.rtdSwitch.pressed := by
  rw [App.controlTick_live_inputs, App.controlTick_rtdSwitch]
  rfl

/-! ## The state machine -/

/-- The inputs of the state machine's step in a tick. -/
def App.tickStateInputs : StateInputs :=
  (a.judge env x).stateInputs env x.now (a.sense env x).2 ((a.judge env x).rx.inverterFresh x.now)
    ((a.judge env x).rx.inverterFaulted x.now)

/-- **The state after a tick** is the table's successor of the state before it. -/
theorem App.controlTick_state :
    (a.controlTick env x).1.sm.state = nextState a.sm.state (a.tickStateInputs env x) := by
  rw [App.controlTick_sm]
  exact StateMachine.step_fst_state _ _

/-- The state inputs, read off the app after the tick. -/
theorem App.tickStateInputs_eq : a.tickStateInputs env x =
    let a' := (a.controlTick env x).1
    let ped := a'.live.pedals
    { a'.hvcInputs x.now with
      bspdLatched := a'.live.inputs.latchState
      loopClosed := a'.shutdownLoop.closed
      torqueCutFault := anyFault a'.faults kTorqueCutFaults
      inverterReady := a'.rx.inverterFresh x.now && !a'.rx.inverterFaulted x.now
      pduFresh := a'.rx.bse3.fresh x.now
      bseValid := !ped.bse1Fault && !ped.bse2Fault && !ped.bse1Disconnect && !ped.bse2Disconnect &&
        !ped.bse1OutOfRange && !ped.bse2OutOfRange
      brakeForRtd := ped.brakeForRtd
      pedalReleased := decide (ped.pedalTravel ≤ (a.P env).drive.rtdMaxPedal)
      rtdEdge := (a.rtdSwitch.update (readDigitalInputs x.pins).rtdPressed x.now
        (a.P env).digital.rtdDebounceMs).2
      rtdPressed := a'.live.inputs.rtdPressed
      rtdReleaseExitsDrive := (a.P env).drive.rtdReleaseExitsDrive } := by
  simp only [App.controlTick_rx, App.controlTick_shutdownLoop, App.controlTick_faults,
    App.controlTick_live_pedals, App.controlTick_live_inputs, App.hvcInputs]
  rfl

/-! ## Faults -/

/-- No torque cut is raised by what the app sampled at `now`. -/
structure App.NoCut (a : App) (now : U32) : Prop where
  adcFresh : a.live.adcFresh = true
  appsPlausible : a.live.pedals.appsImplausibility = false
  bse1 : a.live.pedals.bse1Fault = false
  bse2 : a.live.pedals.bse2Fault = false
  brakeLatch : a.brakeLatch.latched = false
  loopClosed : a.shutdownLoop.closed = true
  hvcFresh : a.rx.contactorStatus.fresh now = true
  inverterFresh : a.rx.inverterFresh now = true
  bse3Fresh : a.rx.bse3.fresh now = true
  inverterOk : a.rx.inverterFaulted now = false
  bspd : a.live.inputs.latchState = false
  motorConnected : a.live.inputs.motorDisconnect = false

/-- A fault word without a torque-cut bit was computed from inputs that ask for no cut. -/
theorem App.noCut_of_computeFaults {b : App} {now : U32}
    (h : anyFault (b.computeFaults now (b.rx.inverterFresh now) (b.rx.inverterFaulted now))
      kTorqueCutFaults = false) : b.NoCut now := by
  have check : ∀ {raised : Bool} {fault : FaultBit},
      (raised, fault) ∈ b.faultChecks now (b.rx.inverterFresh now) (b.rx.inverterFaulted now) →
      fault ∈ torqueCutFaultBits → raised = false := by
    intro raised fault hmem hcut
    exact not_raised_of_not_anyFault h hmem hcut
  have hadc := @check (!b.live.adcFresh) .adcStale (by simp [App.faultChecks]) (by decide)
  have hloop := @check (!b.shutdownLoop.closed) .shutdownOpen (by simp [App.faultChecks]) (by decide)
  have hhvc := @check (!b.rx.contactorStatus.fresh now) .hvcTimeout (by simp [App.faultChecks]) (by decide)
  have hinv := @check (!b.rx.inverterFresh now) .inverterTimeout (by simp [App.faultChecks]) (by decide)
  have hpdu := @check (!b.rx.bse3.fresh now) .pduTimeout (by simp [App.faultChecks]) (by decide)
  constructor
  case adcFresh => simpa using hadc
  case appsPlausible => exact @check _ .appsImplausibility (by simp [App.faultChecks]) (by decide)
  case bse1 => exact @check _ .bse1Range (by simp [App.faultChecks]) (by decide)
  case bse2 => exact @check _ .bse2Range (by simp [App.faultChecks]) (by decide)
  case brakeLatch => exact @check _ .brakeFlagLatched (by simp [App.faultChecks]) (by decide)
  case loopClosed => simpa using hloop
  case hvcFresh => simpa using hhvc
  case inverterFresh => simpa using hinv
  case bse3Fresh => simpa using hpdu
  case inverterOk => exact @check _ .inverterFault (by simp [App.faultChecks]) (by decide)
  case bspd => exact @check _ .bspdTripped (by simp [App.faultChecks]) (by decide)
  case motorConnected => exact @check _ .motorDisconnect (by simp [App.faultChecks]) (by decide)

/-- **A cut acts in its own tick.** The fault word of a tick has a torque-cut bit as soon as one of the inputs
    sampled in that tick asks for a cut. -/
theorem App.noCut_of_not_anyFault
    (h : anyFault (a.controlTick env x).1.faults kTorqueCutFaults = false) :
    (a.controlTick env x).1.NoCut x.now := by
  rw [App.controlTick_faults] at h
  have hsense : (a.sense env x).1.NoCut x.now := App.noCut_of_computeFaults h
  have hlive : (a.controlTick env x).1.live.adcFresh = (a.sense env x).1.live.adcFresh :=
    App.controlTick_live_adcFresh env a x
  have hpedals : (a.controlTick env x).1.live.pedals = (a.sense env x).1.live.pedals :=
    App.controlTick_live_pedals env a x
  have hloop : (a.controlTick env x).1.shutdownLoop = (a.sense env x).1.shutdownLoop :=
    App.controlTick_shutdownLoop env a x
  have hrx : (a.controlTick env x).1.rx = (a.sense env x).1.rx := App.controlTick_rx env a x
  constructor
  · rw [hlive]; exact hsense.adcFresh
  · rw [hpedals]; exact hsense.appsPlausible
  · rw [hpedals]; exact hsense.bse1
  · rw [hpedals]; exact hsense.bse2
  · rw [App.controlTick_brakeLatch]; exact hsense.brakeLatch
  · rw [hloop]; exact hsense.loopClosed
  · rw [hrx]; exact hsense.hvcFresh
  · rw [hrx]; exact hsense.inverterFresh
  · rw [hrx]; exact hsense.bse3Fresh
  · rw [hrx]; exact hsense.inverterOk
  · rw [App.controlTick_live_inputs]; exact hsense.bspd
  · rw [App.controlTick_live_inputs]; exact hsense.motorConnected

/-! ## The torque command -/

/-- A part that the output stages do not write is after the tick what `UpdateTorque` left. -/
theorem App.controlTick_of_command {α : Type} (part : App → α)
    (hout : ∀ (b : App) sent faultsGate energyGate beats, part
      { ({ (b.updateStatus x.now).driveOutputs env x with
            faultClearSent := sent, faultsGate := faultsGate, energyGate := energyGate } : App).publish x with
        controlBeats := beats } = part b) :
    part (a.controlTick env x).1 = part (a.command env x) := by
  have hwrites : ∀ b : App, ∃ sent faultsGate energyGate, (b.sendCritical env x).1 =
      { b with faultClearSent := sent, faultsGate := faultsGate, energyGate := energyGate } := by
    intro b
    unfold App.sendCritical
    split
    · exact ⟨b.faultClearSent, b.faultsGate, b.energyGate, rfl⟩
    · exact ⟨_, _, _, rfl⟩
  obtain ⟨_, _, _, h⟩ := hwrites (((a.command env x).updateStatus x.now).driveOutputs env x)
  unfold App.controlTick
  simp only [h]
  exact hout _ _ _ _ _

/-- `UpdateTorque` is the last stage before the outputs. -/
theorem App.command_eq : a.command env x = (a.moded env x).updateTorque env x.now (a.dtMs x.now)
    ((a.moded env x).rx.inverterFresh x.now) := by
  rfl

/-- Apps with the same sampled inputs, faults and state pass the same torque gate. -/
theorem App.SameSensed.torqueAllowed {b c : App} (h : b.SameSensed c) : c.torqueAllowed = b.torqueAllowed := by
  unfold App.torqueAllowed
  rw [h.sm, h.faults, h.livePedals, h.bootloaderEntered, h.bootloaderRequest]

/-- The inverter enable of an app's state, faults and bootloader flags. -/
def App.enableAllowed (b : App) : Bool :=
  b.sm.state == .drive && !anyFault b.faults kTorqueCutFaults && !b.bootloaderEntered && !b.bootloaderRequest

/-- Apps with the same sampled inputs, faults and state enable the inverter alike. -/
theorem App.SameSensed.enableAllowed {b c : App} (h : b.SameSensed c) : c.enableAllowed = b.enableAllowed := by
  unfold App.enableAllowed
  rw [h.sm, h.faults, h.bootloaderEntered, h.bootloaderRequest]

section UpdateTorque

variable (b : App) (now dtMs : U32) (fresh : Bool)

/-- `UpdateTorque` leaves the parameters. -/
theorem App.updateTorque_P : (b.updateTorque env now dtMs fresh).P env = b.P env := by
  unfold App.updateTorque App.arbitrateTorque
  rfl

/-- What `UpdateTorque` commands, in the command and in the snapshot. -/
theorem App.updateTorque_torqueCommand : ∃ regen bse2Psi positive,
    (b.updateTorque env now dtMs fresh).torqueCommand = arbitrate (b.P env) b.torqueAllowed regen bse2Psi positive ∧
      (b.updateTorque env now dtMs fresh).live.torqueCommand =
        (b.updateTorque env now dtMs fresh).torqueCommand := by
  unfold App.updateTorque App.arbitrateTorque
  exact ⟨_, _, _, rfl, rfl⟩

/-- The launch ramp's update in `UpdateTorque`, read off the wheel control `c` it leaves. -/
def App.rampUpdate (c : WheelControlResult) : LaunchRamp × ℚ :=
  (b.launchBeforeUpdate env b.torqueAllowed (b.rx.motorRpm now).1 c).update c.positiveNm b.torqueAllowed
    b.live.pedals.brakeForRtd b.live.pedals.pedalTravel (b.rx.motorRpm now).1 dtMs (b.P env).launch

/-- The launch ramp `UpdateTorque` leaves. -/
theorem App.updateTorque_launch : (b.updateTorque env now dtMs fresh).launch =
    (b.rampUpdate env now dtMs (b.updateTorque env now dtMs fresh).live.wheelControl).1 := by
  unfold App.updateTorque App.arbitrateTorque
  rfl

/-- The driver's torque in `UpdateTorque` is the ramp's, and nothing while a launch lacks wheel data. -/
theorem App.updateTorque_positive : ∃ regen bse2Psi, (b.updateTorque env now dtMs fresh).torqueCommand =
    arbitrate (b.P env) b.torqueAllowed regen bse2Psi
      (if (b.P env).launch.enabled && !(b.updateTorque env now dtMs fresh).live.wheelControl.valid then 0
       else (b.rampUpdate env now dtMs (b.updateTorque env now dtMs fresh).live.wheelControl).2) := by
  unfold App.updateTorque App.arbitrateTorque
  exact ⟨_, _, rfl⟩

/-- What `UpdateTorque` enables. -/
theorem App.updateTorque_inverterEnable :
    (b.updateTorque env now dtMs fresh).live.inverterEnable = b.enableAllowed := by
  unfold App.updateTorque App.arbitrateTorque
  rfl

end UpdateTorque

/-- The app `UpdateTorque` finds has the sampled inputs, faults and state of the app the tick leaves. -/
theorem App.moded_same : (a.moded env x).SameSensed (a.controlTick env x).1 :=
  (App.updateTorque_same env _ _ _ _).trans (App.outputs_same env x _)

/-- The parameters do not change after the mode requests are handled. -/
theorem App.controlTick_P : (a.controlTick env x).1.P env = (a.moded env x).P env := by
  have hparams := a.controlTick_of_command env x App.params (fun _ _ _ _ _ => rfl)
  have hcommand : (a.command env x).P env = (a.moded env x).P env := by rw [App.command_eq, App.updateTorque_P]
  rw [← hcommand]
  exact congrArg (ParamsRef.deref env) hparams

/-- **The torque command of a tick** is what the arbitration lets through at the app the tick leaves. -/
theorem App.controlTick_torqueCommand : ∃ regen bse2Psi positive, (a.controlTick env x).1.torqueCommand =
    arbitrate ((a.controlTick env x).1.P env) (a.controlTick env x).1.torqueAllowed regen bse2Psi positive := by
  obtain ⟨regen, bse2Psi, positive, h, -⟩ := (a.moded env x).updateTorque_torqueCommand env x.now
    (a.dtMs x.now) ((a.moded env x).rx.inverterFresh x.now)
  refine ⟨regen, bse2Psi, positive, ?_⟩
  rw [App.controlTick_P, (a.moded_same env x).torqueAllowed, ← h, ← App.command_eq]
  exact a.controlTick_of_command env x App.torqueCommand (fun _ _ _ _ _ => rfl)

/-- The launch ramp's update depends on the sampled inputs, the faults, the state, the parameters and the ramp. -/
theorem App.SameSensed.rampUpdate {b c : App} (h : b.SameSensed c) (hlaunch : c.launch = b.launch)
    (hrequest : c.launchRequest = b.launchRequest) (hP : c.P env = b.P env) (now dtMs : U32)
    (wheel : WheelControlResult) : c.rampUpdate env now dtMs wheel = b.rampUpdate env now dtMs wheel := by
  unfold App.rampUpdate App.launchBeforeUpdate
  simp only [h.torqueAllowed, h.livePedals, h.rx, hlaunch, hrequest, hP]

theorem App.moded_launch : (a.moded env x).launch = a.launch ∧ (a.moded env x).launchRequest = a.launchRequest := by
  unfold App.moded App.applyModeRequests
  split
  · exact ⟨rfl, rfl⟩
  · split <;> exact ⟨rfl, rfl⟩

/-- The launch ramp's update in a tick: the ramp from before the tick, the rest read off the app the tick leaves. -/
def App.rampTick : LaunchRamp × ℚ :=
  let a' := (a.controlTick env x).1
  ({ a' with launch := a.launch, launchRequest := a.launchRequest } : App).rampUpdate env x.now (a.dtMs x.now)
    a'.live.wheelControl

theorem App.rampTick_eq : a.rampTick env x = (a.moded env x).rampUpdate env x.now (a.dtMs x.now)
    ((a.moded env x).updateTorque env x.now (a.dtMs x.now)
      ((a.moded env x).rx.inverterFresh x.now)).live.wheelControl := by
  have hwheel := a.controlTick_of_command env x (·.live.wheelControl) (fun _ _ _ _ _ => rfl)
  have hsame : (a.moded env x).SameSensed
      { (a.controlTick env x).1 with launch := a.launch, launchRequest := a.launchRequest } :=
    (a.moded_same env x).trans (App.launch_same _ a.launch a.launchRequest)
  unfold App.rampTick
  rw [hsame.rampUpdate env (a.moded_launch env x).1.symm (a.moded_launch env x).2.symm (a.controlTick_P env x)]
  rw [hwheel, App.command_eq]

/-- **The launch ramp after a tick.** -/
theorem App.controlTick_launch : (a.controlTick env x).1.launch = (a.rampTick env x).1 := by
  rw [a.controlTick_of_command env x App.launch (fun _ _ _ _ _ => rfl), App.command_eq, App.updateTorque_launch,
    App.rampTick_eq]

/-- **The driver's torque of a tick** is the launch ramp's, and nothing while a launch lacks wheel data. -/
theorem App.controlTick_positive : ∃ regen bse2Psi, (a.controlTick env x).1.torqueCommand =
    arbitrate ((a.controlTick env x).1.P env) (a.controlTick env x).1.torqueAllowed regen bse2Psi
      (if ((a.controlTick env x).1.P env).launch.enabled && !(a.controlTick env x).1.live.wheelControl.valid then 0
       else (a.rampTick env x).2) := by
  obtain ⟨regen, bse2Psi, h⟩ := (a.moded env x).updateTorque_positive env x.now (a.dtMs x.now)
    ((a.moded env x).rx.inverterFresh x.now)
  refine ⟨regen, bse2Psi, ?_⟩
  rw [App.controlTick_P, (a.moded_same env x).torqueAllowed, App.rampTick_eq,
    a.controlTick_of_command env x (·.live.wheelControl) (fun _ _ _ _ _ => rfl),
    a.controlTick_of_command env x App.torqueCommand (fun _ _ _ _ _ => rfl), App.command_eq]
  exact h

/-- The inverter enable of a tick, read off the app the tick leaves. -/
theorem App.controlTick_inverterEnable :
    (a.controlTick env x).1.live.inverterEnable = (a.controlTick env x).1.enableAllowed := by
  rw [a.controlTick_of_command env x (·.live.inverterEnable) (fun _ _ _ _ _ => rfl), App.command_eq,
    App.updateTorque_inverterEnable, (a.moded_same env x).enableAllowed]

/-- The snapshot carries the torque command. -/
theorem App.controlTick_live_torqueCommand :
    (a.controlTick env x).1.live.torqueCommand = (a.controlTick env x).1.torqueCommand := by
  rw [a.controlTick_of_command env x (·.live.torqueCommand) (fun _ _ _ _ _ => rfl),
    a.controlTick_of_command env x App.torqueCommand (fun _ _ _ _ _ => rfl), App.command_eq]
  obtain ⟨_, _, _, -, h⟩ := (a.moded env x).updateTorque_torqueCommand env x.now (a.dtMs x.now)
    ((a.moded env x).rx.inverterFresh x.now)
  exact h

/-- A torque-command frame `SendCritical` sends is built from the snapshot. -/
theorem App.criticalSends_torqueFrame {b : App} {now : U32} {m : InverterTorqueCommand}
    (h : .inverterTorqueCommand m ∈ b.criticalSends env now) :
    m = torqueCommandFrame b.live (b.P env).inverter := by
  unfold App.criticalSends at h
  simp only [List.mem_append, List.mem_cons, List.mem_ite_nil_right, CriticalFrame.inverterTorqueCommand.injEq,
    reduceCtorEq, List.not_mem_nil, or_false, and_false] at h
  exact h

/-- The torque-command frame is the same before and after the status fields and the outputs are written. -/
theorem App.driveOutputs_torqueFrame (b : App) :
    torqueCommandFrame ((b.updateStatus x.now).driveOutputs env x).live
      (((b.updateStatus x.now).driveOutputs env x).P env).inverter =
      torqueCommandFrame b.live (b.P env).inverter := rfl

/-- **The torque-command frame.** Every such frame a tick queues is built from the torque command and the
    enable the tick leaves. -/
theorem App.controlTick_torqueFrame {m : InverterTorqueCommand}
    (h : .inverterTorqueCommand m ∈ (a.controlTick env x).2) :
    m = torqueCommandFrame (a.controlTick env x).1.live ((a.controlTick env x).1.P env).inverter := by
  have hparams := a.controlTick_of_command env x App.params (fun _ _ _ _ _ => rfl)
  have htorque := a.controlTick_of_command env x (·.live.torqueCommand) (fun _ _ _ _ _ => rfl)
  have henable := a.controlTick_of_command env x (·.live.inverterEnable) (fun _ _ _ _ _ => rfl)
  have hframe : torqueCommandFrame (a.controlTick env x).1.live ((a.controlTick env x).1.P env).inverter =
      torqueCommandFrame (a.command env x).live ((a.command env x).P env).inverter := by
    simp only [torqueCommandFrame, App.P, hparams, htorque, henable]
  rw [hframe]
  unfold App.controlTick App.sendCritical at h
  split at h
  · cases h
  · obtain ⟨⟨frame, k⟩, hmem, rfl⟩ := List.mem_map.mp h
    have hsent := List.fst_mem_of_mem_zipIdx (List.mem_filter.mp hmem).1
    rw [← App.driveOutputs_torqueFrame env x]
    exact App.criticalSends_torqueFrame env hsent

/-- The torque-command frame is the first the tick sends: a bus that takes it has it queued. -/
theorem App.controlTick_torqueFrame_sent (hbus : env.hasCriticalCan = true) (hok : x.canAccepts 0 = true) :
    ∃ m, (a.controlTick env x).2.head? = some (.inverterTorqueCommand m) := by
  unfold App.controlTick App.sendCritical App.criticalSends
  rw [if_neg (by simp [hbus])]
  simp only [List.cons_append, List.nil_append, List.zipIdx_cons, List.filter_cons, hok, if_true,
    List.map_cons, List.head?_cons]
  exact ⟨_, rfl⟩

end Tick

/-! ## Other tasks -/

/-- `c` has what only the control task writes from `b`. -/
structure App.SameControl (b c : App) : Prop where
  sm : c.sm = b.sm
  faults : c.faults = b.faults
  rx : c.rx = b.rx
  wheels : c.wheels = b.wheels
  pedals : c.pedals = b.pedals
  adc1Progress : c.adc1Progress = b.adc1Progress
  adc2Progress : c.adc2Progress = b.adc2Progress
  shutdownLoop : c.shutdownLoop = b.shutdownLoop
  rtdSwitch : c.rtdSwitch = b.rtdSwitch
  brakeLatch : c.brakeLatch = b.brakeLatch
  prevFaultReset : c.prevFaultReset = b.prevFaultReset
  launch : c.launch = b.launch
  params : c.params = b.params
  torqueCommand : c.torqueCommand = b.torqueCommand
  live : c.live = b.live

theorem App.SameControl.refl (b : App) : b.SameControl b := by
  constructor <;> rfl

theorem App.SameControl.trans {b c d : App} (h : b.SameControl c) (h' : c.SameControl d) : b.SameControl d where
  sm := h'.sm.trans h.sm
  faults := h'.faults.trans h.faults
  rx := h'.rx.trans h.rx
  wheels := h'.wheels.trans h.wheels
  pedals := h'.pedals.trans h.pedals
  adc1Progress := h'.adc1Progress.trans h.adc1Progress
  adc2Progress := h'.adc2Progress.trans h.adc2Progress
  shutdownLoop := h'.shutdownLoop.trans h.shutdownLoop
  rtdSwitch := h'.rtdSwitch.trans h.rtdSwitch
  brakeLatch := h'.brakeLatch.trans h.brakeLatch
  prevFaultReset := h'.prevFaultReset.trans h.prevFaultReset
  launch := h'.launch.trans h.launch
  params := h'.params.trans h.params
  torqueCommand := h'.torqueCommand.trans h.torqueCommand
  live := h'.live.trans h.live

/-- An event of another task leaves what the control task owns. -/
theorem App.taskEvent_same (env : Env) (b : App) (e : TaskEvent) : b.SameControl (b.taskEvent env e) := by
  cases e with
  | modeCommand mode => constructor <;> rfl
  | launchCommand => constructor <;> rfl
  | dfuRequest => constructor <;> rfl
  | supervisor now =>
      unfold App.taskEvent App.supervisorTick
      dsimp only
      split <;> constructor <;> rfl
  | telemetry now => constructor <;> rfl

/-- **The other tasks leave what the control task owns.** -/
theorem App.beforeTick_same (env : Env) (a : App) (τ : Tick) : a.SameControl (a.beforeTick env τ) := by
  unfold App.beforeTick
  induction τ.tasks generalizing a with
  | nil => exact App.SameControl.refl a
  | cons e rest ih => exact (a.taskEvent_same env e).trans (ih (a.taskEvent env e))

/-! ## Runs -/

section Runs

variable (env : Env) (ρ : ℕ → Tick) (n : ℕ)

/-- The app at the end of a tick. -/
theorem after_eq : after env ρ n = ((before env ρ n).controlTick env (ρ n).inputs).1 := rfl

/-- A tick starts with what the control task left at the end of the one before. -/
theorem before_same : (runState env ρ n).SameControl (before env ρ n) :=
  App.beforeTick_same env _ (ρ n)

/-- The parameters in use as a tick starts. -/
theorem before_P : (before env ρ n).P env = (runState env ρ n).P env := by
  unfold App.P
  rw [(before_same env ρ n).params]

/-- The state after a tick of a run. -/
theorem after_state : (after env ρ n).sm.state =
    nextState (runState env ρ n).sm.state ((before env ρ n).tickStateInputs env (ρ n).inputs) := by
  rw [after_eq, App.controlTick_state, (before_same env ρ n).sm]

end Runs
end Lhre.Vcu
