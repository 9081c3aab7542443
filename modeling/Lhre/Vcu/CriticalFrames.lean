import Lhre.Can.VcuMessages
import Lhre.Vcu.Faults
import Lhre.Vcu.Io
import Lhre.Vcu.Pedals
import Lhre.Vcu.Sensors
import Lhre.Vcu.StateMachine
import Lhre.Vcu.Torque

/-!
# `Vcu.CriticalFrames` — the control snapshot and the frames packed from it

`ControlSnapshot` (`boards/VCU/App/app/control_snapshot.hpp`), the live state of one control tick, and the frame
builders of `boards/VCU/App/can/critical_frames.cpp` with their field ranges.
-/

namespace Lhre.Vcu

open Can Longhorn

/-- Control owns the live copy; the other tasks read a published one. -/
structure ControlSnapshot where
  nowMs : U32 := 0
  state : VcuState := .init
  lastTransition : String := "boot"
  faults : U32 := 0
  primaryFault : ℕ := 0
  eventMode : EventMode := defaultEventMode
  analog : AnalogReadings := {}
  pedals : PedalOutputs := {}
  steering : SteeringOutputs := {}
  brakeBias : ℚ := 0
  loop : ShutdownLoopState := .unknown
  inputs : DigitalInputs := {}
  outputs : DigitalOutputs := {}
  motorRpm : ℚ := 0
  motorSpeedValid : Bool := false
  adcFresh : Bool := false
  torque : TorqueOutputs := {}
  torqueCommand : ℚ := 0
  inverterEnable : Bool := false
  battery : BatteryOutputs := {}
  buzzer : Bool := false
  linelockRequest : Bool := false
  brakeFlagsLatched : Bool := false
  faultResets : U8 := 0
  bse3Psi : ℚ := 0
  bse3Available : Bool := false
  launchArmed : Bool := false
  regenCurrentCut : Bool := false
  wheelControl : WheelControlResult := {}
deriving DecidableEq

/-! ## Field ranges -/

/-- `kU16Volts`. -/
def kU16Volts : ℚ := 6.5535
/-- `kU16Fraction`. -/
def kU16Fraction : ℚ := 6.5535
/-- `kU16Psi`. -/
def kU16Psi : ℚ := 3276.75
/-- `kU16Nm`. -/
def kU16Nm : ℚ := 6553.5
/-- `kS16Nm`. -/
def kS16Nm : ℚ := 3276.7
/-- `kS16Deg`. -/
def kS16Deg : ℚ := 131.068
/-- `kU32Wh`. -/
def kU32Wh : ℚ := 4294967

/-! ## Frames -/

/-- `TorqueCommandFrame`. -/
def torqueCommandFrame (s : ControlSnapshot) (p : InverterParams) : InverterTorqueCommand :=
  { torqueRequestRaw := setRaw (clamp s.torqueCommand (-kS16Nm) kS16Nm) 0.1
    rpmRequest := 0
    direction := true
    enable := s.inverterEnable
    torqueLimitRaw := setRaw (clamp p.torqueLimitNm 0 kS16Nm) 0.1 }

/-- `FaultClearFrame`. -/
def faultClearFrame (p : InverterParams) : InverterParameterRequest :=
  { parameterAddress := p.faultClearAddress, rW := true, dataToBeWritten := 0 }

/-- `AppsVoltagesFrame`. -/
def appsVoltagesFrame (s : ControlSnapshot) : AppsVoltages :=
  { apps1VoltageRaw := setRaw (clamp s.analog.apps1.sourceV 0 kU16Volts) 0.0001
    apps2VoltageRaw := setRaw (clamp s.analog.apps2.sourceV 0 kU16Volts) 0.0001
    apps1TravelRaw := setRaw s.pedals.apps1Travel 0.0001
    apps2TravelRaw := setRaw s.pedals.apps2Travel 0.0001 }

/-- `AccelPedalFrame`. -/
def accelPedalFrame (s : ControlSnapshot) : AcceleratorPedal :=
  { acceleratorPedalTravelRaw := setRaw (clamp s.pedals.pedalTravel 0 kU16Fraction) 0.0001
    apps1Disconnect := s.pedals.apps1Disconnect
    apps2Disconnect := s.pedals.apps2Disconnect
    apps1OutRange := s.pedals.apps1OutOfRange
    apps2OutRange := s.pedals.apps2OutOfRange
    appsMismatch := s.pedals.appsMismatch
    appsImplause := s.pedals.appsImplausibility }

/-- `BrakePedalFrame`. -/
def brakePedalFrame (s : ControlSnapshot) : BrakePedal :=
  { brakeLightPercentRaw := setRaw s.pedals.brakeLight 0.001 }

/-- `BseVoltagesFrame`. -/
def bseVoltagesFrame (s : ControlSnapshot) : BseVoltages :=
  { bseFrontVoltageRaw := setRaw (clamp s.analog.bse1.sourceV 0 kU16Volts) 0.0001
    bseRearVoltageRaw := setRaw (clamp s.analog.bse2.sourceV 0 kU16Volts) 0.0001 }

/-- `BrakesFrame`. -/
def brakesFrame (s : ControlSnapshot) : Brakes :=
  { brakePressureFrontRaw := setRaw (clamp s.pedals.bse1Psi 0 kU16Psi) 0.05
    brakePressureRearPreLockRaw := setRaw (clamp s.pedals.bse2Psi 0 kU16Psi) 0.05
    brakePressureRearPostLockRaw := setRaw (clamp s.bse3Psi 0 kU16Psi) 0.05
    brakeBiasRaw := setRaw (clamp s.brakeBias 0 1) 0.01
    bse1Disconnect := s.pedals.bse1Disconnect
    bse2Disconnect := s.pedals.bse2Disconnect
    bse1OutRange := s.pedals.bse1OutOfRange
    bse2OutRange := s.pedals.bse2OutOfRange }

/-- `SteeringFrame`. -/
def steeringFrame (s : ControlSnapshot) : SteeringColumn :=
  { steeringColumnAngleRaw := setRaw (clamp s.steering.angleDeg (-kS16Deg) kS16Deg) 0.004 }

/-- The number of an event mode in the spec. -/
def eventModeRaw : EventMode → U8
  | .unassigned => 0
  | .acceleration => 1
  | .skidpad => 2
  | .autocross => 3
  | .endurance => 4

/-- `DriveStateFrame`. -/
def driveStateFrame (s : ControlSnapshot) : Can.VcuState :=
  { prndlState := if s.state = .drive then 1 else 0
    stompFault := s.pedals.brakeOverThrottle
    readyToDriveBuzzer := s.buzzer
    stateOfChargeEstimateRaw := setRaw (clamp s.battery.soePct 0 100) 0.1
    lineLockEnabled := s.inputs.linelockOut
    eventMode := eventModeRaw s.eventMode
    lineLockRequest := s.linelockRequest }

/-- `FaultsFrame`. -/
def faultsFrame (s : ControlSnapshot) : VcuFaults :=
  { activeFaults := s.faults
    primaryFault := s.primaryFault
    state := s.state
    brakeFlagsLatched := s.brakeFlagsLatched
    faultResets := s.faultResets }

/-- `EnergyFrame`. -/
def energyFrame (s : ControlSnapshot) : EnergyEstimate :=
  { netEnergyRaw := setRaw (clamp s.battery.netEnergyWh 0 kU32Wh) 0.001
    regenEnergyRaw := setRaw (clamp s.battery.regenEnergyWh 0 kU32Wh) 0.001 }

/-- `TorquePathFrame`. -/
def torquePathFrame (s : ControlSnapshot) : Can.TorquePath :=
  { torqueLookupRaw := setRaw (clamp s.torque.lookup 0 kU16Nm) 0.1
    torqueDeratedRaw := setRaw (clamp s.torque.derated 0 kU16Nm) 0.1
    torquePowerLimitedRaw := setRaw (clamp s.torque.powerLimited 0 kU16Nm) 0.1
    torqueTractionControlledRaw := setRaw (clamp s.torque.traction 0 kU16Nm) 0.1 }

end Lhre.Vcu
