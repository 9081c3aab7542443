import Lhre.Can.Messages

/-!
# `Can.VcuMessages` — the messages the VCU sends on the Critical bus

The generated structs of `lib/spec/messages/vcu.textproto`, as their fields. A scaled signal keeps its raw
value; the setters are `Can.setRaw` at the signal's scale.
-/

namespace Lhre.Can

/-- `APPS_VOLTAGES`. -/
structure AppsVoltages where
  apps1VoltageRaw : ℤ := 0
  apps2VoltageRaw : ℤ := 0
  apps1TravelRaw : ℤ := 0
  apps2TravelRaw : ℤ := 0
deriving DecidableEq

/-- `ACCELERATOR_PEDAL`. -/
structure AcceleratorPedal where
  acceleratorPedalTravelRaw : ℤ := 0
  apps1Disconnect : Bool := false
  apps2Disconnect : Bool := false
  apps1OutRange : Bool := false
  apps2OutRange : Bool := false
  appsMismatch : Bool := false
  appsImplause : Bool := false
deriving DecidableEq

/-- `BRAKE_PEDAL`. -/
structure BrakePedal where
  brakePedalTravelRaw : ℤ := 0
  brakeLightPercentRaw : ℤ := 0
deriving DecidableEq

/-- `BSE_VOLTAGES`. -/
structure BseVoltages where
  bseFrontVoltageRaw : ℤ := 0
  bseRearVoltageRaw : ℤ := 0
  bseLineLockVoltageRaw : ℤ := 0
deriving DecidableEq

/-- `BRAKES`. -/
structure Brakes where
  brakePressureFrontRaw : ℤ := 0
  brakePressureRearPreLockRaw : ℤ := 0
  brakePressureRearPostLockRaw : ℤ := 0
  brakeBiasRaw : ℤ := 0
  bse1Disconnect : Bool := false
  bse2Disconnect : Bool := false
  bse1OutRange : Bool := false
  bse2OutRange : Bool := false
deriving DecidableEq

/-- `STEERING_COLUMN`. -/
structure SteeringColumn where
  steeringColumnAngleRaw : ℤ := 0
deriving DecidableEq

/-- `VCU_STATE`. -/
structure VcuState where
  prndlState : U8 := 0
  stompFault : Bool := false
  readyToDriveBuzzer : Bool := false
  stateOfChargeEstimateRaw : ℤ := 0
  lineLockEnabled : Bool := false
  eventMode : U8 := 0
  lineLockRequest : Bool := false
deriving DecidableEq

/-- `VCU_FAULTS`; the active-fault bits are kept as the fault word they are read from. -/
structure VcuFaults where
  activeFaults : U32 := 0
  primaryFault : ℕ := 0
  state : VcuStateMachine := .init
  brakeFlagsLatched : Bool := false
  faultResets : U8 := 0
deriving DecidableEq

/-- `kFrequencyHz` of `VCU_FAULTS`. -/
def VcuFaults.kFrequencyHz : ℚ := 10

/-- `ENERGY_ESTIMATE`. -/
structure EnergyEstimate where
  netEnergyRaw : ℤ := 0
  regenEnergyRaw : ℤ := 0
deriving DecidableEq

/-- `kFrequencyHz` of `ENERGY_ESTIMATE`. -/
def EnergyEstimate.kFrequencyHz : ℚ := 10

/-- `TORQUE_PATH`. -/
structure TorquePath where
  torqueLookupRaw : ℤ := 0
  torqueDeratedRaw : ℤ := 0
  torquePowerLimitedRaw : ℤ := 0
  torqueTractionControlledRaw : ℤ := 0
deriving DecidableEq

/-- A frame of the Critical bus, before packing. -/
inductive CriticalFrame
  | inverterTorqueCommand (m : InverterTorqueCommand)
  | inverterParameterRequest (m : InverterParameterRequest)
  | appsVoltages (m : AppsVoltages)
  | acceleratorPedal (m : AcceleratorPedal)
  | brakePedal (m : BrakePedal)
  | bseVoltages (m : BseVoltages)
  | brakes (m : Brakes)
  | steeringColumn (m : SteeringColumn)
  | vcuState (m : VcuState)
  | vcuFaults (m : VcuFaults)
  | energyEstimate (m : EnergyEstimate)
  | torquePath (m : TorquePath)
deriving DecidableEq

end Lhre.Can
