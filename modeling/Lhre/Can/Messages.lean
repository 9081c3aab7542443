import Lhre.Can.Codec
import Lhre.Drivers.RxSlot

/-!
# `Can.Messages` — the messages the VCU receives and the commands it sends the inverter

The generated structs of the messages `boards/VCU` reads (`lib/spec/messages/*.textproto` through
`lib/codegen/cpp/gen_can_lib.py`), with the fields the firmware reads, and the two structs it sends to the
inverter. Frame id, dlc, rate and bit positions are the spec's.
-/

namespace Lhre.Can

open Lhal Longhorn

/-- An unsigned raw field. -/
def unsignedField (src : ℕ → U8) (startBit bitLength : ℕ) : ℕ := (extract src startBit bitLength false).toNat

/-- A signed 16-bit raw field. -/
def signed16Field (src : ℕ → U8) (startBit : ℕ) : ℤ :=
  ((signExtend (extract src startBit 16 false) 16).setWidth 16).toInt

/-- A boolean signal. -/
def boolField (src : ℕ → U8) (startBit : ℕ) : Bool := extract src startBit 1 false != 0

/-- `EventMode` of the spec. -/
inductive EventMode
  | unassigned
  | acceleration
  | skidpad
  | autocross
  | endurance
deriving DecidableEq, Repr

/-- `HvcState` of the spec; `other` stands for the raw values without a name. -/
inductive HvcState
  | notEnergized
  | precharging
  | energized
  | chargingPrecharging
  | charging
  | other (raw : U8)
deriving DecidableEq, Repr

/-- `static_cast<HvcState>(raw)`. -/
def HvcState.ofRaw (raw : U8) : HvcState :=
  match raw.toNat with
  | 0 => .notEnergized
  | 1 => .precharging
  | 2 => .energized
  | 3 => .chargingPrecharging
  | 4 => .charging
  | _ => .other raw

/-- `ShutdownLoopState` of the spec. -/
inductive ShutdownLoopState
  | unknown
  | closed
  | bspdRelayOpen
  | upstreamOpen
  | implausibility
deriving DecidableEq, Repr

/-- `VcuStateMachine` of the spec. -/
inductive VcuStateMachine
  | init
  | idle
  | drive
  | fault
  | precharge
  | tsActive
  | rtdWait
  | bspdTripped
deriving DecidableEq, Repr

/-! ## Received on the Critical bus -/

/-- `VCU_MODE_COMMAND`. -/
structure VcuModeCommand where
  eventMode : U8
deriving DecidableEq

instance : Message VcuModeCommand where
  kFrameId := 41
  kDlc := 8
  kFrequencyHz := 0
  init := ⟨0⟩
  unpack src := ⟨(extract src 0 8 false).setWidth 8⟩

/-- `INVERTER_STATUS`. -/
structure InverterStatus where
  motorSpeed : ℤ
deriving DecidableEq

instance : Message InverterStatus where
  kFrameId := 165
  kDlc := 8
  kFrequencyHz := 100
  init := ⟨0⟩
  unpack src := ⟨signed16Field src 16⟩

/-- `INVERTER_CURRENT`. -/
structure InverterCurrent where
  dcBusCurrentRaw : ℤ
deriving DecidableEq

instance : Message InverterCurrent where
  kFrameId := 166
  kDlc := 8
  kFrequencyHz := 10
  init := ⟨0⟩
  unpack src := ⟨signed16Field src 48⟩

/-- `dc_bus_current()`. -/
def InverterCurrent.dcBusCurrent (m : InverterCurrent) : ℚ := physical m.dcBusCurrentRaw 0.1

/-- `INVERTER_VOLTAGE`. -/
structure InverterVoltage where
  dcBusVoltageRaw : ℤ
deriving DecidableEq

instance : Message InverterVoltage where
  kFrameId := 167
  kDlc := 8
  kFrequencyHz := 100
  init := ⟨0⟩
  unpack src := ⟨signed16Field src 0⟩

/-- `dc_bus_voltage()`. -/
def InverterVoltage.dcBusVoltage (m : InverterVoltage) : ℚ := physical m.dcBusVoltageRaw 0.1

/-- `INVERTER_DETAILS`; only its arrival is used. -/
structure InverterDetails where
deriving DecidableEq

instance : Message InverterDetails where
  kFrameId := 170
  kDlc := 8
  kFrequencyHz := 100
  init := ⟨⟩
  unpack _ := ⟨⟩

/-- `INVERTER_FAULTS`. -/
structure InverterFaults where
  postFaults : ℕ
  runFaults : ℕ
deriving DecidableEq

instance : Message InverterFaults where
  kFrameId := 171
  kDlc := 8
  kFrequencyHz := 100
  init := ⟨0, 0⟩
  unpack src := ⟨unsignedField src 0 32, unsignedField src 32 32⟩

/-- `INVERTER_SPEED`. -/
structure InverterSpeed where
  motorSpeed : ℤ
deriving DecidableEq

instance : Message InverterSpeed where
  kFrameId := 176
  kDlc := 8
  kFrequencyHz := 333
  init := ⟨0⟩
  unpack src := ⟨signed16Field src 32⟩

/-- `DUI_DRIVER_INPUTS`. -/
structure DuiDriverInputs where
  faultReset : Bool
deriving DecidableEq

instance : Message DuiDriverInputs where
  kFrameId := 290
  kDlc := 2
  kFrequencyHz := 10
  init := ⟨false⟩
  unpack src := ⟨boolField src 0⟩

/-- `CONTACTOR_STATUS`. -/
structure ContactorStatus where
  hvcStateMachine : U8
  positiveHvContactor : Bool
  negativeHvContactor : Bool
deriving DecidableEq

instance : Message ContactorStatus where
  kFrameId := 305
  kDlc := 4
  kFrequencyHz := 100
  init := ⟨0, false, false⟩
  unpack src := ⟨(extract src 0 8 false).setWidth 8, boolField src 8, boolField src 16⟩

/-- `INDICATORS_SHUTDOWN_STATUS`. -/
structure IndicatorsShutdownStatus where
  bmsError : Bool
  imdError : Bool
deriving DecidableEq

instance : Message IndicatorsShutdownStatus where
  kFrameId := 308
  kDlc := 6
  kFrequencyHz := 10
  init := ⟨false, false⟩
  unpack src := ⟨boolField src 0, boolField src 8⟩

/-- `BATTERY_CELL_LIMITS`. -/
structure BatteryCellLimits where
  minCellVoltageRaw : ℕ
  maxCellVoltageRaw : ℕ
deriving DecidableEq

instance : Message BatteryCellLimits where
  kFrameId := 310
  kDlc := 4
  kFrequencyHz := 10
  init := ⟨0, 0⟩
  unpack src := ⟨unsignedField src 0 16, unsignedField src 16 16⟩

/-- `min_cell_voltage()`. -/
def BatteryCellLimits.minCellVoltage (m : BatteryCellLimits) : ℚ := physical m.minCellVoltageRaw 0.0001
/-- `max_cell_voltage()`. -/
def BatteryCellLimits.maxCellVoltage (m : BatteryCellLimits) : ℚ := physical m.maxCellVoltageRaw 0.0001

/-- `BSE_3`. -/
structure Bse3 where
  brakePressure3Raw : ℕ
deriving DecidableEq

instance : Message Bse3 where
  kFrameId := 456
  kDlc := 2
  kFrequencyHz := 100
  init := ⟨0⟩
  unpack src := ⟨unsignedField src 0 16⟩

/-- `brake_pressure_3()`. -/
def Bse3.brakePressure3 (m : Bse3) : ℚ := physical m.brakePressure3Raw 0.05

/-! ## Received on the Data bus -/

/-- `COOLANT_LOOP_TEMPS`. -/
structure CoolantLoopTemps where
  loopTempAfterMotorRaw : ℤ
  loopTempAfterInverterRaw : ℤ
deriving DecidableEq

instance : Message CoolantLoopTemps where
  kFrameId := 416
  kDlc := 8
  kFrequencyHz := 10
  init := ⟨0, 0⟩
  unpack src := ⟨signed16Field src 0, signed16Field src 16⟩

/-- `loop_temp_after_motor()`. -/
def CoolantLoopTemps.loopTempAfterMotor (m : CoolantLoopTemps) : ℚ := physical m.loopTempAfterMotorRaw 0.01
/-- `loop_temp_after_inverter()`. -/
def CoolantLoopTemps.loopTempAfterInverter (m : CoolantLoopTemps) : ℚ :=
  physical m.loopTempAfterInverterRaw 0.01

/-- The corner of the car a wheel-speed message is from. -/
inductive Corner
  | fl
  | fr
  | rl
  | rr
deriving DecidableEq, Repr

/-- `ACCELERATION_VECTOR_UNSPRUNG_WHEEL_SPEED_<corner>`. -/
structure WheelSpeed (c : Corner) where
  wheelSpeedRaw : ℤ
deriving DecidableEq

/-- The frame id of a corner's wheel-speed message. -/
def Corner.frameId : Corner → U32
  | .fl => 1026
  | .fr => 1027
  | .rl => 1028
  | .rr => 1029

instance (c : Corner) : Message (WheelSpeed c) where
  kFrameId := c.frameId
  kDlc := 8
  kFrequencyHz := 333
  init := ⟨0⟩
  unpack src := ⟨signed16Field src 48⟩

/-- `wheel_speed()`. -/
def WheelSpeed.wheelSpeed {c : Corner} (m : WheelSpeed c) : ℚ := physical m.wheelSpeedRaw 0.01

/-! ## Sent to the inverter -/

/-- `INVERTER_TORQUE_COMMAND`. -/
structure InverterTorqueCommand where
  torqueRequestRaw : ℤ := 0
  rpmRequest : ℤ := 0
  direction : Bool := false
  enable : Bool := false
  torqueLimitRaw : ℤ := 0
deriving DecidableEq, Repr

/-- `torque_request()`. -/
def InverterTorqueCommand.torqueRequest (m : InverterTorqueCommand) : ℚ := physical m.torqueRequestRaw 0.1

/-- `INVERTER_PARAMETER_REQUEST`. -/
structure InverterParameterRequest where
  parameterAddress : U16 := 0
  rW : Bool := false
  dataToBeWritten : U32 := 0
deriving DecidableEq, Repr

end Lhre.Can
