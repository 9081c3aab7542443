import Lhre.Can.Messages

/-!
# `Vcu.Params` — calibration and per-event parameters

Every tunable of the VCU with its default, and the per-event sets (`boards/VCU/App/config/params.{hpp,cpp}`).
Parameters that only the diagnostics, the buzzer's waveform or the pack's documentation use are left out.
-/

namespace Lhre.Vcu

open Can

structure AnalogParams where
  sensorDividerRatio : ℚ := 10 / (5.1 + 10)
  shutdownDividerRatio : ℚ := 13.7 / (100 + 13.7)
  vrefintCalVdda : ℚ := 3
  nominalVdda : ℚ := 3.3
deriving DecidableEq

structure AppsParams where
  apps1VAt0 : ℚ := 0.5
  apps1VAt100 : ℚ := 4.5
  apps2VAt0 : ℚ := 0.5
  apps2VAt100 : ℚ := 4.5
  -- sensor-side open/short limits
  windowLowV : ℚ := 0.25
  windowHighV : ℚ := 4.75
  -- over 10% deviation for over 100 ms cuts torque
  maxDeviation : ℚ := 0.10
  implausibleMs : U32 := 100
  emaAlpha : ℚ := 0.35
  minTravelDeadzone : ℚ := 0.09
  maxTravelDeadzone : ℚ := 0.74
deriving DecidableEq

structure BseParams where
  vAt0Psi : ℚ := 0.5
  vAtFull : ℚ := 4.5
  fullScalePsi : ℚ := 3000
  windowLowV : ℚ := 0.25
  windowHighV : ℚ := 4.75
  rangeFaultMs : U32 := 100
  emaAlpha : ℚ := 0.10
  pressedOnPsi : ℚ := 300
  pressedOffPsi : ℚ := 250
  brakeLightPsi : ℚ := 30
  brakeLightDuty : ℚ := 0.30
  biasMinTotalPsi : ℚ := 1000
  -- brake-over-throttle: unfiltered normalised travel, before the torque deadzone
  botPedalOn : ℚ := 0.25
  botPedalOff : ℚ := 0.05
  hardBrakePinV : ℚ := 0.80
  hardBrakeMismatchMs : U32 := 50
deriving DecidableEq

structure SteeringParams where
  vAt0 : ℚ := 0.5
  vAt100 : ℚ := 4.5
  windowLowV : ℚ := 0.25
  windowHighV : ℚ := 4.75
  wrapAbove : ℚ := 0.8
  pctZero : ℚ := 0.02
  pctSpan : ℚ := 0.62
  rangeDeg : ℚ := 230
  offsetDeg : ℚ := 7
deriving DecidableEq

structure ShutdownParams where
  highPinV : ℚ := 2.31
  lowPinV : ℚ := 2.00
  debounceMs : U32 := 10
deriving DecidableEq

structure CoolingParams where
  overtempC : ℚ := 60
deriving DecidableEq

structure DigitalParams where
  brakeFlagDebounceMs : U32 := 10
  motorDebounceMs : U32 := 15
  rtdDebounceMs : U32 := 20
deriving DecidableEq

structure DriveParams where
  rtdMaxPedal : ℚ := 0
  rtdReleaseExitsDrive : Bool := true
deriving DecidableEq

structure BuzzerParams where
  durationMs : U32 := 1200
  -- hard ceiling independent of the requested duration
  maxOnMs : U32 := 1500
deriving DecidableEq

structure InverterParams where
  torqueLimitNm : ℚ := 230
  faultClearDelayMs : U32 := 1000
  faultClearAddress : U16 := 20
deriving DecidableEq

structure TorqueParams where
  maxRpm : ℚ := 6000
  -- available torque at 0, 600, ..., 6000 rpm
  powerLimitTorque : List ℚ := [210, 210, 210, 210, 210, 192, 166, 145, 129, 115, 103]
  -- pedal remap at 0, 0.1, ..., 1.0 travel, then raised to the exponent
  pedalMap : List ℚ := [0, 0.1, 0.2, 0.3, 0.4, 0.5, 0.6, 0.7, 0.8, 0.9, 1]
  pedalCurveExponent : ℚ := 1.5
  lowCellDerateStartV : ℚ := 3.2
  lowCellCutoffV : ℚ := 2.8
  applyLowCellDerate : Bool := false
deriving DecidableEq

structure PowerLimitParams where
  limitW : ℚ := 70000
  dcPowerRatio : ℚ := 0.95
  trimKiPerS : ℚ := 2
  trimMaxW : ℚ := 10000
  minOmegaRadS : ℚ := 10
deriving DecidableEq

structure TractionParams where
  enabled : Bool := false
  accelFilterAlpha : ℚ := 0.6
  alphaThresholdRadS2 : ℚ := 30
  kp : ℚ := 0.5
  ki : ℚ := 5
  maxTrimNm : ℚ := 50
deriving DecidableEq

structure BatteryParams where
  restCurrentA : ℚ := 5
  restTimeMs : U32 := 1000
  cellVoltageEmaAlpha : ℚ := 0.005
  soeMinCellV : ℚ := 2.8
  soeMaxCellV : ℚ := 4.2
  soeFromCellVoltage : List ℚ := [0, 1, 3, 6, 10, 17, 28, 46, 68, 86, 100]
  missingMinCellV : ℚ := 3.2
deriving DecidableEq

structure RegenParams where
  enabled : Bool := false
  nmPerPsi : ℚ := 67 / 500
  engageMaxPsi : ℚ := 10
  minMotorRpm : ℚ := 219.49
  maxTorqueNm : ℚ := 230
  maxCurrentA : ℚ := 0
  hardCutCurrentA : ℚ := 0
  currentCutReleasePsi : ℚ := 100
  maxCellV : ℚ := 4.05
  maxPackV : ℚ := 132 * 4.2
  voltageReserveV : ℚ := 6
  packResistanceOhm : ℚ := 0
  seriesCells : ℚ := 132
  closeDelayMs : U32 := 200
deriving DecidableEq

structure LaunchParams where
  enabled : Bool := false
  initialTorqueNm : ℚ := 30
  rampNmPerS : ℚ := 100
  armMaxRpm : ℚ := 20
  finishRpm : ℚ := 1000
  timeoutMs : U32 := 5000
deriving DecidableEq

structure WheelControlParams where
  enabled : Bool := false
  frontRadiusM : ℚ := 0.2045
  rearRadiusM : ℚ := 0.2045
  speedFloorMS : ℚ := 1
  targetDriveSlip : ℚ := 0.10
  maxBrakingSlip : ℚ := 0.10
  kpNm : ℚ := 100
  kiNmS : ℚ := 100
  recoveryNmS : ℚ := 400
deriving DecidableEq

structure Params where
  eventMode : EventMode := .unassigned
  analog : AnalogParams := {}
  apps : AppsParams := {}
  bse : BseParams := {}
  steering : SteeringParams := {}
  shutdown : ShutdownParams := {}
  cooling : CoolingParams := {}
  digital : DigitalParams := {}
  drive : DriveParams := {}
  buzzer : BuzzerParams := {}
  inverter : InverterParams := {}
  torque : TorqueParams := {}
  powerLimit : PowerLimitParams := {}
  traction : TractionParams := {}
  battery : BatteryParams := {}
  regen : RegenParams := {}
  launch : LaunchParams := {}
  wheelControl : WheelControlParams := {}
deriving DecidableEq

/-- `kDefaultEventMode`. -/
def defaultEventMode : EventMode := .endurance

/-- `MakeDefaults`. -/
def makeDefaults : Params := {}

/-- `MakeAcceleration`. -/
def makeAcceleration : Params :=
  { makeDefaults with
    eventMode := .acceleration
    torque := { makeDefaults.torque with
      powerLimitTorque := [220, 220, 220, 220, 220, 200, 175, 155, 135, 115, 105] } }

/-- `MakeSkidpad`: torque capped at 70% above 40% pedal. -/
def makeSkidpad : Params :=
  { makeDefaults with
    eventMode := .skidpad
    torque := { makeDefaults.torque with
      pedalMap := [0, 0.20, 0.40, 0.60, 0.70, 0.70, 0.70, 0.70, 0.70, 0.70, 0.70]
      pedalCurveExponent := 1 } }

/-- `MakeAutocross`. -/
def makeAutocross : Params := { makeDefaults with eventMode := .autocross }

/-- `MakeEndurance`. -/
def makeEndurance : Params := { makeDefaults with eventMode := .endurance }

/-- `ParamsFor`; unknown modes use the default parameters. -/
def paramsFor : EventMode → Params
  | .acceleration => makeAcceleration
  | .skidpad => makeSkidpad
  | .autocross => makeAutocross
  | .endurance => makeEndurance
  | .unassigned => makeDefaults

/-- `static_cast<EventMode>(pending)`, up to what `ParamsFor` distinguishes: a value without a name takes
    the branch of `kUnassigned`. -/
def eventModeOfRaw : ℕ → EventMode
  | 1 => .acceleration
  | 2 => .skidpad
  | 3 => .autocross
  | 4 => .endurance
  | _ => .unassigned

/-- The event sets differ from the defaults in the event mode and the torque tables only. -/
theorem paramsFor_eq (m : EventMode) : ∃ t : TorqueParams,
    paramsFor m = { makeDefaults with eventMode := m, torque := t } := by
  cases m
  · exact ⟨{}, rfl⟩
  · exact ⟨_, rfl⟩
  · exact ⟨_, rfl⟩
  · exact ⟨{}, rfl⟩
  · exact ⟨{}, rfl⟩

end Lhre.Vcu
