import Lhre.Vcu.Params

/-!
# `Vcu.Torque` — the torque path and the wheel-slip controller

Pedal map, power cap and acceleration limiter (`boards/VCU/App/control/torque.{hpp,cpp}`) and the wheel-slip
controller that follows them (`boards/VCU/App/control/wheel_slip.{hpp,cpp}`). `std::pow` is the parameter `pow`.
-/

namespace Lhre.Vcu

open Longhorn

/-! ## Torque path -/

structure TorqueInputs where
  pedalTravel : ℚ := 0
  motorRpm : ℚ := 0
  motorSpeedValid : Bool := false
  dcBusVoltage : ℚ := 0
  dcBusCurrent : ℚ := 0
  /-- arrival time of the current sample -/
  powerSampleMs : U32 := 0
  ocvMinCellV : ℚ := 0
  dtMs : U32 := 0
  /-- arrival time of the chosen speed sample -/
  speedSampleMs : U32 := 0
  speedFromHighSpeed : Bool := false
deriving DecidableEq

structure TorqueOutputs where
  lookup : ℚ := 0
  derated : ℚ := 0
  powerLimited : ℚ := 0
  traction : ℚ := 0
  powerW : ℚ := 0
  powerTrimW : ℚ := 0
deriving DecidableEq

structure TorquePath where
  -- kept across `reset`: it corrects a slow-drifting ratio, not one pull
  powerTrimW : ℚ := 0
  powerPrevSampleMs : U32 := 0
  powerSeeded : Bool := false
  powerCapActive : Bool := false
  tcIntegral : ℚ := 0
  tcPrevOmega : ℚ := 0
  tcPrevSampleMs : U32 := 0
  tcTrim : ℚ := 0
  tcSeeded : Bool := false
  tcPrevFromHighSpeed : Bool := false
  tcAlphaFilter : Ema := {}
deriving DecidableEq

/-- `kPi`. -/
def kPi : ℚ := 3.14159265358979

/-- `kMaxTrimStepS`. -/
def kMaxTrimStepS : ℚ := 0.2

/-- Motor speed in rad/s. -/
def omegaOf (rpm : ℚ) : ℚ := |rpm| * kPi / 30

/-- `LowCellDerate`: 1 above the start voltage, 0 at the cutoff, linear between. -/
def lowCellDerate (ocv : ℚ) (p : TorqueParams) : ℚ :=
  if p.lowCellDerateStartV ≤ ocv then 1
  else if ocv ≤ p.lowCellCutoffV then 0
  else (ocv - p.lowCellCutoffV) / (p.lowCellDerateStartV - p.lowCellCutoffV)

/-- `TorquePath::Reset`. -/
def TorquePath.reset (t : TorquePath) : TorquePath :=
  { t with tcIntegral := 0, tcPrevOmega := 0, tcSeeded := false, tcTrim := 0,
           tcAlphaFilter := t.tcAlphaFilter.reset }

/-- The trim step of `TorquePath::LimitPower`: once per new current sample, and only while the cap had
    authority over the sampled interval. -/
def TorquePath.trimPower (t : TorquePath) (x : TorqueInputs) (pl : PowerLimitParams) (powerW : ℚ) :
    TorquePath :=
  if !t.powerSeeded then { t with powerSeeded := true, powerPrevSampleMs := x.powerSampleMs }
  else if x.powerSampleMs != t.powerPrevSampleMs then
    -- a long gap between samples must not become one large trim step
    let sampleDt := clamp (0.001 * ((x.powerSampleMs - t.powerPrevSampleMs).toNat : ℚ)) 0 kMaxTrimStepS
    { t with
      powerPrevSampleMs := x.powerSampleMs
      powerTrimW :=
        if t.powerCapActive then
          clamp (t.powerTrimW + pl.trimKiPerS * (powerW - pl.limitW) * sampleDt) 0 pl.trimMaxW
        else t.powerTrimW }
  else t

/-- `TorquePath::LimitPower`: the new path and the capped torque. -/
def TorquePath.limitPower (t : TorquePath) (x : TorqueInputs) (pl : PowerLimitParams) (base : ℚ) :
    TorquePath × ℚ :=
  let t := t.trimPower x pl (x.dcBusVoltage * x.dcBusCurrent)
  let omega := omegaOf x.motorRpm
  if !x.motorSpeedValid || decide (omega < pl.minOmegaRadS) || decide (pl.dcPowerRatio ≤ 0) then
    ({ t with powerCapActive := false }, base)
  else
    let cap := (pl.limitW - t.powerTrimW) / (pl.dcPowerRatio * omega)
    let active := decide (cap < base)
    ({ t with powerCapActive := active }, if active then cap else base)

/-- The acceleration limiter of `TorquePath::Update`, on new speed samples only. -/
def TorquePath.limitAcceleration (t : TorquePath) (x : TorqueInputs) (tc : TractionParams)
    (powerLimited : ℚ) : TorquePath :=
  let omega := omegaOf x.motorRpm
  -- re-seed when the speed source changes; the held trim stays
  if !t.tcSeeded || x.speedFromHighSpeed != t.tcPrevFromHighSpeed then
    { t with tcSeeded := true, tcPrevFromHighSpeed := x.speedFromHighSpeed, tcPrevOmega := omega,
             tcPrevSampleMs := x.speedSampleMs }
  else if x.speedSampleMs != t.tcPrevSampleMs then
    let sampleDt := ((x.speedSampleMs - t.tcPrevSampleMs).toNat : ℚ) * 0.001
    let alphaFilter := t.tcAlphaFilter.update ((omega - t.tcPrevOmega) / sampleDt) tc.accelFilterAlpha
    let err := alphaFilter.y - tc.alphaThresholdRadS2
    let cap := clamp tc.maxTrimNm 0 powerLimited
    let integralCap := if 0 < tc.ki then cap / tc.ki else 0
    -- bound the stored trim so saturation cannot wind the controller up
    let integral := clamp (t.tcIntegral + err * sampleDt) 0 integralCap
    { t with
      tcAlphaFilter := alphaFilter
      tcPrevOmega := omega
      tcPrevSampleMs := x.speedSampleMs
      tcIntegral := integral
      tcTrim := clamp (tc.kp * err + tc.ki * integral) 0 cap }
  else t

/-- `TorquePath::Update`. -/
def TorquePath.update (pow : ℚ → ℚ → ℚ) (t : TorquePath) (x : TorqueInputs) (torque : TorqueParams)
    (pl : PowerLimitParams) (tc : TractionParams) : TorquePath × TorqueOutputs :=
  let apps := clamp x.pedalTravel 0 1
  let rpm := clamp |x.motorRpm| 0 torque.maxRpm
  let available := lookup1D torque.powerLimitTorque 0 torque.maxRpm rpm
  let remapped := lookup1D torque.pedalMap 0 1 apps
  let lookup := available * pow (clamp remapped 0 1) torque.pedalCurveExponent
  let derated := lookup * lowCellDerate x.ocvMinCellV torque
  let base := if torque.applyLowCellDerate then derated else lookup
  let limited := t.limitPower x pl base
  let out : TorqueOutputs :=
    { lookup := lookup
      derated := derated
      powerLimited := limited.2
      powerW := x.dcBusVoltage * x.dcBusCurrent
      powerTrimW := limited.1.powerTrimW }
  if tc.enabled && x.motorSpeedValid then
    let t := limited.1.limitAcceleration x tc limited.2
    (t, { out with traction := limited.2 - clamp t.tcTrim 0 limited.2 })
  else
    ({ limited.1 with tcSeeded := false, tcIntegral := 0, tcTrim := 0,
                      tcAlphaFilter := limited.1.tcAlphaFilter.reset },
     { out with traction := limited.2 })

/-! ## Wheel slip -/

structure WheelInputs where
  fresh : Bool := false
  fl : ℚ := 0
  fr : ℚ := 0
  rl : ℚ := 0
  rr : ℚ := 0
deriving DecidableEq

structure WheelControlResult where
  valid : Bool := false
  positiveNm : ℚ := 0
  referenceMS : ℚ := 0
  driveSlip : ℚ := 0
  brakingSlip : ℚ := 0
  regenAllowed : Bool := false
deriving DecidableEq

structure WheelSlipController where
  integralNm : ℚ := 0
  previousNm : ℚ := 0
  recovering : Bool := false
deriving DecidableEq

/-- The measurement part of `WheelSlipController::Update`. The rear extremes are used so that one spinning
    or locking wheel cannot hide in the average. -/
def measureSlip (x : WheelInputs) (dtMs : U32) (p : WheelControlParams) : WheelControlResult :=
  let valid := x.fresh && decide (0 < p.frontRadiusM) && decide (0 < p.rearRadiusM) &&
    decide (0 < p.speedFloorMS) && decide (dtMs ≤ 30) && decide (0 ≤ x.fl) && decide (0 ≤ x.fr) &&
    decide (0 ≤ x.rl) && decide (0 ≤ x.rr)
  if valid then
    let front := if x.fr < x.fl then x.fl else x.fr
    let rearFast := if x.rr < x.rl then x.rl else x.rr
    let rearSlow := if x.rl < x.rr then x.rl else x.rr
    let reference := front * p.frontRadiusM
    let denominator := if p.speedFloorMS < reference then reference else p.speedFloorMS
    let brakingSlip := (reference - rearSlow * p.rearRadiusM) / denominator
    { valid := true
      referenceMS := reference
      driveSlip := (rearFast * p.rearRadiusM - reference) / denominator
      brakingSlip := brakingSlip
      regenAllowed := decide (brakingSlip ≤ p.maxBrakingSlip) }
  else {}

/-- `WheelSlipController::Update`. -/
def WheelSlipController.update (c : WheelSlipController) (x : WheelInputs) (demandNm : ℚ) (dtMs : U32)
    (p : WheelControlParams) : WheelSlipController × WheelControlResult :=
  let out := measureSlip x dtMs p
  if !p.enabled then ({}, { out with positiveNm := demandNm })
  else if !out.valid || decide (demandNm ≤ 0) then ({}, out)
  else
    let dt := (dtMs.toNat : ℚ) * 0.001
    let error := out.driveSlip - p.targetDriveSlip
    let integral := clamp (c.integralNm + p.kiNmS * error * dt) 0 demandNm
    let trim := clamp (p.kpNm * error + integral) 0 demandNm
    let target := demandNm - trim
    -- only a slip cut arms the ramp; it stays armed until the cut has been fully restored
    let positive := if c.recovering then clamp target 0 (c.previousNm + p.recoveryNmS * dt) else target
    ({ integralNm := integral
       previousNm := positive
       recovering := decide (0 < trim) || decide (positive < demandNm) },
     { out with positiveNm := positive })

end Lhre.Vcu
