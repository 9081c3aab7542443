import Lhre.Vcu.Params

/-!
# `Vcu.Regen` — brake regeneration behind the line lock

`BrakeRegen::Update` (`boards/VCU/App/control/regen.{hpp,cpp}`).
-/

namespace Lhre.Vcu

open Longhorn

structure RegenInputs where
  drive : Bool := false
  /-- includes live HVC cell limits and BSE3 -/
  feedbackFresh : Bool := false
  hardBraking : Bool := false
  /-- hardware gate readback, not valve feedback -/
  linelockOut : Bool := false
  pedal : ℚ := 0
  rearPrePsi : ℚ := 0
  rearPostPsi : ℚ := 0
  motorRpm : ℚ := 0
  dcV : ℚ := 0
  dcA : ℚ := 0
  maxCellV : ℚ := 0
  dtMs : U32 := 0
deriving DecidableEq

structure RegenResult where
  linelockRequest : Bool := false
  torqueNm : ℚ := 0
  currentCut : Bool := false
deriving DecidableEq

structure BrakeRegen where
  requested : Bool := false
  currentCut : Bool := false
  closedMs : U32 := 0
deriving DecidableEq

/-- The over-current latch of `BrakeRegen::Update`. -/
def BrakeRegen.cutLatch (b : BrakeRegen) (x : RegenInputs) (p : RegenParams) : Bool :=
  let released := decide (x.rearPrePsi ≤ p.currentCutReleasePsi) && decide (-p.maxCurrentA ≤ x.dcA)
  let raised := p.enabled && x.feedbackFresh && decide (x.dcA < -p.hardCutCurrentA)
  raised || (b.currentCut && !released)

/-- `params_valid`. -/
def RegenParams.valid (p : RegenParams) : Bool :=
  decide (0 < p.packResistanceOhm) && decide (0 < p.seriesCells) && decide (0 < p.maxCurrentA) &&
    decide (0 < p.maxTorqueNm) && decide (0 < p.nmPerPsi) && decide (p.maxCurrentA ≤ p.hardCutCurrentA) &&
    decide (0 < p.minMotorRpm) && decide (0 < p.closeDelayMs)

/-- `eligible`, given the over-current latch. -/
def RegenInputs.eligible (x : RegenInputs) (currentCut : Bool) (p : RegenParams) : Bool :=
  p.enabled && p.valid && decide (0 ≤ x.rearPrePsi) && decide (0 ≤ x.rearPostPsi) && x.drive &&
    x.feedbackFresh && !x.hardBraking && !currentCut && decide (x.pedal ≤ 0.05) &&
    decide (p.minMotorRpm ≤ x.motorRpm) && decide (0 < x.dcV) && decide (x.dcV < p.maxPackV) &&
    decide (0 < x.maxCellV) && decide (x.maxCellV < p.maxCellV) && decide (x.dtMs ≤ 30)

/-- `headroom`: the voltage left below the pack limit. -/
def RegenInputs.headroom (x : RegenInputs) (p : RegenParams) : ℚ :=
  let cellPackV := x.maxCellV * p.seriesCells
  let limitingV := if x.dcV < cellPackV then cellPackV else x.dcV
  p.maxPackV - p.voltageReserveV - limitingV

/-- The torque of `BrakeRegen::Update` once the line lock has closed; residual hydraulic braking is
    subtracted from the demand. -/
def RegenInputs.torque (x : RegenInputs) (p : RegenParams) : ℚ :=
  let current := clamp (x.headroom p / p.packResistanceOhm) 0 p.maxCurrentA
  let omega := x.motorRpm * 0.104719755
  if omega ≤ 0 then 0
  else
    let packLimit := x.dcV * current / omega
    let cap := if packLimit < p.maxTorqueNm then packLimit else p.maxTorqueNm
    0 - clamp ((x.rearPrePsi - x.rearPostPsi) * p.nmPerPsi) 0 cap

/-- `BrakeRegen::Update`. -/
def BrakeRegen.update (b : BrakeRegen) (x : RegenInputs) (p : RegenParams) : BrakeRegen × RegenResult :=
  let cut := b.cutLatch x p
  let pressed := decide (p.engageMaxPsi < x.rearPrePsi) || decide (p.engageMaxPsi < x.rearPostPsi)
  if !x.eligible cut p || decide (x.headroom p ≤ 0) then
    ({ requested := false, currentCut := cut, closedMs := 0 }, { currentCut := cut })
  -- only isolate after pressure has released on both sides of the valve
  else if !b.requested && pressed then ({ b with currentCut := cut }, { currentCut := cut })
  else if !x.linelockOut then
    let lost := b.closedMs != 0 || pressed
    ({ requested := !lost, currentCut := cut, closedMs := 0 }, { linelockRequest := !lost, currentCut := cut })
  else
    let closedMs := if p.closeDelayMs < b.closedMs then p.closeDelayMs else b.closedMs
    let remaining := p.closeDelayMs - closedMs
    let closedMs := closedMs + (if x.dtMs < remaining then x.dtMs else remaining)
    ({ requested := true, currentCut := cut, closedMs := closedMs },
     { linelockRequest := true
       torqueNm := if closedMs < p.closeDelayMs then 0 else x.torque p
       currentCut := cut })

end Lhre.Vcu
