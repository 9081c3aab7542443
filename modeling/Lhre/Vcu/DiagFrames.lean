import Lhre.Can.VcuEncodings
import Lhre.Vcu.CriticalFrames

/-!
# `Vcu.DiagFrames` — the analog diagnostics on the Data bus

`SendAnalogDiag` (`boards/VCU/App/can/diag_frames.cpp`) with the field ranges it uses, and the part of
`App::TelemetryTick` that reads its arguments from the published snapshot. The digital and the health diagnostics set no
scaled signal and are left out.
-/

namespace Lhre.Vcu

open Can Longhorn

/-- `kU16LoopVolts`. -/
def kU16LoopVolts : ℚ := 655.35
/-- `kS16Fraction`. -/
def kS16Fraction : ℚ := 3.2767
/-- `kS16Psi`. -/
def kS16Psi : ℚ := 3276.7

/-- `CalibratedValues`: unclamped fractions and pressures. -/
structure CalibratedValues where
  apps1Travel : ℚ := 0
  apps2Travel : ℚ := 0
  bse1Psi : ℚ := 0
  bse2Psi : ℚ := 0
  steeringAngleDeg : ℚ := 0
  steeringTravel : ℚ := 0
deriving DecidableEq

/-- What `App::TelemetryTick` takes from a snapshot. -/
def calibratedValues (s : ControlSnapshot) : CalibratedValues :=
  { apps1Travel := s.pedals.apps1TravelUnclamped
    apps2Travel := s.pedals.apps2TravelUnclamped
    bse1Psi := s.pedals.bse1PsiUnclamped
    bse2Psi := s.pedals.bse2PsiUnclamped
    steeringAngleDeg := s.steering.angleDeg
    steeringTravel := s.steering.travel }

/-- The frames `SendAnalogDiag` offers to the bus, in order. -/
def sendAnalogDiag (hasBus : Bool) (a : AnalogReadings) (cal : CalibratedValues) : List DiagFrame :=
  if !hasBus then []
  else
    [.vcuAdcCountsA
        { apps1 := a.apps1.counts, apps2 := a.apps2.counts, bse1 := a.bse1.counts, bse2 := a.bse2.counts },
      .vcuAdcCountsB
        { steering := a.steering.counts
          shutdownIn := a.shutdownIn.counts
          shutdownOut := a.shutdownOut.counts
          vrefint := a.vrefintCounts },
      .vcuAdcVoltsA
        { apps1Raw := setRaw (clamp a.apps1.pinV 0 kU16Volts) 0.0001
          apps2Raw := setRaw (clamp a.apps2.pinV 0 kU16Volts) 0.0001
          bse1Raw := setRaw (clamp a.bse1.pinV 0 kU16Volts) 0.0001
          bse2Raw := setRaw (clamp a.bse2.pinV 0 kU16Volts) 0.0001 },
      .vcuAdcVoltsB
        { steeringRaw := setRaw (clamp a.steering.pinV 0 kU16Volts) 0.0001
          shutdownInLoopRaw := setRaw (clamp a.shutdownIn.sourceV 0 kU16LoopVolts) 0.01
          shutdownOutLoopRaw := setRaw (clamp a.shutdownOut.sourceV 0 kU16LoopVolts) 0.01
          vddaRaw := setRaw (clamp a.vdda 0 kU16Volts) 0.0001 },
      .vcuCalibratedA
        { apps1TravelRaw := setRaw (clamp cal.apps1Travel (-kS16Fraction) kS16Fraction) 0.0001
          apps2TravelRaw := setRaw (clamp cal.apps2Travel (-kS16Fraction) kS16Fraction) 0.0001
          bse1PressureRaw := setRaw (clamp cal.bse1Psi (-kS16Psi) kS16Psi) 0.1
          bse2PressureRaw := setRaw (clamp cal.bse2Psi (-kS16Psi) kS16Psi) 0.1 },
      .vcuCalibratedB
        { steeringAngleRaw := setRaw (clamp cal.steeringAngleDeg (-kS16Deg) kS16Deg) 0.004
          steeringTravelRaw := setRaw (clamp cal.steeringTravel (-kS16Fraction) kS16Fraction) 0.0001 }]

end Lhre.Vcu
