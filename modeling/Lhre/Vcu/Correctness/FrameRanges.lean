import Lhre.Vcu.Correctness.TorqueGate
import Lhre.Vcu.DiagFrames

/-!
# `Correctness.FrameRanges` — the frames of the VCU carry what they are given

A setter rounds to the nearest raw value and does not clamp, so a value has to lie in what the bits of its field can
carry. The builders clamp to the ranges of `field_ranges.hpp`; each range is checked once against the width and the step
of the spec, and every field then follows from the range it is clamped to. The fields that are not clamped are outputs of
the pedal processor, which is where the run and its parameters come in.

## Contents
- **The setter.** `Carries`, `carries_setRaw`, `setRaw_mono`, `setRaw_neg`.
- **The ranges.** `FitsUnsigned`, `FitsSigned`, one lemma for each range.
- **The frames.** `CriticalFrame.Encodes`, `DiagFrame.Encodes`, and the builders.
- **A run.** `controlTick_sends`, `frames_encode`.
-/

namespace Lhre.Vcu

open Lhal Can Longhorn CanSpec

/-! ## The setter -/

/-- A raw field of the encoding carries a value: it fits the bits, and it stands for the value to half a step. -/
structure Carries (e : Encoding) (raw : ℤ) (value : ℚ) : Prop where
  set : raw = setRaw value (effectiveScale e)
  low : (rawRange e).1 ≤ raw
  high : raw ≤ (rawRange e).2
  near : |physical raw (effectiveScale e) - value| ≤ effectiveScale e / 2

/-- **A value between the ends of a field is carried.** -/
theorem carries_setRaw {e : Encoding} {value : ℚ} (hscale : 0 < effectiveScale e)
    (hlow : ((rawRange e).1 : ℚ) * effectiveScale e ≤ value)
    (hhigh : value ≤ ((rawRange e).2 : ℚ) * effectiveScale e) :
    Carries e (setRaw value (effectiveScale e)) value := by
  have hnear := @abs_physical_setRaw_sub_le value (effectiveScale e) hscale
  obtain ⟨hbelow, habove⟩ := abs_le.mp hnear
  unfold physical at hbelow habove
  refine ⟨rfl, ?_, ?_, hnear⟩
  -- a raw value outside is off by a whole step
  · by_contra hout
    have hle : ((setRaw value (effectiveScale e) : ℤ) : ℚ) ≤ (rawRange e).1 - 1 := by
      exact_mod_cast Int.le_sub_one_of_lt (not_le.mp hout)
    have hmul := mul_le_mul_of_nonneg_right hle hscale.le
    rw [sub_mul, one_mul] at hmul
    linarith
  · by_contra hout
    have hle : ((rawRange e).2 : ℚ) + 1 ≤ setRaw value (effectiveScale e) := by
      exact_mod_cast Int.add_one_le_of_lt (not_le.mp hout)
    have hmul := mul_le_mul_of_nonneg_right hle hscale.le
    rw [add_mul, one_mul] at hmul
    linarith

/-- Setters keep the order. -/
theorem setRaw_mono {value value' scale : ℚ} (hscale : 0 < scale) (h : value ≤ value') :
    setRaw value scale ≤ setRaw value' scale := by
  have hq : value / scale ≤ value' / scale := div_le_div_of_nonneg_right h hscale.le
  rw [setRaw_eq, setRaw_eq]
  generalize value / scale = q at hq ⊢
  generalize value' / scale = q' at hq ⊢
  by_cases hpos : 0 ≤ q
  · rw [if_pos hpos, if_pos (hpos.trans hq), truncToInt_of_nonneg (by linarith), truncToInt_of_nonneg (by linarith)]
    exact Int.floor_le_floor (by linarith)
  · have hneg : q - 1 / 2 < 0 := by linarith
    rw [if_neg hpos, truncToInt_of_neg hneg]
    -- a negative value and one that is not round to their own sides of 0
    by_cases hpos' : 0 ≤ q'
    · have hfloor : 0 ≤ ⌊-(q - 1 / 2)⌋ := Int.floor_nonneg.mpr (by linarith)
      have hfloor' : 0 ≤ ⌊q' + 1 / 2⌋ := Int.floor_nonneg.mpr (by linarith)
      rw [if_pos hpos', truncToInt_of_nonneg (by linarith)]
      omega
    · rw [if_neg hpos', truncToInt_of_neg (by linarith)]
      exact Int.neg_le_neg (Int.floor_le_floor (by linarith))

/-- Setters round both signs alike. -/
theorem setRaw_neg {value scale : ℚ} : setRaw (-value) scale = -setRaw value scale := by
  rw [setRaw_eq, setRaw_eq, neg_div]
  generalize value / scale = q
  rcases lt_trichotomy q 0 with hq | rfl | hq
  · rw [if_pos (by linarith), if_neg (by linarith), truncToInt_of_nonneg (by linarith), truncToInt_of_neg (by linarith),
      neg_neg]
    congr 1
    ring
  · rw [neg_zero, if_pos (le_refl 0), truncToInt_of_nonneg (by norm_num)]
    norm_num
  · rw [if_neg (by linarith), if_pos hq.le, truncToInt_of_neg (by linarith), truncToInt_of_nonneg (by linarith)]
    congr 2
    ring

/-- A setter keeps a bound on the magnitude. -/
theorem abs_setRaw_le {value bound scale : ℚ} (hscale : 0 < scale) (h : |value| ≤ bound) :
    |setRaw value scale| ≤ setRaw bound scale := by
  obtain ⟨hlow, hhigh⟩ := abs_le.mp h
  rw [abs_le, ← setRaw_neg]
  exact ⟨setRaw_mono hscale hlow, setRaw_mono hscale hhigh⟩

/-! ## The ranges -/

/-- A range from 0 that an unsigned field can carry. -/
structure FitsUnsigned (bits : ℕ) (scale top : ℚ) : Prop where
  pos : 0 < scale
  nonneg : 0 ≤ top
  top_le : top ≤ (2 ^ bits - 1) * scale

/-- A symmetric range that a signed field can carry. -/
structure FitsSigned (bits : ℕ) (scale top : ℚ) : Prop where
  pos : 0 < scale
  nonneg : 0 ≤ top
  top_le : top ≤ (2 ^ (bits - 1) - 1) * scale

theorem effectiveScale_unsignedAt {start bits : ℕ} {scale : ℚ} (h : 0 < scale) :
    effectiveScale (unsignedAt start bits scale) = scale := if_pos h.ne'

theorem effectiveScale_signedAt {start bits : ℕ} {scale : ℚ} (h : 0 < scale) :
    effectiveScale (signedAt start bits scale) = scale := if_pos h.ne'

theorem FitsUnsigned.carries {bits : ℕ} {scale top value : ℚ} (h : FitsUnsigned bits scale top) (start : ℕ)
    (hlow : 0 ≤ value) (hhigh : value ≤ top) :
    Carries (unsignedAt start bits scale) (setRaw value scale) value := by
  have hscale : effectiveScale (unsignedAt start bits scale) = scale := effectiveScale_unsignedAt h.pos
  have hcarries := @carries_setRaw (unsignedAt start bits scale) value (by rw [hscale]; exact h.pos)
  rw [hscale] at hcarries
  refine hcarries ?_ ?_
  · show ((0 : ℤ) : ℚ) * scale ≤ value
    rw [Int.cast_zero, zero_mul]
    exact hlow
  · show value ≤ ((2 ^ bits - 1 : ℤ) : ℚ) * scale
    push_cast
    exact hhigh.trans h.top_le

theorem FitsSigned.carries {bits : ℕ} {scale top value : ℚ} (h : FitsSigned bits scale top) (start : ℕ)
    (hvalue : |value| ≤ top) :
    Carries (signedAt start bits scale) (setRaw value scale) value := by
  have hscale : effectiveScale (signedAt start bits scale) = scale := effectiveScale_signedAt h.pos
  have hcarries := @carries_setRaw (signedAt start bits scale) value (by rw [hscale]; exact h.pos)
  obtain ⟨hlow, hhigh⟩ := abs_le.mp hvalue
  have htop := h.top_le
  have hpos := h.pos
  rw [hscale] at hcarries
  refine hcarries ?_ ?_
  · show ((-2 ^ (bits - 1) : ℤ) : ℚ) * scale ≤ value
    push_cast
    linarith
  · show value ≤ ((2 ^ (bits - 1) - 1 : ℤ) : ℚ) * scale
    push_cast
    exact hhigh.trans htop

/-- What is clamped to the range is carried. -/
theorem FitsUnsigned.clamp {bits : ℕ} {scale top : ℚ} (h : FitsUnsigned bits scale top) (start : ℕ) (value : ℚ) :
    Carries (unsignedAt start bits scale) (setRaw (clamp value 0 top) scale) (clamp value 0 top) :=
  h.carries start (le_clamp h.nonneg) (clamp_le h.nonneg)

theorem FitsSigned.clamp {bits : ℕ} {scale top : ℚ} (h : FitsSigned bits scale top) (start : ℕ) (value : ℚ) :
    Carries (signedAt start bits scale) (setRaw (clamp value (-top) top) scale) (clamp value (-top) top) :=
  h.carries start (abs_clamp_le (by linarith [h.nonneg]) (le_refl _) (le_refl _))

theorem kU16Volts_fits : FitsUnsigned 16 0.0001 kU16Volts := by
  constructor <;> norm_num [kU16Volts]

theorem kU16LoopVolts_fits : FitsUnsigned 16 0.01 kU16LoopVolts := by
  constructor <;> norm_num [kU16LoopVolts]

theorem kU16Fraction_fits : FitsUnsigned 16 0.0001 kU16Fraction := by
  constructor <;> norm_num [kU16Fraction]

theorem kS16Fraction_fits : FitsSigned 16 0.0001 kS16Fraction := by
  constructor <;> norm_num [kS16Fraction]

theorem kU16Psi_fits : FitsUnsigned 16 0.05 kU16Psi := by
  constructor <;> norm_num [kU16Psi]

theorem kS16Psi_fits : FitsSigned 16 0.1 kS16Psi := by
  constructor <;> norm_num [kS16Psi]

theorem kU16Nm_fits : FitsUnsigned 16 0.1 kU16Nm := by
  constructor <;> norm_num [kU16Nm]

theorem kS16Nm_fits : FitsSigned 16 0.1 kS16Nm := by
  constructor <;> norm_num [kS16Nm]

theorem kS16Deg_fits : FitsSigned 16 0.004 kS16Deg := by
  constructor <;> norm_num [kS16Deg]

theorem kU32Wh_fits : FitsUnsigned 32 0.001 kU32Wh := by
  constructor <;> norm_num [kU32Wh]

/-- The brake bias goes up to 1. -/
theorem brakeBias_fits : FitsUnsigned 8 0.01 1 := by
  constructor <;> norm_num

/-- The charge goes up to 100 percent. -/
theorem stateOfCharge_fits : FitsUnsigned 16 0.1 100 := by
  constructor <;> norm_num

/-- The duty of the brake light goes up to 1. -/
theorem brakeLight_fits : FitsUnsigned 16 0.001 1 := by
  constructor <;> norm_num

/-! ## The frames -/

/-- A frame of the Critical bus carries the values of a snapshot, and asks for no more torque than its limit. -/
def CriticalFrame.Encodes (s : ControlSnapshot) (p : InverterParams) : CriticalFrame → Prop
  | .inverterTorqueCommand m =>
      Carries InverterTorqueCommand.torqueRequestEnc m.torqueRequestRaw (clamp s.torqueCommand (-kS16Nm) kS16Nm) ∧
      Carries InverterTorqueCommand.torqueLimitEnc m.torqueLimitRaw (clamp p.torqueLimitNm 0 kS16Nm) ∧
      |m.torqueRequest| ≤ m.torqueLimit
  | .inverterParameterRequest _ => True
  | .appsVoltages m =>
      Carries AppsVoltages.apps1VoltageEnc m.apps1VoltageRaw (clamp s.analog.apps1.sourceV 0 kU16Volts) ∧
      Carries AppsVoltages.apps2VoltageEnc m.apps2VoltageRaw (clamp s.analog.apps2.sourceV 0 kU16Volts) ∧
      Carries AppsVoltages.apps1TravelEnc m.apps1TravelRaw s.pedals.apps1Travel ∧
      Carries AppsVoltages.apps2TravelEnc m.apps2TravelRaw s.pedals.apps2Travel
  | .acceleratorPedal m =>
      Carries AcceleratorPedal.acceleratorPedalTravelEnc m.acceleratorPedalTravelRaw
        (clamp s.pedals.pedalTravel 0 kU16Fraction)
  | .brakePedal m => Carries BrakePedal.brakeLightPercentEnc m.brakeLightPercentRaw s.pedals.brakeLight
  | .bseVoltages m =>
      Carries BseVoltages.bseFrontVoltageEnc m.bseFrontVoltageRaw (clamp s.analog.bse1.sourceV 0 kU16Volts) ∧
      Carries BseVoltages.bseRearVoltageEnc m.bseRearVoltageRaw (clamp s.analog.bse2.sourceV 0 kU16Volts)
  | .brakes m =>
      Carries Brakes.brakePressureFrontEnc m.brakePressureFrontRaw (clamp s.pedals.bse1Psi 0 kU16Psi) ∧
      Carries Brakes.brakePressureRearPreLockEnc m.brakePressureRearPreLockRaw (clamp s.pedals.bse2Psi 0 kU16Psi) ∧
      Carries Brakes.brakePressureRearPostLockEnc m.brakePressureRearPostLockRaw (clamp s.bse3Psi 0 kU16Psi) ∧
      Carries Brakes.brakeBiasEnc m.brakeBiasRaw (clamp s.brakeBias 0 1)
  | .steeringColumn m =>
      Carries SteeringColumn.steeringColumnAngleEnc m.steeringColumnAngleRaw
        (clamp s.steering.angleDeg (-kS16Deg) kS16Deg)
  | .vcuState m =>
      Carries Can.VcuState.stateOfChargeEstimateEnc m.stateOfChargeEstimateRaw (clamp s.battery.soePct 0 100)
  | .vcuFaults _ => True
  | .energyEstimate m =>
      Carries EnergyEstimate.netEnergyEnc m.netEnergyRaw (clamp s.battery.netEnergyWh 0 kU32Wh) ∧
      Carries EnergyEstimate.regenEnergyEnc m.regenEnergyRaw (clamp s.battery.regenEnergyWh 0 kU32Wh)
  | .torquePath m =>
      Carries Can.TorquePath.torqueLookupEnc m.torqueLookupRaw (clamp s.torque.lookup 0 kU16Nm) ∧
      Carries Can.TorquePath.torqueDeratedEnc m.torqueDeratedRaw (clamp s.torque.derated 0 kU16Nm) ∧
      Carries Can.TorquePath.torquePowerLimitedEnc m.torquePowerLimitedRaw (clamp s.torque.powerLimited 0 kU16Nm) ∧
      Carries Can.TorquePath.torqueTractionControlledEnc m.torqueTractionControlledRaw
        (clamp s.torque.traction 0 kU16Nm)

/-- A frame of the diagnostics carries the readings and the calibrated values. -/
def DiagFrame.Encodes (a : AnalogReadings) (cal : CalibratedValues) : DiagFrame → Prop
  | .vcuAdcCountsA _ => True
  | .vcuAdcCountsB _ => True
  | .vcuAdcVoltsA m =>
      Carries VcuAdcVoltsA.apps1Enc m.apps1Raw (clamp a.apps1.pinV 0 kU16Volts) ∧
      Carries VcuAdcVoltsA.apps2Enc m.apps2Raw (clamp a.apps2.pinV 0 kU16Volts) ∧
      Carries VcuAdcVoltsA.bse1Enc m.bse1Raw (clamp a.bse1.pinV 0 kU16Volts) ∧
      Carries VcuAdcVoltsA.bse2Enc m.bse2Raw (clamp a.bse2.pinV 0 kU16Volts)
  | .vcuAdcVoltsB m =>
      Carries VcuAdcVoltsB.steeringEnc m.steeringRaw (clamp a.steering.pinV 0 kU16Volts) ∧
      Carries VcuAdcVoltsB.shutdownInLoopEnc m.shutdownInLoopRaw (clamp a.shutdownIn.sourceV 0 kU16LoopVolts) ∧
      Carries VcuAdcVoltsB.shutdownOutLoopEnc m.shutdownOutLoopRaw (clamp a.shutdownOut.sourceV 0 kU16LoopVolts) ∧
      Carries VcuAdcVoltsB.vddaEnc m.vddaRaw (clamp a.vdda 0 kU16Volts)
  | .vcuCalibratedA m =>
      Carries VcuCalibratedA.apps1TravelEnc m.apps1TravelRaw (clamp cal.apps1Travel (-kS16Fraction) kS16Fraction) ∧
      Carries VcuCalibratedA.apps2TravelEnc m.apps2TravelRaw (clamp cal.apps2Travel (-kS16Fraction) kS16Fraction) ∧
      Carries VcuCalibratedA.bse1PressureEnc m.bse1PressureRaw (clamp cal.bse1Psi (-kS16Psi) kS16Psi) ∧
      Carries VcuCalibratedA.bse2PressureEnc m.bse2PressureRaw (clamp cal.bse2Psi (-kS16Psi) kS16Psi)
  | .vcuCalibratedB m =>
      Carries VcuCalibratedB.steeringAngleEnc m.steeringAngleRaw (clamp cal.steeringAngleDeg (-kS16Deg) kS16Deg) ∧
      Carries VcuCalibratedB.steeringTravelEnc m.steeringTravelRaw
        (clamp cal.steeringTravel (-kS16Fraction) kS16Fraction)

/-- **The diagnostic frames** carry any readings. -/
theorem sendAnalogDiag_encodes (hasBus : Bool) (a : AnalogReadings) (cal : CalibratedValues) :
    ∀ frame ∈ sendAnalogDiag hasBus a cal, DiagFrame.Encodes a cal frame := by
  intro frame hframe
  unfold sendAnalogDiag at hframe
  cases hasBus with
  | false => exact absurd hframe List.not_mem_nil
  | true =>
      simp only [Bool.not_true, Bool.false_eq_true, if_false, List.mem_cons, List.not_mem_nil, or_false] at hframe
      rcases hframe with rfl | rfl | rfl | rfl | rfl | rfl
      · trivial
      · trivial
      · exact ⟨kU16Volts_fits.clamp _ _, kU16Volts_fits.clamp _ _, kU16Volts_fits.clamp _ _, kU16Volts_fits.clamp _ _⟩
      · exact ⟨kU16Volts_fits.clamp _ _, kU16LoopVolts_fits.clamp _ _, kU16LoopVolts_fits.clamp _ _,
          kU16Volts_fits.clamp _ _⟩
      · exact ⟨kS16Fraction_fits.clamp _ _, kS16Fraction_fits.clamp _ _, kS16Psi_fits.clamp _ _, kS16Psi_fits.clamp _ _⟩
      · exact ⟨kS16Deg_fits.clamp _ _, kS16Fraction_fits.clamp _ _⟩

/-- What the fields hold that no builder clamps, and the torque command. -/
structure ControlSnapshot.InRange (s : ControlSnapshot) (p : InverterParams) : Prop where
  apps1Travel : 0 ≤ s.pedals.apps1Travel ∧ s.pedals.apps1Travel ≤ 1
  apps2Travel : 0 ≤ s.pedals.apps2Travel ∧ s.pedals.apps2Travel ≤ 1
  brakeLight : 0 ≤ s.pedals.brakeLight ∧ s.pedals.brakeLight ≤ 1
  torqueLimit : 0 ≤ p.torqueLimitNm
  torqueCommand : |s.torqueCommand| ≤ p.torqueLimitNm

/-- The frames the builders make of a snapshot. -/
def builtFrames (s : ControlSnapshot) (p : InverterParams) : List CriticalFrame :=
  [.inverterTorqueCommand (torqueCommandFrame s p), .inverterParameterRequest (faultClearFrame p),
    .appsVoltages (appsVoltagesFrame s), .acceleratorPedal (accelPedalFrame s), .brakePedal (brakePedalFrame s),
    .bseVoltages (bseVoltagesFrame s), .brakes (brakesFrame s), .steeringColumn (steeringFrame s),
    .vcuState (driveStateFrame s), .vcuFaults (faultsFrame s), .energyEstimate (energyFrame s),
    .torquePath (torquePathFrame s)]

/-- Clamped each to its own range, the request is still within the limit. -/
theorem abs_clamp_le_clamp {torque limit top : ℚ} (htop : 0 ≤ top) (hlimit : 0 ≤ limit) (h : |torque| ≤ limit) :
    |clamp torque (-top) top| ≤ clamp limit 0 top := by
  -- a limit in range clamps neither; one past it clamps both to the same end
  by_cases hle : limit ≤ top
  · obtain ⟨hlow, hhigh⟩ := abs_le.mp h
    rw [clamp_of_mem hlimit hle, clamp_of_mem (by linarith) (by linarith)]
    exact h
  · have hclamped : clamp limit 0 top = top := by
      unfold clamp
      rw [if_neg (not_lt.mpr hlimit), if_pos (not_le.mp hle)]
    rw [hclamped]
    exact abs_clamp_le (by linarith) (le_refl _) (le_refl _)

/-- **The torque frame** asks for no more than its limit, as decoded. -/
theorem torqueCommandFrame_encodes {s : ControlSnapshot} {p : InverterParams} (h : s.InRange p) :
    CriticalFrame.Encodes s p (.inverterTorqueCommand (torqueCommandFrame s p)) := by
  have htop : 0 ≤ kS16Nm := kS16Nm_fits.nonneg
  refine ⟨kS16Nm_fits.clamp _ _, ?_, ?_⟩
  · refine kS16Nm_fits.carries _ ?_
    rw [abs_of_nonneg (le_clamp htop)]
    exact clamp_le htop
  -- both fields have the same step, so the order of the raw values is that of the decoded ones
  · have hraw : |setRaw (clamp s.torqueCommand (-kS16Nm) kS16Nm) 0.1| ≤ setRaw (clamp p.torqueLimitNm 0 kS16Nm) 0.1 :=
      abs_setRaw_le (by norm_num) (abs_clamp_le_clamp htop h.torqueLimit h.torqueCommand)
    have hcast : |((setRaw (clamp s.torqueCommand (-kS16Nm) kS16Nm) 0.1 : ℤ) : ℚ)| ≤
        (setRaw (clamp p.torqueLimitNm 0 kS16Nm) 0.1 : ℤ) := by exact_mod_cast hraw
    show |((setRaw (clamp s.torqueCommand (-kS16Nm) kS16Nm) 0.1 : ℤ) : ℚ) * 0.1| ≤
      ((setRaw (clamp p.torqueLimitNm 0 kS16Nm) 0.1 : ℤ) : ℚ) * 0.1
    rw [abs_mul, abs_of_pos (show (0 : ℚ) < 0.1 by norm_num)]
    exact mul_le_mul_of_nonneg_right hcast (by norm_num)

/-- **The critical frames** carry a snapshot whose unclamped fields are in range. -/
theorem builtFrames_encode {s : ControlSnapshot} {p : InverterParams} (h : s.InRange p) :
    ∀ frame ∈ builtFrames s p, CriticalFrame.Encodes s p frame := by
  have htravel : ∀ {travel : ℚ} (start : ℕ), 0 ≤ travel ∧ travel ≤ 1 →
      Carries (unsignedAt start 16 0.0001) (setRaw travel 0.0001) travel :=
    fun start htravel => kU16Fraction_fits.carries start htravel.1 (htravel.2.trans (by norm_num [kU16Fraction]))
  intro frame hframe
  unfold builtFrames at hframe
  simp only [List.mem_cons, List.not_mem_nil, or_false] at hframe
  rcases hframe with rfl | rfl | rfl | rfl | rfl | rfl | rfl | rfl | rfl | rfl | rfl | rfl
  · exact torqueCommandFrame_encodes h
  · trivial
  · exact ⟨kU16Volts_fits.clamp _ _, kU16Volts_fits.clamp _ _, htravel _ h.apps1Travel, htravel _ h.apps2Travel⟩
  · exact kU16Fraction_fits.clamp _ _
  · exact brakeLight_fits.carries _ h.brakeLight.1 h.brakeLight.2
  · exact ⟨kU16Volts_fits.clamp _ _, kU16Volts_fits.clamp _ _⟩
  · exact ⟨kU16Psi_fits.clamp _ _, kU16Psi_fits.clamp _ _, kU16Psi_fits.clamp _ _, brakeBias_fits.clamp _ _⟩
  · exact kS16Deg_fits.clamp _ _
  · exact stateOfCharge_fits.clamp _ _
  · trivial
  · exact ⟨kU32Wh_fits.clamp _ _, kU32Wh_fits.clamp _ _⟩
  · exact ⟨kU16Nm_fits.clamp _ _, kU16Nm_fits.clamp _ _, kU16Nm_fits.clamp _ _, kU16Nm_fits.clamp _ _⟩

/-! ## A run -/

/-- The parameters an app is constructed with, if any, are one of the repository's sets. -/
def Env.RepositoryParams (env : Env) : Prop := ∀ P, env.initialParams = some P → ∃ mode, P = paramsFor mode

/-- The parameters in use are one of the repository's sets. -/
theorem App.P_eq_paramsFor {env : Env} (h : env.RepositoryParams) (a : App) : ∃ mode, a.P env = paramsFor mode := by
  unfold App.P
  cases a.params with
  | preset mode => exact ⟨mode, rfl⟩
  | initial =>
      show ∃ mode, env.initialParams.getD (paramsFor defaultEventMode) = paramsFor mode
      cases hinit : env.initialParams with
      | none => exact ⟨defaultEventMode, rfl⟩
      | some P => exact h P hinit

/-- What a tick leaves in the snapshot is in range. -/
theorem App.controlTick_inRange {env : Env} (h : env.RepositoryParams) (a : App) (x : TickInputs) :
    (a.controlTick env x).1.live.InRange ((a.controlTick env x).1.P env).inverter := by
  have hlimit : ∀ P, env.initialParams = some P → 0 ≤ P.inverter.torqueLimitNm := by
    intro P hP
    obtain ⟨mode, rfl⟩ := h P hP
    exact paramsFor_torqueLimit mode
  -- the event sets differ from the defaults in the torque tables only
  have hduty : (a.P env).bse.brakeLightDuty = 0.30 := by
    obtain ⟨mode, hmode⟩ := App.P_eq_paramsFor h a
    obtain ⟨torque, htorque⟩ := paramsFor_eq mode
    rw [hmode, htorque]
    rfl
  refine ⟨?_, ?_, ?_, App.torqueLimit_nonneg hlimit _, ?_⟩
  · rw [App.controlTick_live_pedals]
    exact ⟨le_clamp zero_le_one, clamp_le zero_le_one⟩
  · rw [App.controlTick_live_pedals]
    exact ⟨le_clamp zero_le_one, clamp_le zero_le_one⟩
  · rw [App.controlTick_live_pedals]
    unfold PedalProcessor.update
    dsimp only
    rw [hduty]
    split <;> norm_num
  · rw [App.controlTick_live_torqueCommand]
    exact (App.controlTick_torqueGated hlimit a x).bounded

/-- What a tick queues is among what the builders make of the snapshot it leaves. -/
theorem App.controlTick_sends (env : Env) (a : App) (x : TickInputs) :
    ∀ frame ∈ (a.controlTick env x).2,
      frame ∈ builtFrames (a.controlTick env x).1.live ((a.controlTick env x).1.P env).inverter := by
  intro frame hframe
  have hbuilt : ∀ (b : App), frame ∈ (b.sendCritical env x).2 → frame ∈ builtFrames b.live (b.P env).inverter := by
    intro b hb
    unfold App.sendCritical at hb
    split at hb
    · exact absurd hb List.not_mem_nil
    · obtain ⟨⟨sent, k⟩, hmem, rfl⟩ := List.mem_map.mp hb
      have hsent := List.fst_mem_of_mem_zipIdx (List.mem_filter.mp hmem).1
      unfold App.criticalSends at hsent
      unfold builtFrames
      simp only [List.mem_append, List.mem_cons, List.mem_ite_nil_right, List.not_mem_nil, or_false] at hsent ⊢
      tauto
  -- the sends leave the snapshot and the parameters alone, and so does the publish
  have hkept : ∀ b : App, (b.sendCritical env x).1.live = b.live ∧ (b.sendCritical env x).1.P env = b.P env := by
    intro b
    unfold App.sendCritical
    split
    · exact ⟨rfl, rfl⟩
    · exact ⟨rfl, rfl⟩
  have hpublished : ∀ (b : App) (beats : U32), ({ b.publish x with controlBeats := beats } : App).live = b.live ∧
      ({ b.publish x with controlBeats := beats } : App).P env = b.P env := fun _ _ => ⟨rfl, rfl⟩
  unfold App.controlTick at hframe ⊢
  generalize ((a.command env x).updateStatus x.now).driveOutputs env x = driven at hframe ⊢
  obtain ⟨hlive, hparams⟩ := hkept driven
  obtain ⟨hlive', hparams'⟩ := hpublished (driven.sendCritical env x).1 ((driven.sendCritical env x).1.controlBeats + 1)
  rw [hlive', hparams', hlive, hparams]
  exact hbuilt driven hframe

/-- **The frames of the VCU carry what they are given.** After every tick of every run with the repository's parameters,
    the frames of the snapshot fit their fields, stand for the clamped values to half a step and ask for no more torque
    than their limit; what the tick queues is among them, and the diagnostic frames of any snapshot do the same. -/
theorem frames_encode {env : Env} (h : env.RepositoryParams) (ρ : ℕ → Tick) (n : ℕ) :
    (∀ frame ∈ builtFrames (after env ρ n).live ((after env ρ n).P env).inverter,
      CriticalFrame.Encodes (after env ρ n).live ((after env ρ n).P env).inverter frame) ∧
    (∀ frame ∈ queued env ρ n, frame ∈ builtFrames (after env ρ n).live ((after env ρ n).P env).inverter) ∧
    ∀ (s : ControlSnapshot) (hasBus : Bool), ∀ frame ∈ sendAnalogDiag hasBus s.analog (calibratedValues s),
      DiagFrame.Encodes s.analog (calibratedValues s) frame :=
  ⟨builtFrames_encode (App.controlTick_inRange h _ _), App.controlTick_sends env _ _,
    fun s hasBus => sendAnalogDiag_encodes hasBus s.analog (calibratedValues s)⟩

/-- The environment without parameters of its own. -/
theorem frames_encode_boot : Env.RepositoryParams { pow := fun b _ => b } ∧
    ∀ frame ∈ builtFrames (after { pow := fun b _ => b } torqueRun 0).live
      ((after { pow := fun b _ => b } torqueRun 0).P { pow := fun b _ => b }).inverter,
      CriticalFrame.Encodes (after { pow := fun b _ => b } torqueRun 0).live
        ((after { pow := fun b _ => b } torqueRun 0).P { pow := fun b _ => b }).inverter frame := by
  have hparams : Env.RepositoryParams { pow := fun b _ => b } := fun P hP => nomatch hP
  exact ⟨hparams, (frames_encode hparams torqueRun 0).1⟩

end Lhre.Vcu
