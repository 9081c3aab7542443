import Lhre.Can.VcuMessages
import Lhre.CanSpec.Validator

/-!
# `Can.VcuEncodings` — how the scaled signals of the VCU sit in their frames

The encodings of the scaled physical signals in `lib/spec/messages/vcu.textproto` that the VCU sets, by message, and the
messages of its analog diagnostics on the Data bus. Only a scaled signal has a setter; the others are plain integers.
-/

namespace Lhre.Can

open CanSpec (Encoding)

/-- A signal of `bits` bits from `start` on, in steps of `scale`. -/
def unsignedAt (start bits : ℕ) (scale : ℚ) : Encoding := { startBit := start, bitLength := bits, scale := scale }

/-- The same in two's complement. -/
def signedAt (start bits : ℕ) (scale : ℚ) : Encoding := { unsignedAt start bits scale with sign := .signed }

/-! ## The Critical bus -/

namespace InverterTorqueCommand

def torqueRequestEnc : Encoding := signedAt 0 16 0.1
def torqueLimitEnc : Encoding := signedAt 48 16 0.1

/-- `torque_limit()`. -/
def torqueLimit (m : InverterTorqueCommand) : ℚ := physical m.torqueLimitRaw 0.1

end InverterTorqueCommand

namespace AppsVoltages

def apps1VoltageEnc : Encoding := unsignedAt 0 16 0.0001
def apps2VoltageEnc : Encoding := unsignedAt 16 16 0.0001
def apps1TravelEnc : Encoding := unsignedAt 32 16 0.0001
def apps2TravelEnc : Encoding := unsignedAt 48 16 0.0001

end AppsVoltages

def AcceleratorPedal.acceleratorPedalTravelEnc : Encoding := unsignedAt 0 16 0.0001

def BrakePedal.brakeLightPercentEnc : Encoding := unsignedAt 24 16 0.001

namespace BseVoltages

def bseFrontVoltageEnc : Encoding := unsignedAt 0 16 0.0001
def bseRearVoltageEnc : Encoding := unsignedAt 16 16 0.0001

end BseVoltages

namespace Brakes

def brakePressureFrontEnc : Encoding := unsignedAt 0 16 0.05
def brakePressureRearPreLockEnc : Encoding := unsignedAt 16 16 0.05
def brakePressureRearPostLockEnc : Encoding := unsignedAt 32 16 0.05
def brakeBiasEnc : Encoding := unsignedAt 48 8 0.01

end Brakes

def SteeringColumn.steeringColumnAngleEnc : Encoding := signedAt 0 16 0.004

def VcuState.stateOfChargeEstimateEnc : Encoding := unsignedAt 24 16 0.1

namespace EnergyEstimate

def netEnergyEnc : Encoding := unsignedAt 0 32 0.001
def regenEnergyEnc : Encoding := unsignedAt 32 32 0.001

end EnergyEstimate

namespace TorquePath

def torqueLookupEnc : Encoding := unsignedAt 0 16 0.1
def torqueDeratedEnc : Encoding := unsignedAt 16 16 0.1
def torquePowerLimitedEnc : Encoding := unsignedAt 32 16 0.1
def torqueTractionControlledEnc : Encoding := unsignedAt 48 16 0.1

end TorquePath

/-! ## The Data bus -/

/-- `VCU_ADC_COUNTS_A`. -/
structure VcuAdcCountsA where
  apps1 : U16 := 0
  apps2 : U16 := 0
  bse1 : U16 := 0
  bse2 : U16 := 0
deriving DecidableEq

/-- `VCU_ADC_COUNTS_B`. -/
structure VcuAdcCountsB where
  steering : U16 := 0
  shutdownIn : U16 := 0
  shutdownOut : U16 := 0
  vrefint : U16 := 0
deriving DecidableEq

/-- `VCU_ADC_VOLTS_A`. -/
structure VcuAdcVoltsA where
  apps1Raw : ℤ := 0
  apps2Raw : ℤ := 0
  bse1Raw : ℤ := 0
  bse2Raw : ℤ := 0
deriving DecidableEq

namespace VcuAdcVoltsA

def apps1Enc : Encoding := unsignedAt 0 16 0.0001
def apps2Enc : Encoding := unsignedAt 16 16 0.0001
def bse1Enc : Encoding := unsignedAt 32 16 0.0001
def bse2Enc : Encoding := unsignedAt 48 16 0.0001

end VcuAdcVoltsA

/-- `VCU_ADC_VOLTS_B`. -/
structure VcuAdcVoltsB where
  steeringRaw : ℤ := 0
  shutdownInLoopRaw : ℤ := 0
  shutdownOutLoopRaw : ℤ := 0
  vddaRaw : ℤ := 0
deriving DecidableEq

namespace VcuAdcVoltsB

def steeringEnc : Encoding := unsignedAt 0 16 0.0001
def shutdownInLoopEnc : Encoding := unsignedAt 16 16 0.01
def shutdownOutLoopEnc : Encoding := unsignedAt 32 16 0.01
def vddaEnc : Encoding := unsignedAt 48 16 0.0001

end VcuAdcVoltsB

/-- `VCU_CALIBRATED_A`. -/
structure VcuCalibratedA where
  apps1TravelRaw : ℤ := 0
  apps2TravelRaw : ℤ := 0
  bse1PressureRaw : ℤ := 0
  bse2PressureRaw : ℤ := 0
deriving DecidableEq

namespace VcuCalibratedA

def apps1TravelEnc : Encoding := signedAt 0 16 0.0001
def apps2TravelEnc : Encoding := signedAt 16 16 0.0001
def bse1PressureEnc : Encoding := signedAt 32 16 0.1
def bse2PressureEnc : Encoding := signedAt 48 16 0.1

end VcuCalibratedA

/-- `VCU_CALIBRATED_B`. -/
structure VcuCalibratedB where
  steeringAngleRaw : ℤ := 0
  steeringTravelRaw : ℤ := 0
deriving DecidableEq

namespace VcuCalibratedB

def steeringAngleEnc : Encoding := signedAt 0 16 0.004
def steeringTravelEnc : Encoding := signedAt 16 16 0.0001

end VcuCalibratedB

/-- A frame of the analog diagnostics, before packing. -/
inductive DiagFrame
  | vcuAdcCountsA (m : VcuAdcCountsA)
  | vcuAdcCountsB (m : VcuAdcCountsB)
  | vcuAdcVoltsA (m : VcuAdcVoltsA)
  | vcuAdcVoltsB (m : VcuAdcVoltsB)
  | vcuCalibratedA (m : VcuCalibratedA)
  | vcuCalibratedB (m : VcuCalibratedB)
deriving DecidableEq

end Lhre.Can
