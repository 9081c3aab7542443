import Lhre.Drivers.System
import Lhre.Drivers.Math
import Lhre.Theory.BitLayout

/-!
# `Can.Codec` — reading and writing signals in the generated CAN library

The bit walks `Insert` and `Extract` and the helper `SignExtend` the generator emits into every board's source
(`lib/codegen/cpp/gen_can_lib.py`), and the two conversions between a raw field and its physical value.
-/

namespace Lhre.Can

open Longhorn

/-- One pass of the loop of `Extract`: `r` bits are left, the walk stands at bit `bit` of byte `byte`, and
    `i` bits have been read into `value`. -/
def extractLoop (src : ℕ → U8) (bitLength : ℕ) (bigEndian : Bool) :
    (r i byte bit : ℕ) → U64 → U64
  | 0, _, _, _, value => value
  | r + 1, i, byte, bit, value =>
      -- walk from the value's MSB for big-endian, LSB for little-endian
      let valueBit := if bigEndian then bitLength - 1 - i else i
      let value := if (src byte).getLsbD bit then value ||| (1#64 <<< valueBit) else value
      if bigEndian then
        if bit = 0 then extractLoop src bitLength bigEndian r (i + 1) (byte + 1) 7 value
        else extractLoop src bitLength bigEndian r (i + 1) byte (bit - 1) value
      else
        if bit = 7 then extractLoop src bitLength bigEndian r (i + 1) (byte + 1) 0 value
        else extractLoop src bitLength bigEndian r (i + 1) byte (bit + 1) value

/-- `Extract`: the unsigned value of the signal at `startBit`. -/
def extract (src : ℕ → U8) (startBit bitLength : ℕ) (bigEndian : Bool) : U64 :=
  extractLoop src bitLength bigEndian bitLength 0 (startBit / 8) (startBit % 8) 0

/-- One pass of the loop of `Insert`, which walks like that of `Extract`. -/
def insertLoop (value : U64) (bitLength : ℕ) (bigEndian : Bool) :
    (r i byte bit : ℕ) → (ℕ → U8) → ℕ → U8
  | 0, _, _, _, dst => dst
  | r + 1, i, byte, bit, dst =>
      let valueBit := if bigEndian then bitLength - 1 - i else i
      let dst := if value.getLsbD valueBit then BitLayout.orBit dst byte bit else dst
      if bigEndian then
        if bit = 0 then insertLoop value bitLength bigEndian r (i + 1) (byte + 1) 7 dst
        else insertLoop value bitLength bigEndian r (i + 1) byte (bit - 1) dst
      else
        if bit = 7 then insertLoop value bitLength bigEndian r (i + 1) (byte + 1) 0 dst
        else insertLoop value bitLength bigEndian r (i + 1) byte (bit + 1) dst

/-- `Insert`: the low `bitLength` bits of `value` are set in the buffer; no bit is cleared. -/
def insert (dst : ℕ → U8) (startBit bitLength : ℕ) (value : U64) (bigEndian : Bool) : ℕ → U8 :=
  insertLoop value bitLength bigEndian bitLength 0 (startBit / 8) (startBit % 8) dst

/-- `SignExtend`. -/
def signExtend (value : U64) (bitLength : ℕ) : U64 :=
  let signBit := 1#64 <<< (bitLength - 1)
  (value ^^^ signBit) - signBit

/-- The `float` accessor of a scaled physical signal. -/
def physical (raw : ℤ) (scale : ℚ) : ℚ := (raw : ℚ) * scale

/-- The setter of a scaled physical signal: the raw field nearest to `value / scale`. -/
def setRaw (value scale : ℚ) : ℤ :=
  let scaled := value / scale
  truncToInt (if 0 ≤ scaled then scaled + 1 / 2 else scaled - 1 / 2)

/-- The setter as one expression. -/
theorem setRaw_eq (value scale : ℚ) : setRaw value scale =
    truncToInt (if 0 ≤ value / scale then value / scale + 1 / 2 else value / scale - 1 / 2) := rfl

@[simp] theorem setRaw_zero (scale : ℚ) : setRaw 0 scale = 0 := by
  rw [setRaw_eq, zero_div, if_pos (le_refl 0), truncToInt_of_nonneg (by norm_num)]
  norm_num

/-- **The setter rounds to the nearest raw value.** -/
theorem abs_physical_setRaw_sub_le {value scale : ℚ} (h : 0 < scale) :
    |physical (setRaw value scale) scale - value| ≤ scale / 2 := by
  obtain ⟨scaled, rfl⟩ : ∃ q, value = q * scale := ⟨value / scale, (div_mul_cancel₀ value h.ne').symm⟩
  have hraw : |((setRaw (scaled * scale) scale : ℤ) : ℚ) - scaled| ≤ 1 / 2 := by
    rw [setRaw_eq, mul_div_cancel_right₀ scaled h.ne']
    by_cases hs : 0 ≤ scaled
    · rw [if_pos hs, truncToInt_of_nonneg (by linarith), abs_le]
      have h1 := Int.floor_le (scaled + 1 / 2)
      have h2 := Int.lt_floor_add_one (scaled + 1 / 2)
      constructor <;> linarith
    · rw [if_neg hs, truncToInt_of_neg (by linarith), abs_le, Int.cast_neg]
      have h1 := Int.floor_le (-(scaled - 1 / 2))
      have h2 := Int.lt_floor_add_one (-(scaled - 1 / 2))
      constructor <;> linarith
  unfold physical
  rw [← sub_mul, abs_mul, abs_of_pos h]
  calc _ ≤ 1 / 2 * scale := mul_le_mul_of_nonneg_right hraw h.le
    _ = scale / 2 := by ring

end Lhre.Can
