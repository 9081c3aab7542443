import Lhre.CanSpec.Wire

/-!
# `CanSpec.Correctness.DerivedTypes` — the derived type and the values it is for

`proto_type` picks the smallest integer type that holds the shifted raw range of an unscaled signal. It looks at the far end of
the range only for the narrow types: a range that no type of 64 bits holds is given one all the same. A scaled signal is a
real number, and gets a floating type by its width alone.

## Contents
- **Types.** `ProtoScalarType.Holds`, `TypeHolds`.
- **The property.** `DerivedTypeHolds`; its condition is `Fits`.
- **Numbers.** `abs_affine_lt`, `den_eq_one_of_unscaled`.
- **`derived_type_holds`.**
- **A range no type holds.** `not_derived_type_holds`.
-/

namespace Lhre.CanSpec

/-! ## Types -/

/-- A whole number from `lo` to `hi`. -/
def WholeIn (lo hi : ℤ) (x : ℚ) : Prop := ∃ n : ℤ, x = n ∧ lo ≤ n ∧ n ≤ hi

/-- From where on a number is rounded to infinity, as a `float` or as a `double`. -/
def floatOverflow : ℚ := 2 ^ 128 - 2 ^ 103

def doubleOverflow : ℚ := 2 ^ 1024 - 2 ^ 970

/-- The numbers of a proto type: an integer type holds the whole numbers of its range, and a floating one what it rounds to a
finite number. -/
def ProtoScalarType.Holds (x : ℚ) : ProtoScalarType → Prop
  | .int32 => WholeIn (-2 ^ 31) (2 ^ 31 - 1) x
  | .uint32 => WholeIn 0 (2 ^ 32 - 1) x
  | .int64 => WholeIn (-2 ^ 63) (2 ^ 63 - 1) x
  | .uint64 => WholeIn 0 (2 ^ 64 - 1) x
  | .float => |x| < floatOverflow
  | .double => |x| < doubleOverflow
  | .bool => x = 0 ∨ x = 1
  | .unspecified | .string | .bytes => False

/-- The same of the name of a type. -/
def TypeHolds (ptype : String) (x : ℚ) : Prop := ∃ type : ProtoScalarType, scalarType type = some ptype ∧ type.Holds x

theorem typeHolds_iff {ptype : String} {x : ℚ} {type : ProtoScalarType} (h : scalarType type = some ptype) :
    TypeHolds ptype x ↔ type.Holds x := by
  constructor
  · rintro ⟨other, hother, hx⟩
    have heq : scalarType type = scalarType other := h.trans hother.symm
    have hsame : other = type := by
      cases type <;> cases other <;> first | rfl | exact absurd heq (by decide)
    rwa [hsame] at hx
  · exact fun hx => ⟨type, h, hx⟩

/-! ## The property -/

/-- The number a raw value of a signal stands for. -/
def physicalValue (e : Encoding) (raw : ℤ) : ℚ := raw * effectiveScale e + e.offset

/-- A signal without a scale, which `proto_type` gives an integer type. -/
def Unscaled (e : Encoding) : Prop := effectiveScale e = 1 ∧ e.offset.den = 1

instance (e : Encoding) : Decidable (Unscaled e) := inferInstanceAs (Decidable (_ ∧ _))

/-- The derived type of a signal holds every number that a raw value of its range stands for. -/
def DerivedTypeHolds (s : Signal) : Prop :=
  ∃ ptype, protoType s = some ptype ∧
    ∀ raw, (rawRange s.enc).1 ≤ raw → raw ≤ (rawRange s.enc).2 → TypeHolds ptype (physicalValue s.enc raw)

/-- An integer type of 64 bits has room for the shifted range of an unscaled signal: up to 2^64 where it does not go below
zero, between -2^63 and 2^63 where it does. The ends of a scaled one do not overflow. -/
def Fits (e : Encoding) : Prop :=
  if Unscaled e then
    (0 ≤ (rawRange e).1 + e.offset.num → (rawRange e).2 + e.offset.num < 2 ^ 64) ∧
      ((rawRange e).1 + e.offset.num < 0 →
        -2 ^ 63 ≤ (rawRange e).1 + e.offset.num ∧ (rawRange e).2 + e.offset.num < 2 ^ 63)
  else
    |physicalValue e (rawRange e).1| < (if e.bitLength ≤ 24 then floatOverflow else doubleOverflow) ∧
      |physicalValue e (rawRange e).2| < (if e.bitLength ≤ 24 then floatOverflow else doubleOverflow)

/-! ## Numbers -/

theorem rawRange_le (e : Encoding) : (rawRange e).1 ≤ (rawRange e).2 := by
  unfold rawRange
  have hhalf : (1 : ℤ) ≤ 2 ^ (e.bitLength - 1) := one_le_pow₀ (by decide)
  have hfull : (1 : ℤ) ≤ 2 ^ e.bitLength := one_le_pow₀ (by decide)
  cases e.sign with
  | signed =>
      show -(2 : ℤ) ^ (e.bitLength - 1) ≤ 2 ^ (e.bitLength - 1) - 1
      omega
  | unsigned =>
      show (0 : ℤ) ≤ 2 ^ e.bitLength - 1
      omega

/-- A line between two bounds at its ends is between them. -/
theorem abs_affine_lt {m c bound a b x : ℚ} (ha : |a * m + c| < bound) (hb : |b * m + c| < bound) (hax : a ≤ x)
    (hxb : x ≤ b) : |x * m + c| < bound := by
  rw [abs_lt] at ha hb ⊢
  rcases le_total 0 m with hm | hm
  · have hlo : a * m ≤ x * m := mul_le_mul_of_nonneg_right hax hm
    have hhi : x * m ≤ b * m := mul_le_mul_of_nonneg_right hxb hm
    constructor <;> linarith
  · have hlo : x * m ≤ a * m := mul_le_mul_of_nonpos_right hax hm
    have hhi : b * m ≤ x * m := mul_le_mul_of_nonpos_right hxb hm
    constructor <;> linarith

theorem physicalValue_of_unscaled {e : Encoding} (h : Unscaled e) (raw : ℤ) :
    physicalValue e raw = ((raw + e.offset.num : ℤ) : ℚ) := by
  have hoffset : e.offset = e.offset.num := (Rat.den_eq_one_iff _).mp h.2 |>.symm
  unfold physicalValue
  rw [h.1, mul_one, Int.cast_add, ← hoffset]

theorem wholeIn_intCast {lo hi n : ℤ} : WholeIn lo hi (n : ℚ) ↔ lo ≤ n ∧ n ≤ hi := by
  constructor
  · rintro ⟨m, hm, hlo, hhi⟩
    obtain rfl : n = m := Int.cast_injective hm
    exact ⟨hlo, hhi⟩
  · exact fun h => ⟨n, rfl, h⟩

/-- A range of whole numbers, shifted, is in an integer type where its ends are. -/
theorem whole_range {e : Encoding} (h : Unscaled e) {lo hi : ℤ} :
    (∀ raw, (rawRange e).1 ≤ raw → raw ≤ (rawRange e).2 → WholeIn lo hi (physicalValue e raw)) ↔
      lo ≤ (rawRange e).1 + e.offset.num ∧ (rawRange e).2 + e.offset.num ≤ hi := by
  simp only [physicalValue_of_unscaled h, wholeIn_intCast]
  constructor
  · intro hall
    exact ⟨(hall _ le_rfl (rawRange_le e)).1, (hall _ (rawRange_le e) le_rfl).2⟩
  · rintro ⟨hlo, hhi⟩ raw hfrom hto
    omega

/-- A range of scaled numbers does not overflow where its ends do not. -/
theorem real_range {e : Encoding} {bound : ℚ} :
    (∀ raw, (rawRange e).1 ≤ raw → raw ≤ (rawRange e).2 → |physicalValue e raw| < bound) ↔
      |physicalValue e (rawRange e).1| < bound ∧ |physicalValue e (rawRange e).2| < bound := by
  constructor
  · intro hall
    exact ⟨hall _ le_rfl (rawRange_le e), hall _ (rawRange_le e) le_rfl⟩
  · rintro ⟨hlo, hhi⟩ raw hfrom hto
    exact abs_affine_lt hlo hhi (by exact_mod_cast hfrom) (by exact_mod_cast hto)

/-! ## The type of a number -/

theorem numberType_of_unscaled {e : Encoding} (h : Unscaled e) : numberType e =
    if 0 ≤ (rawRange e).1 + e.offset.num then
      if (rawRange e).2 + e.offset.num ≤ 0xFFFFFFFF then "uint32" else "uint64"
    else if -2 ^ 31 ≤ (rawRange e).1 + e.offset.num ∧ (rawRange e).2 + e.offset.num ≤ 2 ^ 31 - 1 then "int32"
    else "int64" := if_pos h

theorem numberType_of_scaled {e : Encoding} (h : ¬ Unscaled e) :
    numberType e = if e.bitLength ≤ 24 then "float" else "double" := if_neg h

/-- **The derived type of a number** holds its values exactly where they fit. -/
theorem numberType_holds (e : Encoding) :
    (∀ raw, (rawRange e).1 ≤ raw → raw ≤ (rawRange e).2 → TypeHolds (numberType e) (physicalValue e raw)) ↔ Fits e := by
  have hle := rawRange_le e
  unfold Fits
  by_cases hunscaled : Unscaled e
  · rw [numberType_of_unscaled hunscaled, if_pos hunscaled]
    -- a range from zero on is given an unsigned type; only the choice of the narrow one looks at its end
    by_cases hsigned : 0 ≤ (rawRange e).1 + e.offset.num
    · rw [if_pos hsigned]
      by_cases hnarrow : (rawRange e).2 + e.offset.num ≤ 0xFFFFFFFF
      · rw [if_pos hnarrow]
        simp only [typeHolds_iff (show scalarType .uint32 = some "uint32" from rfl), ProtoScalarType.Holds, whole_range hunscaled]
        omega
      · rw [if_neg hnarrow]
        simp only [typeHolds_iff (show scalarType .uint64 = some "uint64" from rfl), ProtoScalarType.Holds, whole_range hunscaled]
        omega
    · rw [if_neg hsigned]
      by_cases hnarrow : -2 ^ 31 ≤ (rawRange e).1 + e.offset.num ∧ (rawRange e).2 + e.offset.num ≤ 2 ^ 31 - 1
      · rw [if_pos hnarrow]
        simp only [typeHolds_iff (show scalarType .int32 = some "int32" from rfl), ProtoScalarType.Holds, whole_range hunscaled]
        omega
      · rw [if_neg hnarrow]
        simp only [typeHolds_iff (show scalarType .int64 = some "int64" from rfl), ProtoScalarType.Holds, whole_range hunscaled]
        omega
  · rw [numberType_of_scaled hunscaled, if_neg hunscaled]
    by_cases hnarrow : e.bitLength ≤ 24
    · simp only [if_pos hnarrow, typeHolds_iff (show scalarType .float = some "float" from rfl), ProtoScalarType.Holds, real_range]
    · simp only [if_neg hnarrow, typeHolds_iff (show scalarType .double = some "double" from rfl), ProtoScalarType.Holds, real_range]

/-- **The derived type of a number holds its values** exactly where they fit. -/
theorem derived_type_holds {s : Signal} {unit : String} (hkind : s.kind = some (.physical unit)) :
    DerivedTypeHolds s ↔ Fits s.enc := by
  have htype : protoType s = some (numberType s.enc) := by
    unfold protoType
    rw [hkind]
  rw [← numberType_holds]
  constructor
  · rintro ⟨ptype, hptype, hall⟩
    obtain rfl := Option.some.inj (htype.symm.trans hptype)
    exact hall
  · exact fun hall => ⟨_, htype, hall⟩

/-! ## A range no type holds -/

/-- A counter in all 64 bits of a frame, which starts at -1. -/
def counterSignal : Signal where
  name := "counter"
  encoding := some { startBit := 0, bitLength := 64, sign := .unsigned, scale := 1, offset := -1 }
  logical := some { kind := some (.physical "") }
  telemetry := some { group := "Dynamics", field := "counter", id := 1 }

def counterMessage : CanMessage where
  name := "VCU_COUNTER"
  canId := 0x100
  fromBoard := "VCU"
  bus := "Critical"
  dlc := 8
  signal := [counterSignal]

def counterSpec : Spec where
  files :=
    [("lib/spec/buses.textproto", { bus := [{ name := "Critical", bitrateBps := 1000000 }] }),
      ("lib/spec/groups.textproto", { group := [{ name := "Dynamics", nextFreeId := 2, snapshotId := 3 }] }),
      ("lib/spec/messages/vcu.textproto", { message := [counterMessage] })]
  nodup := by simp

/-- A wheel speed of 16 bits in hundredths is a `float`. -/
theorem derived_type_holds_wheel :
    DerivedTypeHolds { logical := some { kind := some (.physical "") }, encoding := some { bitLength := 16, scale := 1 / 100 } } ↔
      Fits { bitLength := 16, scale := 1 / 100 } :=
  derived_type_holds (show Signal.kind _ = some (.physical "") from rfl)

/-- **The validator accepts a counter of 64 bits that starts at -1**; its type is `int64`, which does not reach its end. -/
theorem not_derived_type_holds : ¬ ∀ spec : Spec, spec.Valid → ∀ fm ∈ spec.messages, ∀ s ∈ fm.2.signal, ∀ unit,
    s.kind = some (.physical unit) → DerivedTypeHolds s := by
  intro hall
  have hvalid : counterSpec.Valid := by decide +kernel
  have hholds := hall counterSpec hvalid ("lib/spec/messages/vcu.textproto", counterMessage) List.mem_cons_self counterSignal
    List.mem_cons_self "" rfl
  obtain ⟨ptype, hptype, hvalues⟩ := hholds
  have htype : protoType counterSignal = some "int64" := by decide
  obtain rfl : "int64" = ptype := Option.some.inj (htype.symm.trans hptype)
  have hrange : rawRange counterSignal.enc = (0, 2 ^ 64 - 1) := rfl
  -- all 64 bits set stand for 2^64 - 2, past the end of `int64`
  have hlast := hvalues (2 ^ 64 - 1) (by rw [hrange]; norm_num) (by rw [hrange])
  rw [typeHolds_iff (show scalarType .int64 = some "int64" from rfl)] at hlast
  obtain ⟨n, hn, -, hle⟩ := hlast
  have hvalue : physicalValue counterSignal.enc (2 ^ 64 - 1) = ((2 ^ 64 - 2 : ℤ) : ℚ) := by
    unfold physicalValue counterSignal Signal.enc effectiveScale
    norm_num
  rw [hvalue, Int.cast_inj] at hn
  omega

end Lhre.CanSpec
