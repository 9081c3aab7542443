import Mathlib.Tactic

/-!
# `Theory.BitLayout` — where the bits of a value lie in a byte buffer

Bit `p` of a buffer is bit `p % 8` of byte `p / 8`. A field of a frame starts at some bit and takes one bit after the
other: upwards through the buffer, or, in Motorola order, downwards within each byte and on to the top bit of the next.
Mirroring the bits of every byte turns the second walk into the first, so both are a translation in the right numbering.

## Contents
- **Numbering.** `bitAt`, `mirror`, and `position`, the bit a walk reaches after `k` steps; `advance` is one step.
- **Fields.** `place`, where a bit of the value lies; no two bits share a place (`place_inj`).
- **Writing.** `orBit`, and the bits of a buffer after it.
- **Bytes.** `byte_ext`: bytes are equal when their bits are.
-/

namespace BitLayout

/-! ## Numbering -/

/-- A bit of a buffer. -/
def bitAt (m : ℕ → BitVec 8) (p : ℕ) : Bool := (m (p / 8)).getLsbD (p % 8)

/-- The same byte with its bits numbered from the other end. -/
def mirror (p : ℕ) : ℕ := p / 8 * 8 + (7 - p % 8)

@[simp] theorem mirror_div (p : ℕ) : mirror p / 8 = p / 8 := by
  unfold mirror
  omega

@[simp] theorem mirror_mod (p : ℕ) : mirror p % 8 = 7 - p % 8 := by
  unfold mirror
  omega

@[simp] theorem mirror_mirror (p : ℕ) : mirror (mirror p) = p := by
  unfold mirror
  omega

theorem mirror_inj {p q : ℕ} (h : mirror p = mirror q) : p = q := by
  rw [← mirror_mirror p, h, mirror_mirror]

/-- The bit a walk from `start` reaches after `k` steps. -/
def position (big : Bool) (start k : ℕ) : ℕ := if big then mirror (mirror start + k) else start + k

@[simp] theorem position_zero (big : Bool) (start : ℕ) : position big start 0 = start := by
  cases big <;> simp [position]

theorem position_little (start k : ℕ) : position false start k = start + k := by
  simp [position]

/-- **A walk never comes back.** -/
theorem position_inj {big : Bool} {start k l : ℕ} (h : position big start k = position big start l) : k = l := by
  cases big with
  | false =>
      simp only [position_little] at h
      omega
  | true =>
      have h' : mirror start + k = mirror start + l := mirror_inj h
      omega

/-- One step of a walk, on the byte and the bit in it. -/
def advance (big : Bool) (byte bit : ℕ) : ℕ × ℕ :=
  if big then if bit = 0 then (byte + 1, 7) else (byte, bit - 1)
  else if bit = 7 then (byte + 1, 0) else (byte, bit + 1)

/-- **A step of the walk is a step along its positions.** -/
theorem advance_position (big : Bool) (start k : ℕ) :
    advance big (position big start k / 8) (position big start k % 8) =
      (position big start (k + 1) / 8, position big start (k + 1) % 8) := by
  cases big with
  | false =>
      simp only [advance, position_little, Bool.false_eq_true, if_false]
      by_cases h : (start + k) % 8 = 7
      · rw [if_pos h, Prod.mk.injEq]
        omega
      · rw [if_neg h, Prod.mk.injEq]
        omega
  | true =>
      simp only [advance, position, if_true, mirror_div, mirror_mod]
      by_cases h : 7 - (mirror start + k) % 8 = 0
      · rw [if_pos h, Prod.mk.injEq]
        omega
      · rw [if_neg h, Prod.mk.injEq]
        omega

/-! ## Fields -/

/-- Where bit `j` of a value of `length` bits lies: the walk meets the value's low bit first, or its high bit first. -/
def place (big : Bool) (start length j : ℕ) : ℕ := position big start (if big then length - 1 - j else j)

theorem place_little (start length j : ℕ) : place false start length j = start + j := by
  simp [place, position]

/-- The walk of a big-endian field meets the bits of its value from the top. -/
theorem place_big {start length k : ℕ} (hk : k < length) :
    place true start length (length - 1 - k) = position true start k := by
  simp only [place, if_true]
  congr 1
  omega

/-- **No two bits share a place.** -/
theorem place_inj {big : Bool} {start length j k : ℕ} (hj : j < length) (hk : k < length)
    (h : place big start length j = place big start length k) : j = k := by
  have h' := position_inj h
  cases big with
  | false => simpa using h'
  | true =>
      simp only [if_true] at h'
      omega

/-- The places of a field are the positions of its walk. -/
theorem exists_place_iff {big : Bool} {start length p : ℕ} :
    (∃ j, j < length ∧ place big start length j = p) ↔ ∃ k, k < length ∧ position big start k = p := by
  cases big with
  | false => rfl
  | true =>
      constructor
      · rintro ⟨j, hj, rfl⟩
        exact ⟨length - 1 - j, by omega, rfl⟩
      · rintro ⟨k, hk, rfl⟩
        exact ⟨length - 1 - k, by omega, place_big hk⟩

/-! ## Writing -/

/-- The buffer with one bit set. -/
def orBit (m : ℕ → BitVec 8) (byte bit : ℕ) : ℕ → BitVec 8 :=
  fun i => if i = byte then m i ||| (1#8 <<< bit) else m i

/-- **Setting a bit sets that bit alone.** -/
theorem bitAt_orBit (m : ℕ → BitVec 8) (p q : ℕ) :
    bitAt (orBit m (p / 8) (p % 8)) q = (bitAt m q || decide (q = p)) := by
  unfold bitAt orBit
  have hp : p % 8 < 8 := Nat.mod_lt p (by decide)
  have hq : q % 8 < 8 := Nat.mod_lt q (by decide)
  -- the bit set is in the byte of `p`; another bit of that byte, and another byte, stay
  by_cases hbyte : q / 8 = p / 8
  · rw [if_pos hbyte, BitVec.getLsbD_or, hbyte]
    congr 1
    rw [BitVec.getLsbD_shiftLeft, BitVec.getLsbD_one]
    by_cases hbit : q % 8 = p % 8
    · have hqp : q = p := by omega
      simp [hqp, hp]
    · have hqp : q ≠ p := by
        rintro rfl
        exact hbit rfl
      by_cases hlt : q % 8 < p % 8
      · simp [hqp, hlt]
      · have hsub : q % 8 - p % 8 ≠ 0 := by omega
        simp [hqp, hsub]
  · have hqp : q ≠ p := by
      rintro rfl
      exact hbyte rfl
    rw [if_neg hbyte]
    simp [hqp]

/-! ## Bytes -/

/-- Bytes with the same bits are the same. -/
theorem byte_ext {m m' : ℕ → BitVec 8} {b : ℕ} (h : ∀ p, p / 8 = b → bitAt m p = bitAt m' p) : m b = m' b := by
  apply BitVec.eq_of_getLsbD_eq
  intro i hi
  have hbit := h (b * 8 + i) (by omega)
  unfold bitAt at hbit
  have hdiv : (b * 8 + i) / 8 = b := by omega
  have hmod : (b * 8 + i) % 8 = i := by omega
  rw [hdiv, hmod] at hbit
  exact hbit

end BitLayout
