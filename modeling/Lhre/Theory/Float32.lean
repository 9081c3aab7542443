import Mathlib.Tactic
import Mathlib.Data.Int.Log

/-!
# `Theory.Float32` — 32-bit floats as words

A word stands for a sign, a significand and an exponent, or for no finite number. A rational is stored as the nearest
float, ties to even; the sign of zero is not kept.

## Contents
- **Words.** `value`, and `value_parts`: the word of a sign, an exponent and a significand.
- **Rounding.** `roundEven`, `encode`.
- **Exactness.** `value_encode`: a number that is a float is stored as itself.
-/

namespace Float32

/-! ## Words -/

/-- The number a word stands for, where it is finite. -/
def value (bits : ℕ) : Option ℚ :=
  let exponent : ℕ := bits / 2 ^ 23 % 256
  let fraction : ℕ := bits % 2 ^ 23
  let sign : ℚ := if bits / 2 ^ 31 % 2 = 1 then -1 else 1
  if exponent = 255 then none
  else if exponent = 0 then some (sign * (fraction : ℚ) * 2 ^ (-149 : ℤ))
  else some (sign * (((2 ^ 23 + fraction : ℕ)) : ℚ) * 2 ^ ((exponent : ℤ) - 150))

/-- A significand and an exponent of a finite float: normal, or with the least exponent. -/
def IsParts (e m : ℕ) : Prop := 1 ≤ e ∧ e ≤ 254 ∧ m < 2 ^ 24 ∧ (2 ^ 23 ≤ m ∨ e = 1)

/-- The magnitude of a significand and an exponent. -/
def magnitude (e m : ℕ) : ℚ := (m : ℚ) * 2 ^ ((e : ℤ) - 150)

/-- **The word of a sign and parts.** -/
theorem value_parts {e m s : ℕ} (h : IsParts e m) (hs : s < 2) :
    value (s * 2 ^ 31 + ((e - 1) * 2 ^ 23 + m)) = some ((if s = 1 then -1 else 1) * magnitude e m) := by
  obtain ⟨he, he', hm, hnormal⟩ := h
  have hsign : (s * 2 ^ 31 + ((e - 1) * 2 ^ 23 + m)) / 2 ^ 31 % 2 = s := by omega
  unfold value magnitude
  dsimp only
  rw [hsign]
  by_cases hlow : m < 2 ^ 23
  · -- A subnormal number.
    have he1 : e = 1 := hnormal.resolve_left (not_le.mpr hlow)
    subst he1
    have hexponent : (s * 2 ^ 31 + ((1 - 1) * 2 ^ 23 + m)) / 2 ^ 23 % 256 = 0 := by omega
    have hfraction : (s * 2 ^ 31 + ((1 - 1) * 2 ^ 23 + m)) % 2 ^ 23 = m := by omega
    rw [hexponent, hfraction, if_neg (by decide), if_pos rfl, mul_assoc]
    norm_num
  · have hexponent : (s * 2 ^ 31 + ((e - 1) * 2 ^ 23 + m)) / 2 ^ 23 % 256 = e := by omega
    have hfraction : (s * 2 ^ 31 + ((e - 1) * 2 ^ 23 + m)) % 2 ^ 23 = m - 2 ^ 23 := by omega
    have hfull : 2 ^ 23 + (m - 2 ^ 23) = m := by omega
    rw [hexponent, hfraction, if_neg (by omega), if_neg (by omega), hfull, mul_assoc]

/-- A finite number has a sign and parts. -/
theorem parts_of_value {bits : ℕ} {v : ℚ} (h : value bits = some v) :
    ∃ s e m, s < 2 ∧ IsParts e m ∧ v = (if s = 1 then -1 else 1) * magnitude e m := by
  unfold value at h
  have hexp : bits / 2 ^ 23 % 256 < 256 := Nat.mod_lt _ (by decide)
  have hfrac : bits % 2 ^ 23 < 2 ^ 23 := Nat.mod_lt _ (by decide)
  have hbit : bits / 2 ^ 31 % 2 < 2 := Nat.mod_lt _ (by decide)
  dsimp only at h
  by_cases hfinite : bits / 2 ^ 23 % 256 = 255
  · rw [if_pos hfinite] at h
    exact nomatch h
  · rw [if_neg hfinite] at h
    by_cases hleast : bits / 2 ^ 23 % 256 = 0
    · rw [if_pos hleast] at h
      obtain rfl := Option.some.inj h
      refine ⟨bits / 2 ^ 31 % 2, 1, bits % 2 ^ 23, hbit, ⟨le_rfl, by decide, by omega, Or.inr rfl⟩, ?_⟩
      rw [magnitude, mul_assoc]
      norm_num
    · rw [if_neg hleast] at h
      obtain rfl := Option.some.inj h
      refine ⟨bits / 2 ^ 31 % 2, bits / 2 ^ 23 % 256, 2 ^ 23 + bits % 2 ^ 23, hbit,
        ⟨by omega, by omega, by omega, Or.inl (by omega)⟩, ?_⟩
      rw [magnitude, mul_assoc]

/-! ## Rounding -/

/-- The nearest natural number, ties to even. -/
def roundEven (q : ℚ) : ℕ :=
  let f := ⌊q⌋.toNat
  if q - f < 1 / 2 then f else if 1 / 2 < q - f then f + 1 else if f % 2 = 0 then f else f + 1

theorem roundEven_natCast (n : ℕ) : roundEven n = n := by
  have hfloor : ⌊(n : ℚ)⌋.toNat = n := by
    rw [Int.floor_natCast]
    rfl
  unfold roundEven
  dsimp only
  rw [hfloor, sub_self, if_pos (by norm_num)]

/-- The word of the float nearest to a number. -/
def encode (v : ℚ) : ℕ :=
  if v = 0 then 0
  else
    let e := max (Int.log 2 |v|) (-126)
    let m := roundEven (|v| / 2 ^ (e - 23))
    -- a significand that rounds up to the next power of two carries into the exponent
    (if v < 0 then 2 ^ 31 else 0) + min ((e + 126).toNat * 2 ^ 23 + m) (255 * 2 ^ 23)

theorem encode_lt (v : ℚ) : encode v < 2 ^ 32 := by
  unfold encode
  split
  · decide
  · dsimp only
    have hmagnitude (n : ℕ) : min n (255 * 2 ^ 23) ≤ 255 * 2 ^ 23 := min_le_right _ _
    split
    · exact lt_of_le_of_lt (Nat.add_le_add_left (hmagnitude _) _) (by decide)
    · exact lt_of_le_of_lt (Nat.add_le_add_left (hmagnitude _) _) (by decide)

/-! ## Exactness -/

/-- The exponent of a magnitude. -/
theorem log_magnitude {e m : ℕ} (h : IsParts e m) (hm : 0 < m) : max (Int.log 2 (magnitude e m)) (-126) = (e : ℤ) - 127 := by
  obtain ⟨he, -, hlt, hnormal⟩ := h
  have hpos : 0 < magnitude e m := by
    unfold magnitude
    positivity
  have hpow : ∀ k : ℤ, ((2 : ℕ) : ℚ) ^ k = (2 : ℚ) ^ k := fun k => by norm_num
  have hupper : magnitude e m < 2 ^ ((e : ℤ) - 126) := by
    have hm' : (m : ℚ) < 2 ^ (24 : ℤ) := by exact_mod_cast hlt
    calc magnitude e m = (m : ℚ) * 2 ^ ((e : ℤ) - 150) := rfl
      _ < 2 ^ (24 : ℤ) * 2 ^ ((e : ℤ) - 150) := by gcongr
      _ = 2 ^ ((e : ℤ) - 126) := by
        rw [← zpow_add₀ (by norm_num)]
        congr 1
        ring
  have hlogUpper : Int.log 2 (magnitude e m) < (e : ℤ) - 126 := by
    refine (Int.lt_zpow_iff_log_lt (by decide) hpos).mp ?_
    rw [hpow]
    exact hupper
  rcases hnormal with hfull | he1
  · have hlower : (2 : ℚ) ^ ((e : ℤ) - 127) ≤ magnitude e m := by
      have hm' : (2 : ℚ) ^ (23 : ℤ) ≤ m := by exact_mod_cast hfull
      calc (2 : ℚ) ^ ((e : ℤ) - 127) = 2 ^ (23 : ℤ) * 2 ^ ((e : ℤ) - 150) := by
            rw [← zpow_add₀ (by norm_num)]
            congr 1
            ring
        _ ≤ (m : ℚ) * 2 ^ ((e : ℤ) - 150) := by gcongr
    have hlogLower : (e : ℤ) - 127 ≤ Int.log 2 (magnitude e m) := by
      refine (Int.zpow_le_iff_le_log (by decide) hpos).mp ?_
      rw [hpow]
      exact hlower
    omega
  · subst he1
    omega

/-- **A number that is a float is stored as itself.** -/
theorem value_encode {bits : ℕ} {v : ℚ} (h : value bits = some v) : value (encode v) = some v := by
  obtain ⟨s, e, m, hs, hparts, rfl⟩ := parts_of_value h
  by_cases hm : m = 0
  · subst hm
    have hzero : (if s = 1 then (-1 : ℚ) else 1) * magnitude e 0 = 0 := by
      rw [magnitude, Nat.cast_zero, zero_mul, mul_zero]
    have hvalue : value 0 = some 0 := by norm_num [value]
    rw [hzero, encode, if_pos rfl]
    exact hvalue
  · have hpos : 0 < magnitude e m := by
      have : 0 < m := Nat.pos_of_ne_zero hm
      unfold magnitude
      positivity
    have habs : |(if s = 1 then (-1 : ℚ) else 1) * magnitude e m| = magnitude e m := by
      split
      · rw [neg_one_mul, abs_neg, abs_of_pos hpos]
      · rw [one_mul, abs_of_pos hpos]
    have hneg : ((if s = 1 then (-1 : ℚ) else 1) * magnitude e m < 0) ↔ s = 1 := by
      split
      · rename_i h1
        simp [h1, hpos]
      · rename_i h1
        simp [h1, hpos.le]
    have hne : (if s = 1 then (-1 : ℚ) else 1) * magnitude e m ≠ 0 := by
      rw [← abs_pos, habs]
      exact hpos
    have hscaled : magnitude e m / 2 ^ ((e : ℤ) - 127 - 23) = (m : ℚ) := by
      have hexp : (e : ℤ) - 127 - 23 = (e : ℤ) - 150 := by ring
      rw [hexp, magnitude, mul_div_cancel_right₀]
      positivity
    obtain ⟨he, he', hlt, -⟩ := id hparts
    have hfield : ((e : ℤ) - 127 + 126).toNat = e - 1 := by omega
    have hword : encode ((if s = 1 then (-1 : ℚ) else 1) * magnitude e m) = s * 2 ^ 31 + ((e - 1) * 2 ^ 23 + m) := by
      unfold encode
      rw [if_neg hne]
      dsimp only
      rw [habs, log_magnitude hparts (Nat.pos_of_ne_zero hm), hscaled, roundEven_natCast, hfield,
        min_eq_left (by omega)]
      simp only [hneg]
      split <;> omega
    rw [hword]
    exact value_parts hparts hs

end Float32
