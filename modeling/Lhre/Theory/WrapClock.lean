import Mathlib.Tactic

/-!
# `Theory.WrapClock` — intervals on a free-running `w`-bit clock

A counter of width `w` shows an unbounded time `t` as `BitVec.ofNat w t`. The age of a stamp is the wrapped
difference `now - since`, which is the true age as long as the true age is below `2 ^ w`. Everything here
is about that one fact: `age_eq`, its exact form on short spans `toNat_age`, the timeout test `le_age_iff`, and
`toInt_age_neg`, the test whether a stamp lies ahead.
-/

namespace WrapClock

variable {w : ℕ}

/-- **The age of a stamp.** The wrapped difference is the true age, seen through the same clock. -/
theorem age_eq {s t : ℕ} (h : s ≤ t) : BitVec.ofNat w t - BitVec.ofNat w s = BitVec.ofNat w (t - s) := by
  obtain ⟨d, rfl⟩ := Nat.exists_eq_add_of_le h
  rw [BitVec.ofNat_add, Nat.add_sub_cancel_left, BitVec.add_comm, BitVec.add_sub_cancel]

/-- **Short ages are exact.** A stamp younger than one turn of the clock shows its true age. -/
theorem toNat_age {s t : ℕ} (h : s ≤ t) (hspan : t - s < 2 ^ w) :
    (BitVec.ofNat w t - BitVec.ofNat w s).toNat = t - s := by
  rw [age_eq h, BitVec.toNat_ofNat, Nat.mod_eq_of_lt hspan]

/-- On a short span, "the interval has elapsed" on the wrapped clock is the same statement about the
    true times. -/
theorem le_age_iff {s t : ℕ} {d : BitVec w} (h : s ≤ t) (hspan : t - s < 2 ^ w) :
    d ≤ BitVec.ofNat w t - BitVec.ofNat w s ↔ s + d.toNat ≤ t := by
  rw [BitVec.le_def, toNat_age h hspan]
  omega

/-- Within half a turn of each other, the signed difference says which of two times is the later. -/
theorem toInt_age_neg {s t : ℕ} (h : 2 * s ≤ 2 * t + 2 ^ w) (h' : 2 * t < 2 * s + 2 ^ w) :
    (BitVec.ofNat w t - BitVec.ofNat w s).toInt < 0 ↔ t < s := by
  have hlo : (2 * s : ℤ) ≤ 2 * t + 2 ^ w := by exact_mod_cast h
  have hhi : (2 * t : ℤ) < 2 * s + 2 ^ w := by exact_mod_cast h'
  have hdiff : (BitVec.ofNat w t - BitVec.ofNat w s).toInt = (t : ℤ) - s := by
    rw [BitVec.toInt_sub, BitVec.toInt_ofNat', BitVec.toInt_ofNat', Int.bmod_sub_bmod, Int.sub_bmod_bmod]
    apply Int.bmod_eq_of_le_mul_two
    · push_cast
      omega
    · push_cast
      omega
  rw [hdiff]
  omega

end WrapClock
