import Mathlib.Tactic

/-!
# `Theory.Blocks` — a series of blocks of one layout

A layout is a list of places in a block. A series of blocks of one length repeats it: the place `a` of block `k` is at
`k * length + a`. As long as every place is below the length, nothing overlaps and nothing leaves the series.

## Contents
- **Places.** `series`, `mem_series`, `block_unique`, `series_lt`.
- **Full layouts.** A layout with as many places as its length has them all (`perm_range`), and so has the series of it
  (`mem_series_full`).
-/

namespace Blocks

/-! ## Places -/

/-- The places of a series of `n` blocks. -/
def series (length n : ℕ) (layout : List ℕ) : List ℕ :=
  (List.range n).flatMap fun k => layout.map fun a => k * length + a

variable {length n : ℕ} {layout : List ℕ}

theorem mem_series {i : ℕ} : i ∈ series length n layout ↔ ∃ k < n, ∃ a ∈ layout, i = k * length + a := by
  unfold series
  simp only [List.mem_flatMap, List.mem_range, List.mem_map, eq_comm]

/-- **A place is in one block alone.** -/
theorem block_unique {k k' a a' : ℕ} (ha : a < length) (ha' : a' < length)
    (h : k * length + a = k' * length + a') : k = k' := by
  have hdiv : ∀ k a, a < length → (k * length + a) / length = k := by
    intro k a ha
    rw [Nat.mul_comm, Nat.mul_add_div (by omega), Nat.div_eq_of_lt ha, Nat.add_zero]
  rw [← hdiv k a ha, h, hdiv k' a' ha']

/-- **The places of a series** are within it. -/
theorem series_lt {k a : ℕ} (hk : k < n) (ha : a < length) : k * length + a < n * length := by
  have hblock : (k + 1) * length ≤ n * length := Nat.mul_le_mul_right length hk
  rw [Nat.add_mul, Nat.one_mul] at hblock
  omega

/-! ## Full layouts -/

/-- A layout with as many places as the length of a block is a numbering of them. -/
theorem perm_range (hnodup : layout.Nodup) (hlt : ∀ a ∈ layout, a < layout.length) :
    layout.Perm (List.range layout.length) := by
  apply (List.subperm_of_subset hnodup ?_).perm_of_length_le
  · rw [List.length_range]
  · intro a ha
    exact List.mem_range.mpr (hlt a ha)

/-- **The series of a full layout** has every place within it, and no other. -/
theorem mem_series_full (hnodup : layout.Nodup) (hlt : ∀ a ∈ layout, a < layout.length) {i : ℕ} :
    i ∈ series layout.length n layout ↔ i < n * layout.length := by
  rw [mem_series]
  constructor
  · rintro ⟨k, hk, a, ha, rfl⟩
    exact series_lt hk (hlt a ha)
  · intro hi
    have hpos : 0 < layout.length := Nat.pos_of_ne_zero fun hzero => by
      rw [hzero, Nat.mul_zero] at hi
      exact Nat.not_lt_zero i hi
    have hmem : i % layout.length ∈ layout :=
      (perm_range hnodup hlt).mem_iff.mpr (List.mem_range.mpr (Nat.mod_lt i hpos))
    refine ⟨i / layout.length, (Nat.div_lt_iff_lt_mul hpos).mpr hi, i % layout.length, hmem, ?_⟩
    rw [Nat.mul_comm, Nat.div_add_mod]

end Blocks
