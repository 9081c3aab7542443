import Mathlib.Algebra.Order.Field.Basic
import Mathlib.Data.List.GetD
import Mathlib.Tactic.Linarith

/-!
# `Theory.Lines` — tables read by index, and the lines between their points

The lookups of an interpolation: a list that ascends ascends by index, and a value on the line between two points of a table
stays between them.

## Contents
- **Tables.** `getD_mem`, `getD_mono`.
- **Lines.** `line_bounds`, `line_mono`, `mix_bounds`.
-/

namespace Lhre.Lines

/-! ## Tables -/

theorem getD_mem {α : Type*} {xs : List α} {d : α} {i : ℕ} (hi : i < xs.length) : xs.getD i d ∈ xs := by
  rw [List.getD_eq_getElem _ _ hi]
  exact List.getElem_mem hi

/-- **A list that ascends** ascends by index. -/
theorem getD_mono {α : Type*} [Preorder α] {xs : List α} {d : α} (h : xs.Pairwise (· ≤ ·)) {i j : ℕ} (hij : i ≤ j)
    (hj : j < xs.length) : xs.getD i d ≤ xs.getD j d := by
  have hi : i < xs.length := Nat.lt_of_le_of_lt hij hj
  rw [List.getD_eq_getElem _ _ hi, List.getD_eq_getElem _ _ hj]
  rcases Nat.eq_or_lt_of_le hij with rfl | hlt
  · exact le_rfl
  · exact List.pairwise_iff_getElem.mp h i j hi hj hlt

/-! ## Lines -/

variable {K : Type*} [Field K] [LinearOrder K] [IsStrictOrderedRing K]

/-- **A value on the line between two**, for a fraction of the way. -/
theorem line_bounds {a b x p q : K} (hpx : p ≤ x) (hxq : x ≤ q) (hpq : p < q) (hab : a ≤ b) :
    a ≤ a + (b - a) * (x - p) / (q - p) ∧ a + (b - a) * (x - p) / (q - p) ≤ b := by
  have hwidth : 0 < q - p := sub_pos.mpr hpq
  have hnum : 0 ≤ (b - a) * (x - p) := mul_nonneg (sub_nonneg.mpr hab) (sub_nonneg.mpr hpx)
  have hle : (b - a) * (x - p) / (q - p) ≤ b - a := by
    rw [div_le_iff₀ hwidth]
    exact mul_le_mul_of_nonneg_left (sub_le_sub_right hxq p) (sub_nonneg.mpr hab)
  have hnonneg : 0 ≤ (b - a) * (x - p) / (q - p) := div_nonneg hnum hwidth.le
  constructor <;> linarith

/-- On one line a later position comes later. -/
theorem line_mono {a b x x' p q : K} (hxx : x ≤ x') (hpq : p < q) (hab : a ≤ b) :
    a + (b - a) * (x - p) / (q - p) ≤ a + (b - a) * (x' - p) / (q - p) := by
  have hwidth : 0 < q - p := sub_pos.mpr hpq
  have hmul : (b - a) * (x - p) ≤ (b - a) * (x' - p) :=
    mul_le_mul_of_nonneg_left (sub_le_sub_right hxx p) (sub_nonneg.mpr hab)
  have hdiv : (b - a) * (x - p) / (q - p) ≤ (b - a) * (x' - p) / (q - p) := div_le_div_of_nonneg_right hmul hwidth.le
  linarith

/-- **A mix of two values** of a range is in the range. -/
theorem mix_bounds {lo hi x y t : K} (h0 : 0 ≤ t) (h1 : t ≤ 1) (hx : lo ≤ x ∧ x ≤ hi) (hy : lo ≤ y ∧ y ≤ hi) :
    lo ≤ (1 - t) * x + t * y ∧ (1 - t) * x + t * y ≤ hi := by
  have hrest : 0 ≤ 1 - t := sub_nonneg.mpr h1
  have hlox := mul_le_mul_of_nonneg_left hx.1 hrest
  have hhix := mul_le_mul_of_nonneg_left hx.2 hrest
  have hloy := mul_le_mul_of_nonneg_left hy.1 h0
  have hhiy := mul_le_mul_of_nonneg_left hy.2 h0
  constructor <;> linarith

end Lhre.Lines
