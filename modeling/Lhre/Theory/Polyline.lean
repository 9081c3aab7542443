import Mathlib.Analysis.SpecialFunctions.Integrals.Basic
import Mathlib.Tactic

/-!
# `Theory.Polyline` — the integral of a signal that is linear between samples

Samples `0` to `n` at times that never go back. Where two times are the same the signal takes every value between the two
samples, so it is a set of points; a function that follows it has one integral, whatever it takes there.

## Contents
- **Points.** `OnPath`, `Follows`, `OnPath.line`, `exists_follows`.
- **One segment.** `integral_line`, `integral_segment`.
- **All segments.** `integral_area`, `integral_between`.
- **Means.** `mean_bounds`.
-/

namespace Lhre.Polyline

open MeasureTheory intervalIntegral Set

/-! ## Points -/

/-- The points of the signal. -/
def OnPath (t v : ℕ → ℝ) (n : ℕ) (x y : ℝ) : Prop :=
  ∃ i < n, ∃ s, 0 ≤ s ∧ s ≤ 1 ∧ x = (1 - s) * t i + s * t (i + 1) ∧ y = (1 - s) * v i + s * v (i + 1)

/-- A function on the signal. -/
def Follows (t v : ℕ → ℝ) (n : ℕ) (f : ℝ → ℝ) : Prop := ∀ x, t 0 ≤ x → x ≤ t n → OnPath t v n x (f x)

variable {t v : ℕ → ℝ} {n : ℕ}

theorem onPath_sample {i : ℕ} (hi : i ≤ n) (hn : 0 < n) : OnPath t v n (t i) (v i) := by
  rcases Nat.eq_or_lt_of_le hi with rfl | hlt
  · refine ⟨i - 1, by omega, 1, zero_le_one, le_rfl, ?_, ?_⟩ <;> rw [Nat.sub_add_cancel hn] <;> ring
  · exact ⟨i, hlt, 0, le_rfl, zero_le_one, by ring, by ring⟩

section Times
variable (hmono : ∀ i j, i ≤ j → j ≤ n → t i ≤ t j)
include hmono

/-- **Inside a segment** the signal is a line. -/
theorem OnPath.line {i : ℕ} (hi : i < n) {x y : ℝ} (hx : t i < x) (hx' : x < t (i + 1)) (h : OnPath t v n x y) :
    y = v i + (v (i + 1) - v i) / (t (i + 1) - t i) * (x - t i) := by
  obtain ⟨j, hj, s, h0, h1, hxs, rfl⟩ := h
  have hstep : t j ≤ t (j + 1) := hmono j (j + 1) (Nat.le_succ j) hj
  have hlow : t j ≤ x := by
    rw [hxs]
    linarith [mul_le_mul_of_nonneg_left hstep h0]
  have hhigh : x ≤ t (j + 1) := by
    rw [hxs]
    linarith [mul_le_mul_of_nonneg_left hstep (sub_nonneg.mpr h1)]
  rcases lt_trichotomy i j with hij | rfl | hji
  · exact absurd ((hmono (i + 1) j hij hj.le).trans hlow) (not_le.mpr hx')
  · have hwidth : t (i + 1) - t i ≠ 0 := (sub_pos.mpr (hx.trans hx')).ne'
    rw [hxs]
    field_simp
    ring
  · exact absurd (hhigh.trans (hmono (j + 1) i hji hi.le)) (not_le.mpr hx)

/-- Every time has a segment around it. -/
theorem exists_segment (hn : 0 < n) {x : ℝ} (h0 : t 0 ≤ x) (hx : x ≤ t n) : ∃ i < n, t i ≤ x ∧ x ≤ t (i + 1) := by
  induction n with
  | zero => exact absurd hn (lt_irrefl 0)
  | succ n ih =>
      rcases le_total (t n) x with hle | hle
      · exact ⟨n, Nat.lt_succ_self n, hle, hx⟩
      · rcases Nat.eq_zero_or_pos n with rfl | hpos
        · exact ⟨0, Nat.zero_lt_one, h0, hx⟩
        · obtain ⟨i, hi, hbounds⟩ := ih (fun i j hij hj => hmono i j hij (hj.trans (Nat.le_succ n))) hpos hle
          exact ⟨i, hi.trans (Nat.lt_succ_self n), hbounds⟩

/-- **There is a function on the signal.** -/
theorem exists_follows (v : ℕ → ℝ) (hn : 0 < n) : ∃ f, Follows t v n f := by
  have hpoint (x : ℝ) : ∃ y, t 0 ≤ x → x ≤ t n → OnPath t v n x y := by
    by_cases hin : t 0 ≤ x ∧ x ≤ t n
    · obtain ⟨i, hi, hlow, hhigh⟩ := exists_segment hmono hn hin.1 hin.2
      rcases hlow.eq_or_lt with heq | hlt
      · exact ⟨v i, fun _ _ => heq ▸ onPath_sample hi.le hn⟩
      · have hwidth : 0 < t (i + 1) - t i := by linarith
        refine ⟨_, fun _ _ => ⟨i, hi, (x - t i) / (t (i + 1) - t i), div_nonneg (by linarith) hwidth.le,
          (div_le_one hwidth).mpr (by linarith), ?_, rfl⟩⟩
        field_simp
        ring
    · exact ⟨0, fun h0 h1 => absurd ⟨h0, h1⟩ hin⟩
  choose f hf using hpoint
  exact ⟨f, hf⟩

/-! ## One segment -/

omit hmono in
theorem integral_line (a k p q : ℝ) : ∫ x in p..q, (a + k * (x - p)) = a * (q - p) + k * (q - p) ^ 2 / 2 := by
  have hline : Continuous fun x : ℝ => k * (x - p) := by fun_prop
  rw [integral_add intervalIntegrable_const (hline.intervalIntegrable _ _), intervalIntegral.integral_const,
    intervalIntegral.integral_const_mul, integral_comp_sub_right (fun x => x), integral_id, smul_eq_mul]
  ring

/-- The area under a segment up to a time. -/
noncomputable def corner (t v : ℕ → ℝ) (i : ℕ) (x : ℝ) : ℝ :=
  v i * (x - t i) + if 0 < t (i + 1) - t i then (v (i + 1) - v i) * (x - t i) ^ 2 / ((2 : ℕ) * (t (i + 1) - t i)) else 0

variable {f : ℝ → ℝ} (hf : Follows t v n f)
include hf

theorem follows_line {i : ℕ} (hi : i < n) {x : ℝ} (hx' : x ≤ t (i + 1)) :
    EqOn f (fun z => v i + (v (i + 1) - v i) / (t (i + 1) - t i) * (z - t i)) (Ioo (t i) x) := by
  intro z hz
  have hlow : t 0 ≤ z := (hmono 0 i (Nat.zero_le i) hi.le).trans hz.1.le
  have hhigh : z ≤ t n := (hz.2.le.trans hx').trans (hmono (i + 1) n hi le_rfl)
  exact (hf z hlow hhigh).line hmono hi hz.1 (hz.2.trans_le hx')

theorem integrable_segment {i : ℕ} (hi : i < n) {x : ℝ} (hx : t i ≤ x) (hx' : x ≤ t (i + 1)) :
    IntervalIntegrable f volume (t i) x := by
  have hline : Continuous fun z : ℝ => v i + (v (i + 1) - v i) / (t (i + 1) - t i) * (z - t i) := by fun_prop
  refine (hline.intervalIntegrable (t i) x).congr_uIoo ?_
  rw [uIoo_of_le hx]
  exact (follows_line hmono hf hi hx').symm

/-- **The integral from the start of a segment.** -/
theorem integral_segment {i : ℕ} (hi : i < n) {x : ℝ} (hx : t i ≤ x) (hx' : x ≤ t (i + 1)) :
    ∫ z in t i..x, f z = corner t v i x := by
  rw [integral_congr_Ioo_of_le hx (follows_line hmono hf hi hx'), integral_line, corner]
  rcases (hx.trans hx').eq_or_lt with heq | hlt
  · have hzero : x = t i := le_antisymm (hx'.trans heq.ge) hx
    rw [hzero]
    simp
  · rw [if_pos (sub_pos.mpr hlt), Nat.cast_ofNat]
    field_simp

/-! ## All segments -/

variable (area : ℕ → ℝ) (hzero : area 0 = 0)
  (hnext : ∀ i < n, area (i + 1) = area i + (t (i + 1) - t i) * (v i + v (i + 1)) / 2)
include hzero hnext

/-- **The sums of the trapezoids** are the integrals up to the samples. -/
theorem integral_area {i : ℕ} (hi : i ≤ n) :
    IntervalIntegrable f volume (t 0) (t i) ∧ ∫ z in t 0..t i, f z = area i := by
  induction i with
  | zero => exact ⟨IntervalIntegrable.refl, by rw [integral_same, hzero]⟩
  | succ i ih =>
      obtain ⟨hint, harea⟩ := ih (Nat.le_of_succ_le hi)
      have hstep : t i ≤ t (i + 1) := hmono i (i + 1) (Nat.le_succ i) hi
      have hsegment := integrable_segment hmono hf hi hstep le_rfl
      refine ⟨hint.trans hsegment, ?_⟩
      rw [← integral_add_adjacent_intervals hint hsegment, harea, integral_segment hmono hf hi hstep le_rfl, hnext i hi,
        corner]
      split
      next hpos =>
        rw [Nat.cast_ofNat]
        field_simp
        ring
      next hpos =>
        have heq : t (i + 1) - t i = 0 := le_antisymm (not_lt.mp hpos) (sub_nonneg.mpr hstep)
        rw [heq]
        ring

/-- The integral up to a time of a segment. -/
theorem integral_from_start {i : ℕ} (hi : i < n) {x : ℝ} (hx : t i ≤ x) (hx' : x ≤ t (i + 1)) :
    IntervalIntegrable f volume (t 0) x ∧ ∫ z in t 0..x, f z = area i + corner t v i x := by
  obtain ⟨hint, harea⟩ := integral_area hmono hf area hzero hnext hi.le
  have hsegment := integrable_segment hmono hf hi hx hx'
  refine ⟨hint.trans hsegment, ?_⟩
  rw [← integral_add_adjacent_intervals hint hsegment, harea, integral_segment hmono hf hi hx hx']

/-- **The integral between two times** of segments. -/
theorem integral_between {i j : ℕ} (hi : i < n) (hj : j < n) {a b : ℝ} (ha : t i ≤ a) (ha' : a ≤ t (i + 1)) (hb : t j ≤ b)
    (hb' : b ≤ t (j + 1)) :
    IntervalIntegrable f volume a b ∧ ∫ z in a..b, f z = (area j + corner t v j b) - (area i + corner t v i a) := by
  obtain ⟨hinta, harea⟩ := integral_from_start hmono hf area hzero hnext hi ha ha'
  obtain ⟨hintb, hareb⟩ := integral_from_start hmono hf area hzero hnext hj hb hb'
  refine ⟨hinta.symm.trans hintb, ?_⟩
  rw [← harea, ← hareb, integral_interval_sub_left hintb hinta]

end Times

/-! ## Means -/

/-- **A mean** lies between the bounds of what it is of. -/
theorem mean_bounds {f : ℝ → ℝ} {a b m M : ℝ} (hab : a < b) (hint : IntervalIntegrable f volume a b)
    (h : ∀ x, a ≤ x → x ≤ b → m ≤ f x ∧ f x ≤ M) :
    m ≤ (∫ x in a..b, f x) / (b - a) ∧ (∫ x in a..b, f x) / (b - a) ≤ M := by
  have hwidth : 0 < b - a := sub_pos.mpr hab
  have hlow : ∫ _ in a..b, m ≤ ∫ x in a..b, f x :=
    integral_mono_on hab.le intervalIntegrable_const hint fun x hx => (h x hx.1 hx.2).1
  have hhigh : ∫ x in a..b, f x ≤ ∫ _ in a..b, M :=
    integral_mono_on hab.le hint intervalIntegrable_const fun x hx => (h x hx.1 hx.2).2
  rw [intervalIntegral.integral_const, smul_eq_mul] at hlow hhigh
  constructor
  · rw [le_div_iff₀ hwidth, mul_comm]
    exact hlow
  · rw [div_le_iff₀ hwidth, mul_comm M]
    exact hhigh

end Lhre.Polyline
