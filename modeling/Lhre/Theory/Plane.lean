import Mathlib.Analysis.Convex.Radon
import Mathlib.Analysis.SpecialFunctions.Trigonometric.Bounds

/-!
# `Theory.Plane` — slabs, four convex sets, and small motions

What two tests of the plane rest on: that four convex sets of which any three meet have a common point, and that a motion
carries a point no further than its distance allows.

## Contents
- **Slabs.** `IsAffine`, `Slab`, `convex_slab`.
- **Four sets.** `helly_four`.
- **Motions.** `direction_bound`, `rotation_bound`, `distance_scale`.
-/

namespace Lhre.Plane

open Real

section Convexity
variable {E : Type*} [AddCommGroup E] [Module ℝ E]

/-! ## Slabs -/

/-- A value that goes along with combinations of points. -/
def IsAffine (f : E → ℝ) : Prop := ∀ (x y : E) (a b : ℝ), a + b = 1 → f (a • x + b • y) = a * f x + b * f y

/-- The points of a range of values. -/
def Slab (f : E → ℝ) (lo hi : ℝ) : Set E := { q | lo ≤ f q ∧ f q ≤ hi }

theorem convex_slab {f : E → ℝ} (hf : IsAffine f) (lo hi : ℝ) : Convex ℝ (Slab f lo hi) := by
  intro x hx y hy a b ha hb hab
  have hlo : lo = a * lo + b * lo := by rw [← add_mul, hab, one_mul]
  have hhi : hi = a * hi + b * hi := by rw [← add_mul, hab, one_mul]
  have hax := mul_le_mul_of_nonneg_left hx.1 ha
  have hax' := mul_le_mul_of_nonneg_left hx.2 ha
  have hby := mul_le_mul_of_nonneg_left hy.1 hb
  have hby' := mul_le_mul_of_nonneg_left hy.2 hb
  refine ⟨?_, ?_⟩
  · rw [hf x y a b hab]
    linarith
  · rw [hf x y a b hab]
    linarith

/-! ## Four sets -/

/-- **Four convex sets of a plane**, any three of which share a point, share a point. -/
theorem helly_four [FiniteDimensional ℝ E] (hrank : Module.finrank ℝ E = 2) {F : Fin 4 → Set E} (hconvex : ∀ i, Convex ℝ (F i))
    (hthree : ∀ j, ∃ q, ∀ i, i ≠ j → q ∈ F i) : ∃ q, ∀ i, q ∈ F i := by
  have hinter : (⋂ i ∈ Finset.univ, F i).Nonempty := by
    refine Convex.helly_theorem (𝕜 := ℝ) ?_ (fun i _ => hconvex i) ?_
    · rw [hrank, Finset.card_univ, Fintype.card_fin]
      omega
    · intro I _ hcard
      -- one set is left out
      obtain ⟨j, hj⟩ : ∃ j, j ∉ I := by
        by_contra hall
        have hfull : I = Finset.univ := Finset.eq_univ_iff_forall.mpr fun j => by_contra fun hj => hall ⟨j, hj⟩
        rw [hfull, hrank, Finset.card_univ, Fintype.card_fin] at hcard
        omega
      obtain ⟨q, hq⟩ := hthree j
      refine ⟨q, Set.mem_iInter₂.mpr fun i hi => hq i ?_⟩
      rintro rfl
      exact hj hi
  obtain ⟨q, hq⟩ := hinter
  exact ⟨q, fun i => Set.mem_iInter₂.mp hq i (Finset.mem_univ i)⟩

end Convexity

/-! ## Motions -/

/-- What a point is along a direction is at most its distance. -/
theorem direction_bound (θ x y : ℝ) : |cos θ * x + sin θ * y| ≤ √(x ^ 2 + y ^ 2) := by
  refine abs_le_sqrt ?_
  have hone := sin_sq_add_cos_sq θ
  have hsquare : x ^ 2 + y ^ 2 = (cos θ * x + sin θ * y) ^ 2 + (sin θ * x - cos θ * y) ^ 2 := by
    linear_combination (-(x ^ 2) - y ^ 2) * hone
  rw [hsquare]
  exact le_add_of_nonneg_right (sq_nonneg _)

/-- What it is across a direction, too. -/
theorem direction_bound' (θ x y : ℝ) : |-sin θ * x + cos θ * y| ≤ √(x ^ 2 + y ^ 2) := by
  have h := direction_bound (θ + π / 2) x y
  rwa [cos_add_pi_div_two, sin_add_pi_div_two] at h

theorem distance_scale (x y s : ℝ) : √((x * s) ^ 2 + (y * s) ^ 2) = √(x ^ 2 + y ^ 2) * |s| := by
  have hsquare : (x * s) ^ 2 + (y * s) ^ 2 = (x ^ 2 + y ^ 2) * s ^ 2 := by ring
  rw [hsquare, sqrt_mul (by positivity), sqrt_sq_eq_abs]

/-- **A rotation moves a point by at most its distance times the angle.** -/
theorem rotation_bound (u v δ : ℝ) :
    |u * (cos δ - 1) - v * sin δ| ≤ √(u ^ 2 + v ^ 2) * |δ| ∧ |u * sin δ + v * (cos δ - 1)| ≤ √(u ^ 2 + v ^ 2) * |δ| := by
  have hone := sin_sq_add_cos_sq δ
  have hchord : (cos δ - 1) ^ 2 + sin δ ^ 2 ≤ δ ^ 2 := by
    have hcos : 1 - δ ^ 2 / 2 ≤ cos δ := one_sub_sq_div_two_le_cos
    linarith
  have hscale : (u ^ 2 + v ^ 2) * ((cos δ - 1) ^ 2 + sin δ ^ 2) ≤ (u * δ) ^ 2 + (v * δ) ^ 2 := by
    have hmul := mul_le_mul_of_nonneg_left hchord (by positivity : 0 ≤ u ^ 2 + v ^ 2)
    linarith
  rw [← distance_scale]
  constructor
  · refine abs_le_sqrt (le_trans ?_ hscale)
    linarith [sq_nonneg (u * sin δ + v * (cos δ - 1))]
  · refine abs_le_sqrt (le_trans ?_ hscale)
    linarith [sq_nonneg (u * (cos δ - 1) - v * sin δ)]

end Lhre.Plane
