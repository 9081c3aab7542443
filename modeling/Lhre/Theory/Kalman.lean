import Mathlib.Analysis.Matrix.PosDef
import Mathlib.LinearAlgebra.Matrix.NonsingularInverse

/-!
# `Theory.Kalman` — the covariance of a linear estimate

What one prediction and one correction do to a covariance. The correction is in Joseph's form, which is a covariance for any gain;
the gain that solves `K * S = P * Hᵀ` is the best one.

## Contents
- **Quadratic forms.** `quad`, `quad_nonneg`, `quad_pos`, `quad_sandwich`.
- **Prediction.** `predict`, `predict_posDef`.
- **Correction.** `innovation`, `innovation_posDef`, `joseph`, `joseph_posDef`.
- **The best gain.** `joseph_gain`, `joseph_least`, `joseph_best`, `joseph_le`.
-/

namespace Lhre.Kalman

open Matrix

variable {n m : Type*} [Fintype n] [Fintype m] [DecidableEq n]

/-! ## Quadratic forms -/

/-- The value of a form at a vector. -/
def quad (P : Matrix n n ℝ) (x : n → ℝ) : ℝ := x ⬝ᵥ (P *ᵥ x)

omit [DecidableEq n] in
theorem quad_nonneg {P : Matrix n n ℝ} (hP : P.PosSemidef) (x : n → ℝ) : 0 ≤ quad P x := by
  have h := hP.dotProduct_mulVec_nonneg x
  rwa [star_trivial] at h

omit [DecidableEq n] in
theorem quad_pos {P : Matrix n n ℝ} (hP : P.PosDef) {x : n → ℝ} (hx : x ≠ 0) : 0 < quad P x := by
  have h := hP.dotProduct_mulVec_pos hx
  rwa [star_trivial] at h

omit [DecidableEq n] in
/-- A form that is carried along a map. -/
theorem quad_sandwich (A : Matrix n m ℝ) (P : Matrix m m ℝ) (x : n → ℝ) :
    quad (A * P * Aᵀ) x = quad P (Aᵀ *ᵥ x) := by
  unfold quad
  rw [← mulVec_mulVec, ← mulVec_mulVec, dotProduct_mulVec x A, ← mulVec_transpose]

omit [DecidableEq n] in
theorem quad_add (P Q : Matrix n n ℝ) (x : n → ℝ) : quad (P + Q) x = quad P x + quad Q x := by
  simp only [quad, add_mulVec, dotProduct_add]

omit [Fintype n] [DecidableEq n] in
theorem isHermitian_sandwich {P : Matrix m m ℝ} (hP : P.IsHermitian) (A : Matrix n m ℝ) : (A * P * Aᵀ).IsHermitian := by
  have h := isHermitian_mul_mul_conjTranspose A hP
  rwa [conjTranspose_eq_transpose_of_trivial] at h

omit [DecidableEq n] in
theorem posSemidef_sandwich {P : Matrix m m ℝ} (hP : P.PosSemidef) (A : Matrix n m ℝ) : (A * P * Aᵀ).PosSemidef := by
  have h := hP.mul_mul_conjTranspose_same A
  rwa [conjTranspose_eq_transpose_of_trivial] at h

/-! ## Prediction -/

/-- The covariance after a step of the model, `F`, with noise `Q` that enters through `G`. -/
def predict (F : Matrix n n ℝ) (G : Matrix n m ℝ) (Q : Matrix m m ℝ) (P : Matrix n n ℝ) : Matrix n n ℝ :=
  F * P * Fᵀ + G * Q * Gᵀ

/-- **A step that forgets nothing keeps a covariance definite.** -/
theorem predict_posDef {F : Matrix n n ℝ} (hF : IsUnit F) (G : Matrix n m ℝ) {Q : Matrix m m ℝ} (hQ : Q.PosSemidef)
    {P : Matrix n n ℝ} (hP : P.PosDef) : (predict F G Q P).PosDef := by
  have hFP : (F * P * Fᵀ).PosDef := by
    refine PosDef.of_dotProduct_mulVec_pos (isHermitian_sandwich hP.isHermitian F) fun x hx => ?_
    have hne : Fᵀ *ᵥ x ≠ 0 := by
      intro hzero
      have hinj : Function.Injective Fᵀ.mulVec := mulVec_injective_of_isUnit ((isUnit_transpose F).mpr hF)
      exact hx (hinj (hzero.trans (mulVec_zero _).symm))
    show 0 < star x ⬝ᵥ _
    rw [star_trivial]
    show 0 < quad (F * P * Fᵀ) x
    rw [quad_sandwich]
    exact quad_pos hP hne
  exact hFP.add_posSemidef (posSemidef_sandwich hQ G)

/-! ## Correction -/

/-- The covariance of what a measurement `H` with noise `R` says that was not known. -/
def innovation (H : Matrix m n ℝ) (R : Matrix m m ℝ) (P : Matrix n n ℝ) : Matrix m m ℝ := H * P * Hᵀ + R

omit [DecidableEq n] in
theorem innovation_posDef (H : Matrix m n ℝ) {R : Matrix m m ℝ} (hR : R.PosDef) {P : Matrix n n ℝ} (hP : P.PosSemidef) :
    (innovation H R P).PosDef :=
  PosDef.posSemidef_add (posSemidef_sandwich hP H) hR

/-- The covariance after a correction with the gain `K`. -/
def joseph (H : Matrix m n ℝ) (R : Matrix m m ℝ) (K : Matrix n m ℝ) (P : Matrix n n ℝ) : Matrix n n ℝ :=
  (1 - K * H) * P * (1 - K * H)ᵀ + K * R * Kᵀ

/-- **Whatever the gain**, a correction keeps a covariance definite. -/
theorem joseph_posDef (H : Matrix m n ℝ) {R : Matrix m m ℝ} (hR : R.PosDef) (K : Matrix n m ℝ) {P : Matrix n n ℝ}
    (hP : P.PosDef) : (joseph H R K P).PosDef := by
  refine PosDef.of_dotProduct_mulVec_pos
    ((isHermitian_sandwich hP.isHermitian _).add (isHermitian_sandwich hR.isHermitian K)) fun x hx => ?_
  show 0 < star x ⬝ᵥ _
  rw [star_trivial]
  show 0 < quad (joseph H R K P) x
  have hsum : quad (joseph H R K P) x = quad P ((1 - K * H)ᵀ *ᵥ x) + quad R (Kᵀ *ᵥ x) := by
    rw [joseph, quad_add, quad_sandwich, quad_sandwich]
  have hleft := quad_nonneg hP.posSemidef ((1 - K * H)ᵀ *ᵥ x)
  have hright := quad_nonneg hR.posSemidef (Kᵀ *ᵥ x)
  by_cases hgain : Kᵀ *ᵥ x = 0
  · -- the gain does not see `x`, so the prior has all of it
    have hsame : (1 - K * H)ᵀ *ᵥ x = x := by
      rw [transpose_sub, transpose_one, transpose_mul, sub_mulVec, one_mulVec, ← mulVec_mulVec, hgain, mulVec_zero, sub_zero]
    rw [hsame] at hsum
    have := quad_pos hP hx
    linarith
  · have := quad_pos hR hgain
    linarith

/-! ## The best gain -/

section Gain
variable {H : Matrix m n ℝ} {R : Matrix m m ℝ} {P : Matrix n n ℝ} {K : Matrix n m ℝ}

theorem joseph_expand (hP : P.IsHermitian) (K : Matrix n m ℝ) :
    joseph H R K P = P - K * (H * P) - (K * (H * P))ᵀ + K * innovation H R P * Kᵀ := by
  have hPt : Pᵀ = P := by
    have h := hP.eq
    rwa [conjTranspose_eq_transpose_of_trivial] at h
  unfold joseph innovation
  rw [transpose_sub, transpose_one, transpose_mul, transpose_mul, transpose_mul, hPt]
  simp only [Matrix.sub_mul, Matrix.mul_sub, Matrix.one_mul, Matrix.mul_one, Matrix.add_mul, Matrix.mul_add, Matrix.mul_assoc]
  abel

/-- **What another gain costs** over the one that solves `K * S = P * Hᵀ`. -/
theorem joseph_gain (hP : P.IsHermitian) (hR : R.IsHermitian) (hK : K * innovation H R P = P * Hᵀ) (K' : Matrix n m ℝ) :
    joseph H R K' P = joseph H R K P + (K' - K) * innovation H R P * (K' - K)ᵀ := by
  have hPt : Pᵀ = P := by
    have h := hP.eq
    rwa [conjTranspose_eq_transpose_of_trivial] at h
  have hS : (innovation H R P)ᵀ = innovation H R P := by
    have h := ((isHermitian_sandwich hP H).add hR).eq
    rwa [conjTranspose_eq_transpose_of_trivial] at h
  -- the cross terms of any gain are those of the best one
  have hHP : H * P = innovation H R P * Kᵀ := by
    have h := congrArg transpose hK
    rw [transpose_mul, transpose_mul, transpose_transpose, hS, hPt] at h
    exact h.symm
  rw [joseph_expand hP, joseph_expand hP, hHP]
  simp only [transpose_mul, transpose_sub, transpose_transpose, hS, Matrix.sub_mul, Matrix.mul_sub, Matrix.mul_assoc]
  abel

/-- **No gain leaves less** than the one that solves `K * S = P * Hᵀ`. -/
theorem joseph_least (hP : P.PosSemidef) (hR : R.PosDef) (hK : K * innovation H R P = P * Hᵀ) (K' : Matrix n m ℝ) :
    (joseph H R K' P - joseph H R K P).PosSemidef := by
  rw [joseph_gain hP.isHermitian hR.isHermitian hK K', add_sub_cancel_left]
  exact posSemidef_sandwich (innovation_posDef H hR hP).posSemidef _

theorem joseph_zero : joseph H R 0 P = P := by
  simp [joseph]

/-- What the best gain leaves. -/
theorem joseph_best (hP : P.IsHermitian) (hR : R.IsHermitian) (hK : K * innovation H R P = P * Hᵀ) :
    joseph H R K P = P - K * innovation H R P * Kᵀ := by
  have h := joseph_gain hP hR hK 0
  rw [joseph_zero] at h
  refine eq_sub_of_add_eq (h.trans ?_).symm
  simp

/-- A correction with the best gain never adds to a covariance. -/
theorem joseph_le (hP : P.PosSemidef) (hR : R.PosDef) (hK : K * innovation H R P = P * Hᵀ) :
    (P - joseph H R K P).PosSemidef := by
  have h := joseph_least hP hR hK 0
  rwa [joseph_zero] at h

end Gain

end Lhre.Kalman
