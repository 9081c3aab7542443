import Mathlib.Algebra.Order.Field.Rat

/-!
# `Autonomy.Centerline` — pairing classified cones

`lhr_track_builder/centerline.py`, over any ordered field. The norm of a difference and `linear_sum_assignment` are parameters;
an array of the source is a function of its indices.

## Contents
- **The costs.** `distances`, `valid`, `costs`.
- **The pairing.** `midpoint`, `pairClassifiedCones`.
-/

namespace Lhre.Autonomy.Centerline

variable {K : Type*} [Field K] [LinearOrder K]

/-! ## The costs -/

/-- `forbidden_cost`. -/
def forbiddenCost : K := 1000000

section Costs
variable (norm : K → K → K) (leftCones rightCones : List (K × K)) (minimumWidth maximumWidth : K)

/-- `distances`. -/
def distances (row column : ℕ) : K :=
  norm ((leftCones.getD row (0, 0)).1 - (rightCones.getD column (0, 0)).1)
    ((leftCones.getD row (0, 0)).2 - (rightCones.getD column (0, 0)).2)

/-- `valid`. -/
def valid (row column : ℕ) : Bool :=
  decide (minimumWidth ≤ distances norm leftCones rightCones row column ∧
    distances norm leftCones rightCones row column ≤ maximumWidth)

/-- `costs`: the cones against each other, and against the rows and columns that leave one unmatched. -/
def costs (row column : ℕ) : K :=
  if row < leftCones.length then
    if column < rightCones.length then
      if valid norm leftCones rightCones minimumWidth maximumWidth row column then
        distances norm leftCones rightCones row column
      else forbiddenCost
    else maximumWidth
  else if column < rightCones.length then maximumWidth
  else 0

end Costs

/-! ## The pairing -/

/-- `(left[row] + right[column]) / 2.0`. -/
def midpoint (left right : K × K) : K × K := ((left.1 + right.1) / (2 : ℕ), (left.2 + right.2) / (2 : ℕ))

/-- `pair_classified_cones`. -/
def pairClassifiedCones (norm : K → K → K) (linearSumAssignment : ℕ → (ℕ → ℕ → K) → List (ℕ × ℕ))
    (leftCones rightCones : List (K × K)) (trackWidth widthTolerance : K) : List (K × K) :=
  if leftCones = [] ∨ rightCones = [] then []
  else
    let minimumWidth := trackWidth - widthTolerance
    let maximumWidth := trackWidth + widthTolerance
    (linearSumAssignment (leftCones.length + rightCones.length)
        (costs norm leftCones rightCones minimumWidth maximumWidth)).filterMap fun (row, column) =>
      if leftCones.length ≤ row ∨ rightCones.length ≤ column then none
      else if !valid norm leftCones rightCones minimumWidth maximumWidth row column then none
      else some (midpoint (leftCones.getD row (0, 0)) (rightCones.getD column (0, 0)))

end Lhre.Autonomy.Centerline
