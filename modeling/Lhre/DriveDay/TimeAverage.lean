import Mathlib.Algebra.Order.Field.Rat

/-!
# `DriveDay.TimeAverage` — the moving average of a sampled signal

`timeAverage` of `viewer_tool/src/lib/driveday/math.ts`, over any ordered field: numbers are exact. The integral up to each
sample is summed once, and an average is the difference of two integrals, each a bisection and a quadratic.

## Contents
- **The prefix sums.** `area`.
- **The integral.** `bracket`, `bracket_spec`, `integral`.
- **The average.** `timeAverage`.
-/

namespace Lhre.DriveDay.Averaging

variable {K : Type*} [Field K] [LinearOrder K]

/-- `area`: the trapezoids up to each sample. -/
def area (times values : List K) : List K :=
  (List.range (times.length - 1)).foldl (fun area i =>
    area ++ [area.getD i 0 + (times.getD (i + 1) 0 - times.getD i 0) * (values.getD i 0 + values.getD (i + 1) 0) / (2 : ℕ)]) [0]

/-- The bisection of `integral`. -/
def bracket (times : List K) (t : K) (lo hi : ℕ) : ℕ × ℕ :=
  if 1 < hi - lo then
    let mid := (lo + hi) / 2
    if times.getD mid 0 ≤ t then bracket times t mid hi else bracket times t lo mid
  else (lo, hi)
termination_by hi - lo
decreasing_by all_goals omega

/-- `integral`. -/
def integral (times values : List K) (t : K) : K :=
  let (lo, hi) := bracket times t 0 (times.length - 1)
  let dt := times.getD hi 0 - times.getD lo 0
  let elapsed := t - times.getD lo 0
  (area times values).getD lo 0 + values.getD lo 0 * elapsed +
    if 0 < dt then (values.getD hi 0 - values.getD lo 0) * elapsed ^ 2 / ((2 : ℕ) * dt) else 0

/-- The first time of a sample's window. -/
def windowStart (times : List K) (halfWindowMs t : K) : K := max (times.getD 0 0) (t - halfWindowMs)

/-- The last time of a sample's window. -/
def windowEnd (times : List K) (halfWindowMs t : K) : K := min (times.getD (times.length - 1) 0) (t + halfWindowMs)

/-- `timeAverage`, whose half window is 250 ms where none is given. -/
def timeAverage (times values : List K) (halfWindowMs : K) : List K :=
  if times.length < 2 then values
  else
    times.mapIdx fun i t =>
      let a := windowStart times halfWindowMs t
      let b := windowEnd times halfWindowMs t
      if a < b then (integral times values b - integral times values a) / (b - a) else values.getD i 0

/-- **The bisection brackets its argument.** -/
theorem bracket_spec (times : List K) (t : K) (lo hi : ℕ) (hlt : lo < hi) (hlo : times.getD lo 0 ≤ t)
    (hhi : t ≤ times.getD hi 0) :
    ∃ i, bracket times t lo hi = (i, i + 1) ∧ lo ≤ i ∧ i + 1 ≤ hi ∧ times.getD i 0 ≤ t ∧ t ≤ times.getD (i + 1) 0 := by
  fun_induction bracket times t lo hi with
  | case1 lo hi hwide mid hle ih =>
      obtain ⟨i, heq, hfrom, hto, hi, hi'⟩ := ih (by omega) hle hhi
      exact ⟨i, heq, by omega, hto, hi, hi'⟩
  | case2 lo hi hwide mid hgt ih =>
      obtain ⟨i, heq, hfrom, hto, hi, hi'⟩ := ih (by omega) hlo (not_le.mp hgt).le
      exact ⟨i, heq, hfrom, by omega, hi, hi'⟩
  | case3 lo hi hnarrow =>
      obtain rfl : hi = lo + 1 := by omega
      exact ⟨lo, rfl, le_rfl, le_rfl, hlo, hhi⟩

/-- A constant signal with a repeated time. -/
example : timeAverage [0, 1, 1, 3] [5, 5, 5, 5] (1 : ℚ) = [5, 5, 5, 5] := by decide +kernel

end Lhre.DriveDay.Averaging
