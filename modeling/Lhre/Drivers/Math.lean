import Mathlib.Tactic
import Lhre.Theory.Lines

/-!
# `Drivers.Math` — the scalar helpers of the control code

`Clamp`, `Lookup1D`, `Normalize` and the first-order low-pass `Ema` of
`drivers/longhorn/include/longhorn/math.hpp`. A `float` is an exact rational throughout: every value is
finite and rounding is not modelled, so `std::isfinite` is always true.
-/

namespace Lhre.Longhorn

/-- `Clamp`. -/
def clamp (x lo hi : ℚ) : ℚ := if x < lo then lo else if hi < x then hi else x

/-- `static_cast<int>(x)`: truncation toward zero. -/
def truncToInt (x : ℚ) : ℤ := if 0 ≤ x then x.floor else -(-x).floor

/-- `Lookup1D` over evenly spaced points spanning `[xMin, xMax]`, clamped at the ends. -/
def lookup1D (y : List ℚ) (xMin xMax x : ℚ) : ℚ :=
  let n := y.length
  if n = 0 then 0
  else if n = 1 ∨ x ≤ xMin ∨ xMax ≤ xMin then y.getD 0 0
  else if xMax ≤ x then y.getD (n - 1) 0
  else
    let pos := (x - xMin) / (xMax - xMin) * ((n - 1 : ℕ) : ℚ)
    let i := (truncToInt pos).toNat
    if n - 1 ≤ i then y.getD (n - 1) 0
    else
      let frac := pos - (i : ℚ)
      y.getD i 0 + (y.getD (i + 1) 0 - y.getD i 0) * frac

/-- `Normalize`: the fraction of the span `[lo, hi]`, unclamped; works for decreasing sensors. -/
def normalize (x lo hi : ℚ) : ℚ :=
  let span := hi - lo
  if span = 0 then 0 else (x - lo) / span

/-- A first-order low-pass, seeded by the first sample. -/
structure Ema where
  seeded : Bool := false
  y : ℚ := 0
deriving DecidableEq, Repr

/-- `Ema::Update`; the filtered value is the `y` of the result. -/
def Ema.update (e : Ema) (x alpha : ℚ) : Ema :=
  if e.seeded then { e with y := alpha * x + (1 - alpha) * e.y } else { seeded := true, y := x }

/-- `Ema::Reset`. -/
def Ema.reset (e : Ema) : Ema := { e with seeded := false }

/-! ## Clamping -/

theorem clamp_le {x lo hi : ℚ} (h : lo ≤ hi) : clamp x lo hi ≤ hi := by
  unfold clamp
  split
  · exact h
  · split
    · exact le_refl hi
    · exact not_lt.mp ‹_›

theorem le_clamp {x lo hi : ℚ} (h : lo ≤ hi) : lo ≤ clamp x lo hi := by
  unfold clamp
  split
  · exact le_refl lo
  · split
    · exact h
    · exact not_lt.mp ‹_›

/-- A value already in range is passed through. -/
theorem clamp_of_mem {x lo hi : ℚ} (hlo : lo ≤ x) (hhi : x ≤ hi) : clamp x lo hi = x := by
  unfold clamp
  rw [if_neg (not_lt.mpr hlo), if_neg (not_lt.mpr hhi)]

@[simp] theorem clamp_zero {hi : ℚ} (h : 0 ≤ hi) : clamp 0 0 hi = 0 :=
  clamp_of_mem (le_refl 0) h

/-- Clamping to a symmetric range bounds the magnitude. -/
theorem abs_clamp_le {x lo hi b : ℚ} (h : lo ≤ hi) (hlo : -b ≤ lo) (hhi : hi ≤ b) :
    |clamp x lo hi| ≤ b := by
  rw [abs_le]
  exact ⟨hlo.trans (le_clamp h), (clamp_le h).trans hhi⟩

/-! ## Truncation -/

theorem truncToInt_of_nonneg {x : ℚ} (h : 0 ≤ x) : truncToInt x = ⌊x⌋ := by
  unfold truncToInt
  rw [if_pos h]
  rfl

theorem truncToInt_of_neg {x : ℚ} (h : x < 0) : truncToInt x = -⌊-x⌋ := by
  unfold truncToInt
  rw [if_neg (not_le.mpr h)]
  rfl

/-! ## Interpolation -/

end Lhre.Longhorn
