import Lhre.DriveDay.Segments

/-!
# `DriveDay.Laps` — the laps of a run

`viewer_tool/src/lib/driveday/types.ts`: a lap with its channels and points, index by index one record; and `interp` of
`math.ts`. Numbers are exact, and `hypot` is a parameter where it is used.

## Contents
- **Laps.** `ChKey`, `Point`, `LapKind`, `RawLap`, `RunData`.
- **Interpolation.** `interpSearch`, `interp`.
-/

namespace Lhre.DriveDay

/-! ## Laps -/

/-- `CH_KEYS`. -/
inductive ChKey
  | thr | brk | brkr | steer | rpm | trq | dcv | dca | kw | packv | soc
  | motT | invT | gateT | coolT | cellT | cellV | modA | modB | modC | vmaxC | vavgC
deriving DecidableEq, Repr

/-- One index of a lap: its channels, and its fix with its arc length and its distance off the line. -/
structure Point where
  t : ℚ
  u : ℚ
  v : ChKey → ℚ
  cells : List ℚ
  x : ℚ
  y : ℚ
  spd : ℚ
  s : ℚ
  dev : ℚ

/-- `LapKind`. -/
inductive LapKind
  | lap
  | out
  | unfinished
  | theo
deriving DecidableEq, Repr

/-- `RawLap`; `unfinished` is the kind of a lap that is still in progress. -/
structure RawLap where
  points : List Point
  name : String
  kind : LapKind
  t0 : ℚ
  t1 : ℚ
  dur : ℚ
  sec : Fin 3 → Option ℚ
  dist : ℚ
  vmax : ℚ
  vavg : ℚ
  dev : ℚ
  wh : Option ℚ
  whOut : Option ℚ
  whIn : Option ℚ

/-- `RunData`, with what a rebuild reads. -/
structure RunData where
  RL : ℚ
  isOpen : Bool
  laps : List RawLap

/-! ## Interpolation -/

/-- The bisection of `interp`. -/
def interpSearch (xs : List ℚ) (x : ℚ) (lo hi : ℕ) : ℕ × ℕ :=
  if 1 < hi - lo then
    let m := (lo + hi) / 2
    if xs.getD m 0 ≤ x then interpSearch xs x m hi else interpSearch xs x lo m
  else (lo, hi)
termination_by hi - lo
decreasing_by all_goals omega

/-- `interp`. -/
def interp (xs ys : List ℚ) (x : ℚ) : ℚ :=
  let n := xs.length
  if x ≤ xs.getD 0 0 then ys.getD 0 0
  else if xs.getD (n - 1) 0 ≤ x then ys.getD (n - 1) 0
  else
    let (lo, hi) := interpSearch xs x 0 (n - 1)
    let d := xs.getD hi 0 - xs.getD lo 0
    if 0 < d then ys.getD lo 0 + (ys.getD hi 0 - ys.getD lo 0) * (x - xs.getD lo 0) / d else ys.getD lo 0

theorem interpSearch_spec (xs : List ℚ) (x : ℚ) (lo hi : ℕ) (hlt : lo < hi) (hlo : xs.getD lo 0 ≤ x) (hhi : x < xs.getD hi 0) :
    ∃ i, interpSearch xs x lo hi = (i, i + 1) ∧ lo ≤ i ∧ i + 1 ≤ hi ∧ xs.getD i 0 ≤ x ∧ x < xs.getD (i + 1) 0 := by
  fun_induction interpSearch xs x lo hi with
  | case1 lo hi hwide m hle ih =>
      obtain ⟨i, heq, hfrom, hto, hi, hi'⟩ := ih (by omega) hle hhi
      exact ⟨i, heq, by omega, hto, hi, hi'⟩
  | case2 lo hi hwide m hgt ih =>
      obtain ⟨i, heq, hfrom, hto, hi, hi'⟩ := ih (by omega) hlo (not_le.mp hgt)
      exact ⟨i, heq, hfrom, by omega, hi, hi'⟩
  | case3 lo hi hnarrow =>
      obtain rfl : hi = lo + 1 := by omega
      exact ⟨lo, rfl, le_rfl, le_rfl, hlo, hhi⟩

/-- **`interp`**: an end value outside the range, and inside it the line between the two indices around the argument. -/
theorem interp_cases (xs ys : List ℚ) (x : ℚ) :
    (x ≤ xs.getD 0 0 ∧ interp xs ys x = ys.getD 0 0) ∨
      (xs.getD 0 0 < x ∧ xs.getD (xs.length - 1) 0 ≤ x ∧ interp xs ys x = ys.getD (xs.length - 1) 0) ∨
      ∃ i, i + 1 < xs.length ∧ xs.getD 0 0 < x ∧ xs.getD i 0 ≤ x ∧ x < xs.getD (i + 1) 0 ∧
        interp xs ys x = ys.getD i 0 +
          (ys.getD (i + 1) 0 - ys.getD i 0) * (x - xs.getD i 0) / (xs.getD (i + 1) 0 - xs.getD i 0) := by
  unfold interp
  by_cases hfirst : x ≤ xs.getD 0 0
  · exact Or.inl ⟨hfirst, if_pos hfirst⟩
  · have hfrom : xs.getD 0 0 < x := not_le.mp hfirst
    by_cases hlast : xs.getD (xs.length - 1) 0 ≤ x
    · exact Or.inr (Or.inl ⟨hfrom, hlast, by simp only [if_neg hfirst, if_pos hlast]⟩)
    · have hto : x < xs.getD (xs.length - 1) 0 := not_le.mp hlast
      have hlt : 0 < xs.length - 1 := by
        rcases Nat.eq_zero_or_pos (xs.length - 1) with hzero | hpos
        · rw [hzero] at hto
          exact absurd hto (not_lt.mpr hfrom.le)
        · exact hpos
      obtain ⟨i, hsearch, -, hi, hle, hlt'⟩ := interpSearch_spec xs x 0 (xs.length - 1) hlt hfrom.le hto
      refine Or.inr (Or.inr ⟨i, by omega, hfrom, hle, hlt', ?_⟩)
      simp only [if_neg hfirst, if_neg hlast, hsearch]
      rw [if_pos (sub_pos.mpr (hle.trans_lt hlt'))]

end Lhre.DriveDay
