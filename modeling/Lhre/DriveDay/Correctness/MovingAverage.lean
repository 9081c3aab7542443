import Lhre.DriveDay.Sectors
import Lhre.DriveDay.TimeAverage
import Lhre.Theory.Lines
import Lhre.Theory.Polyline

/-!
# `DriveDay.Correctness.MovingAverage` — the moving average is the mean of the signal

The prefix sums are the integrals up to the samples, and the quadratic behind the bisection is the rest, so the difference of
two integrals is the integral between them. Where the window has no length the sample itself is returned.

## Contents
- **The prefix sums.** `area_spec`.
- **The integral.** `integral_eq`.
- **The average.** `IsMean`, `time_average`.
- **The speeds of a lap.** `sectors_timeAverage`.
-/

namespace Lhre.DriveDay.Averaging

open Lines Polyline MeasureTheory

/-! ## The prefix sums -/

theorem area_loop (times values : List ℝ) (n : ℕ) :
    let sums := (List.range n).foldl (fun area i =>
      area ++ [area.getD i 0 + (times.getD (i + 1) 0 - times.getD i 0) * (values.getD i 0 + values.getD (i + 1) 0) / 2]) [0]
    sums.length = n + 1 ∧ sums.getD 0 0 = 0 ∧ ∀ i < n, sums.getD (i + 1) 0 =
      sums.getD i 0 + (times.getD (i + 1) 0 - times.getD i 0) * (values.getD i 0 + values.getD (i + 1) 0) / 2 := by
  induction n with
  | zero => simp
  | succ n ih =>
      obtain ⟨hlength, hzero, hnext⟩ := ih
      rw [List.range_succ, List.foldl_append]
      simp only [List.foldl_cons, List.foldl_nil] at hlength hzero hnext ⊢
      refine ⟨by rw [List.length_append, hlength]; rfl, ?_, ?_⟩
      · rw [List.getD_append _ _ _ _ (by omega), hzero]
      · intro i hi
        rw [List.getD_append _ _ _ i (by omega)]
        rcases Nat.eq_or_lt_of_le (Nat.lt_succ_iff.mp hi) with rfl | hlt
        · rw [List.getD_append_right _ _ _ _ (by omega), hlength, Nat.sub_self]
          rfl
        · rw [List.getD_append _ _ _ _ (by omega), hnext i hlt]

section Signal
variable {times values : List ℝ}

/-- **The prefix sums** begin at zero, and each adds a trapezoid. -/
theorem area_spec (times values : List ℝ) :
    (area times values).getD 0 0 = 0 ∧ ∀ i < times.length - 1, (area times values).getD (i + 1) 0 =
      (area times values).getD i 0 +
        (times.getD (i + 1) 0 - times.getD i 0) * (values.getD i 0 + values.getD (i + 1) 0) / 2 :=
  (area_loop times values (times.length - 1)).2

/-! ## The integral -/

/-- The points of the sampled signal. -/
def OnSignal (times values : List ℝ) (x y : ℝ) : Prop :=
  OnPath (fun i => times.getD i 0) (fun i => values.getD i 0) (times.length - 1) x y

/-- A function that takes, at each time of the data, a value of the signal there. -/
def Signal (times values : List ℝ) (f : ℝ → ℝ) : Prop :=
  ∀ x, times.getD 0 0 ≤ x → x ≤ times.getD (times.length - 1) 0 → OnSignal times values x (f x)

theorem times_mono (hmono : times.Pairwise (· ≤ ·)) (hne : times ≠ []) (i j : ℕ) (hij : i ≤ j) (hj : j ≤ times.length - 1) :
    times.getD i 0 ≤ times.getD j 0 :=
  getD_mono hmono hij (by
    have := List.length_pos_iff.mpr hne
    omega)

/-- **`integral`** is the sum up to the sample before and the area under the segment. -/
theorem integral_eq (values : List ℝ) (htwo : 2 ≤ times.length) {t : ℝ} (h0 : times.getD 0 0 ≤ t)
    (h1 : t ≤ times.getD (times.length - 1) 0) :
    ∃ i < times.length - 1, bracket times t 0 (times.length - 1) = (i, i + 1) ∧ times.getD i 0 ≤ t ∧
      t ≤ times.getD (i + 1) 0 ∧ integral times values t = (area times values).getD i 0 +
        corner (fun i => times.getD i 0) (fun i => values.getD i 0) i t := by
  obtain ⟨i, hbracket, -, hi, hlow, hhigh⟩ := bracket_spec times t 0 (times.length - 1) (by omega) h0 h1
  refine ⟨i, hi, hbracket, hlow, hhigh, ?_⟩
  simp only [integral, hbracket, corner, Nat.cast_ofNat]
  ring

/-- **The difference of two integrals** is the integral between them. -/
theorem integral_sub (htwo : 2 ≤ times.length) (hmono : times.Pairwise (· ≤ ·)) {f : ℝ → ℝ} (hf : Signal times values f)
    {a b : ℝ} (ha : times.getD 0 0 ≤ a) (ha' : a ≤ times.getD (times.length - 1) 0) (hb : times.getD 0 0 ≤ b)
    (hb' : b ≤ times.getD (times.length - 1) 0) :
    IntervalIntegrable f volume a b ∧ ∫ x in a..b, f x = integral times values b - integral times values a := by
  obtain ⟨i, hi, -, hlow, hhigh, hia⟩ := integral_eq values htwo ha ha'
  obtain ⟨j, hj, -, hlow', hhigh', hjb⟩ := integral_eq values htwo hb hb'
  obtain ⟨hzero, hnext⟩ := area_spec times values
  rw [hia, hjb]
  exact integral_between (times_mono hmono (List.ne_nil_of_length_pos (by omega))) hf (fun i => (area times values).getD i 0)
    hzero hnext hi hj hlow hhigh hlow' hhigh'

end Signal

/-! ## The average -/

/-- **A mean of the signal** over a window around a sample. -/
structure IsMean (times values : List ℝ) (halfWindowMs : ℝ) (i : ℕ) (a b out : ℝ) : Prop where
  /-- The window is in the data, and the sample is in it. -/
  window : times.getD 0 0 ≤ a ∧ a ≤ times.getD i 0 ∧ times.getD i 0 ≤ b ∧ b ≤ times.getD (times.length - 1) 0
  /-- The window is what the data has of the times around the sample. -/
  clipped : ∀ x, (a ≤ x ∧ x ≤ b) ↔ (times.getD 0 0 ≤ x ∧ x ≤ times.getD (times.length - 1) 0) ∧
    times.getD i 0 - halfWindowMs ≤ x ∧ x ≤ times.getD i 0 + halfWindowMs
  /-- The integral of the signal over the window, by its length. -/
  mean : a < b → ∀ f, Signal times values f → out = (∫ x in a..b, f x) / (b - a)
  /-- A window without length. -/
  point : a = b → out = values.getD i 0
  /-- The output is between the least and the greatest value of the signal in the window. -/
  between : ∀ m M, (∀ x y, OnSignal times values x y → a ≤ x → x ≤ b → m ≤ y ∧ y ≤ M) → m ≤ out ∧ out ≤ M

theorem sample_mean {times values : List ℝ} (htwo : 2 ≤ times.length) (hmono : times.Pairwise (· ≤ ·)) {halfWindowMs : ℝ}
    (hhalf : 0 ≤ halfWindowMs) {i : ℕ} (hi : i < times.length) :
    let a := windowStart times halfWindowMs (times.getD i 0)
    let b := windowEnd times halfWindowMs (times.getD i 0)
    IsMean times values halfWindowMs i a b
      (if a < b then (integral times values b - integral times values a) / (b - a) else values.getD i 0) := by
  intro a b
  have hne : times ≠ [] := List.ne_nil_of_length_pos (by omega)
  have hfirst : times.getD 0 0 ≤ times.getD i 0 := times_mono hmono hne 0 i (Nat.zero_le i) (by omega)
  have hlast : times.getD i 0 ≤ times.getD (times.length - 1) 0 := times_mono hmono hne i _ (by omega) le_rfl
  have ha : times.getD 0 0 ≤ a := le_max_left _ _
  have hat : a ≤ times.getD i 0 := max_le hfirst (sub_le_self _ hhalf)
  have htb : times.getD i 0 ≤ b := le_min hlast (le_add_of_nonneg_right hhalf)
  have hb : b ≤ times.getD (times.length - 1) 0 := min_le_left _ _
  have hintegral {f : ℝ → ℝ} (hf : Signal times values f) :=
    integral_sub htwo hmono hf ha (hat.trans hlast) (hfirst.trans htb) hb
  refine ⟨⟨ha, hat, htb, hb⟩, ?_, ?_, ?_, ?_⟩
  · intro x
    simp only [a, b, windowStart, windowEnd, max_le_iff, le_min_iff]
    tauto
  · intro hab f hf
    rw [if_pos hab, (hintegral hf).2]
  · intro hab
    rw [if_neg hab.not_lt]
  · intro m M hbounds
    split
    next hab =>
      obtain ⟨f, hf⟩ := exists_follows (t := fun i => times.getD i 0) (n := times.length - 1)
        (times_mono hmono hne) (fun i => values.getD i 0) (by omega)
      rw [← (hintegral hf).2]
      exact mean_bounds hab (hintegral hf).1 fun x hx hx' => hbounds x (f x) (hf x (ha.trans hx) (hx'.trans hb)) hx hx'
    next =>
      exact hbounds _ _ (onPath_sample (t := fun i => times.getD i 0) (v := fun i => values.getD i 0) (by omega) (by omega))
        hat htb

/-- **`timeAverage`** returns, for each sample, the mean of the signal over its window; and the bisection brackets every time of
the data. -/
theorem time_average (times values : List ℝ) (htwo : 2 ≤ times.length) (hlength : values.length = times.length)
    (hmono : times.Pairwise (· ≤ ·)) (halfWindowMs : ℝ) (hhalf : 0 ≤ halfWindowMs) :
    (timeAverage times values halfWindowMs).length = values.length ∧
      (∀ i < times.length, IsMean times values halfWindowMs i (windowStart times halfWindowMs (times.getD i 0))
        (windowEnd times halfWindowMs (times.getD i 0)) ((timeAverage times values halfWindowMs).getD i 0)) ∧
      ∀ t, times.getD 0 0 ≤ t → t ≤ times.getD (times.length - 1) 0 → ∃ i, i + 1 < times.length ∧
        bracket times t 0 (times.length - 1) = (i, i + 1) ∧ times.getD i 0 ≤ t ∧ t ≤ times.getD (i + 1) 0 := by
  have hlong : ¬ times.length < 2 := not_lt.mpr htwo
  refine ⟨?_, ?_, ?_⟩
  · rw [timeAverage, if_neg hlong, List.length_mapIdx, hlength]
  · intro i hi
    have hat : (timeAverage times values halfWindowMs).getD i 0 =
        if windowStart times halfWindowMs (times.getD i 0) < windowEnd times halfWindowMs (times.getD i 0) then
          (integral times values (windowEnd times halfWindowMs (times.getD i 0)) -
              integral times values (windowStart times halfWindowMs (times.getD i 0))) /
            (windowEnd times halfWindowMs (times.getD i 0) - windowStart times halfWindowMs (times.getD i 0))
        else values.getD i 0 := by
      rw [timeAverage, if_neg hlong, List.getD_eq_getElem _ _ (by rw [List.length_mapIdx]; exact hi), List.getElem_mapIdx,
        List.getD_eq_getElem _ _ hi]
    rw [hat]
    exact sample_mean htwo hmono hhalf hi
  · intro t h0 h1
    obtain ⟨i, hi, hbracket, hlow, hhigh, -⟩ := integral_eq values htwo h0 h1
    exact ⟨i, by omega, hbracket, hlow, hhigh⟩

/-- The last sample of a ramp with a repeated time. -/
theorem time_average_ramp :
    IsMean [0, 1, 1] [0, 1, 2] 1 2 (windowStart [0, 1, 1] 1 (([0, 1, 1] : List ℝ).getD 2 0))
      (windowEnd [0, 1, 1] 1 (([0, 1, 1] : List ℝ).getD 2 0)) ((timeAverage [0, 1, 1] [0, 1, 2] 1).getD 2 0) :=
  (time_average [0, 1, 1] [0, 1, 2] (by simp) rfl (by simp) 1 zero_le_one).2.1 2 (by simp)

/-! ## The speeds of a lap -/

/-- The sums that a loop appends are a scan. -/
theorem foldl_append_eq_scanl {K : Type*} [Field K] (g : ℕ → K) (n : ℕ) :
    (List.range n).foldl (fun area i => area ++ [area.getD i 0 + g i]) [0] = ((List.range n).map g).scanl (· + ·) 0 := by
  induction n with
  | zero => rfl
  | succ n ih =>
    have hlast : (((List.range n).map g).scanl (· + ·) 0).getD n 0 = ((List.range n).map g).foldl (· + ·) 0 := by
      simp [List.getD_eq_getElem?_getD, List.take_of_length_le]
    rw [List.range_succ, List.foldl_append, List.foldl_cons, List.foldl_nil, ih, hlast, List.map_append, List.scanl_append]
    rfl

theorem interpSearch_eq_bracket (times : List ℚ) (t : ℚ) (lo hi : ℕ) : interpSearch times t lo hi = bracket times t lo hi := by
  fun_induction interpSearch times t lo hi with
  | case1 lo hi hwide m hle ih => rw [bracket, if_pos hwide, ih, if_pos hle]
  | case2 lo hi hwide m hgt ih => rw [bracket, if_pos hwide, ih, if_neg hgt]
  | case3 lo hi hnarrow => rw [bracket, if_neg hnarrow]

/-- The average behind the speeds of a lap is this one. -/
theorem sectors_timeAverage (times values : List ℚ) (halfWindowMs : ℚ) :
    DriveDay.timeAverage times values halfWindowMs = timeAverage times values halfWindowMs := by
  unfold DriveDay.timeAverage timeAverage integral area
  simp only [interpSearch_eq_bracket, foldl_append_eq_scanl]
  rfl

end Lhre.DriveDay.Averaging
