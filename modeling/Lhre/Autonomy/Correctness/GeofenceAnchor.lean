import Lhre.Autonomy.Correctness.SafetyVerdicts

/-!
# `Autonomy.Correctness.GeofenceAnchor` — where the fence is after the car armed

A tick that arms reads the checks first and moves the fence afterwards, to the latest pose there is. So the fence of the
run before still decides on the arming tick, and a node that armed before its first pose has no fence at all.

## Contents
- **The fence after arming.** `armed_through`, `fence_through`.
- **The condition.** `raised_iff`, `raised_after`.
- **Where the car armed.** `Geofenced`, and exactly when it holds.
-/

namespace Lhre.Autonomy

open Trace

variable (cfg : SafetyConfig) (fn : SafetyMath) (start : ℚ) (ρ : ℕ → ℚ × SafetyEvent)

/-- The check at a position sees the car outside the fence. -/
def Raised (n : ℕ) : Prop :=
  ((monitorAt cfg fn start ρ n).outside || (monitorAt cfg fn start ρ n).outsideSeen) = true

/-- A tick no earlier than another, with every tick from there on armed. -/
structure ArmedThrough (a n : ℕ) : Prop where
  le : a ≤ n
  tick : IsTick ρ n
  armed : ∀ m, a ≤ m → m ≤ n → IsTick ρ m → isArmed (heardAt ρ m) = true

/-- A finite sample with none between it and an earlier position. -/
def FirstSample (a k : ℕ) (s : Sample) : Prop := a < k ∧ sampleAt ρ k = some s ∧ ∀ i, a < i → i < k → ¬ IsSample ρ i

/-- The centre of the fence of an arming: the latest pose before it or, where there is none, the first one after it. -/
def Centre (a : ℕ) (c : ℚ × ℚ) : Prop :=
  poseAt ρ a = some c ∨ (poseAt ρ a = none ∧ ∃ k s, FirstSample ρ a k s ∧ c = (s.x, s.y))

/-- From an arming to a tick, the condition is raised exactly when a sample after the arming was outside its fence. -/
def Geofenced (a n : ℕ) : Prop :=
  (∃ m, a ≤ m ∧ m ≤ n ∧ IsTick ρ m ∧ Raised cfg fn start ρ m) ↔
    ∃ k s c, a < k ∧ k < n ∧ sampleAt ρ k = some s ∧ Centre ρ a c ∧ s.outside cfg fn c = true

/-- The fence in place before the arming tick holds the latest sample, and those since the check before. -/
def OldFenceClear (a : ℕ) : Prop :=
  ¬ ∃ k, Fresh ρ (IsSample ρ) k a ∧ OutsideFence cfg fn ρ k ∧ ∀ j, k < j → j < a → ¬ Arms ρ j

/-- No sample of the armed stretch is outside the fence around the first of them. -/
def StaysNearFirst (a : ℕ) : Prop :=
  ∀ n, ArmedThrough ρ a n → ∀ k s k₀ s₀, k < n → FirstSample ρ a k₀ s₀ → a < k → sampleAt ρ k = some s →
    s.outside cfg fn (s₀.x, s₀.y) = false

section Fence

variable {cfg fn start ρ}

/-- Between an arming and a tick up to which the node stays armed, it is armed. -/
theorem armed_through {a n : ℕ} (harms : Arms ρ a) (hthrough : ArmedThrough ρ a n) {k : ℕ} (hk : a < k) (hkn : k ≤ n) :
    armedAt ρ k = true := by
  induction k, hk using Nat.le_induction with
  | base =>
      have he : (ρ a).2 = .tick := harms.1
      rw [armedAt, he]
      exact harms.2.1
  | succ k hk ih =>
      have hbefore : armedAt ρ k = true := ih (by omega)
      rw [armedAt]
      split
      · rename_i he
        exact hthrough.armed k (by omega) (by omega) he
      · exact hbefore

/-- **The fence of an arming stays in force** while the node is armed. -/
theorem fence_through {a n : ℕ} (harms : Arms ρ a) (hthrough : ArmedThrough ρ a n) {k : ℕ} (hk : a < k) (hkn : k ≤ n) :
    fenceAt ρ k = poseAt ρ a := by
  induction k, hk using Nat.le_induction with
  | base =>
      obtain ⟨htick, hstate, hbefore⟩ := harms
      have he : (ρ a).2 = .tick := htick
      rw [fenceAt, he, hstate, hbefore]
      rfl
  | succ k hk ih =>
      have hsame : fenceAt ρ k = poseAt ρ a := ih (by omega)
      have harmed := armed_through harms hthrough hk (by omega : k ≤ n)
      rw [fenceAt]
      split
      · rw [harmed, Bool.not_true, Bool.and_false, if_neg (by simp)]
        exact hsame
      · exact hsame

/-- A pose is known as soon as there was a sample. -/
theorem pose_of_sample {k n : ℕ} (hk : k < n) (hs : IsSample ρ k) : poseAt ρ n ≠ none := by
  induction n, hk using Nat.le_induction with
  | base =>
      obtain ⟨s, hs⟩ := hs
      rw [poseAt, hs]
      exact Option.some_ne_none _
  | succ n hk ih =>
      rw [poseAt]
      split
      · exact Option.some_ne_none _
      · exact ih

theorem raised_iff (n : ℕ) :
    Raised cfg fn start ρ n ↔
      ∃ k, Fresh ρ (IsSample ρ) k n ∧ OutsideFence cfg fn ρ k ∧ ∀ j, k < j → j < n → ¬ Arms ρ j :=
  outside_iff n

/-- **After the arming tick** only samples since then raise the condition, against the fence of the arming. -/
theorem raised_after {a n : ℕ} (harms : Arms ρ a) (hthrough : ArmedThrough ρ a n) :
    (∃ m, a < m ∧ m ≤ n ∧ IsTick ρ m ∧ Raised cfg fn start ρ m) ↔
      ∃ k s c, a < k ∧ k < n ∧ sampleAt ρ k = some s ∧ poseAt ρ a = some c ∧ s.outside cfg fn c = true := by
  constructor
  · rintro ⟨m, ham, hmn, -, hraised⟩
    obtain ⟨k, ⟨hkm, -⟩, ⟨s, c, hs, hfence, hout⟩, hno⟩ := (raised_iff m).mp hraised
    have hak : a < k := by
      rcases Nat.lt_trichotomy k a with hlt | rfl | hlt
      · exact absurd harms (hno a hlt ham)
      · have he : (ρ k).2 = .tick := harms.1
        rw [sampleAt, he] at hs
        cases hs
      · exact hlt
    refine ⟨k, s, c, hak, by omega, hs, ?_, hout⟩
    rw [← fence_through harms hthrough hak (by omega)]
    exact hfence
  · rintro ⟨k, s, c, hak, hkn, hs, hpose, hout⟩
    -- The next tick after the sample is the check that finds it.
    have htick : ∃ m, k < m ∧ IsTick ρ m := ⟨n, hkn, hthrough.tick⟩
    classical
    obtain ⟨hkm, hm⟩ := Nat.find_spec htick
    have hmn : Nat.find htick ≤ n := Nat.find_min' htick ⟨hkn, hthrough.tick⟩
    have hfirst : ∀ j, k < j → j < Nat.find htick → ¬ IsTick ρ j := fun j hj hjm h => Nat.find_min htick hjm ⟨hj, h⟩
    refine ⟨Nat.find htick, hak.trans hkm, hmn, hm, (raised_iff _).mpr ⟨k, ⟨hkm, Or.inr hfirst⟩, ?_, ?_⟩⟩
    · refine ⟨s, c, hs, ?_, hout⟩
      rw [fence_through harms hthrough hak hkn.le]
      exact hpose
    · exact fun j hj hjm harms' => hfirst j hj hjm harms'.1

/-- The condition up to a tick: on the arming tick by the fence before, and after it by the fence of the arming. -/
theorem raised_through {a n : ℕ} (harms : Arms ρ a) (hthrough : ArmedThrough ρ a n) :
    (∃ m, a ≤ m ∧ m ≤ n ∧ IsTick ρ m ∧ Raised cfg fn start ρ m) ↔
      ¬ OldFenceClear cfg fn ρ a ∨
        ∃ k s c, a < k ∧ k < n ∧ sampleAt ρ k = some s ∧ poseAt ρ a = some c ∧ s.outside cfg fn c = true := by
  rw [← @raised_after cfg fn start ρ a n harms hthrough, OldFenceClear, not_not, ← @raised_iff cfg fn start ρ]
  constructor
  · rintro ⟨m, ham, hmn, htick, hraised⟩
    rcases Nat.lt_or_eq_of_le ham with hlt | rfl
    · exact Or.inr ⟨m, hlt, hmn, htick, hraised⟩
    · exact Or.inl hraised
  · rintro (hraised | ⟨m, ham, hmn, htick, hraised⟩)
    · exact ⟨a, le_rfl, hthrough.le, harms.1, hraised⟩
    · exact ⟨m, ham.le, hmn, htick, hraised⟩

theorem armedThrough_self {a : ℕ} (harms : Arms ρ a) : ArmedThrough ρ a a :=
  ⟨le_rfl, harms.1, fun m ham hma _ => le_antisymm ham hma ▸ harms.2.1⟩

/-- Before its first pose a node has no fence. -/
theorem oldFenceClear_of_no_pose {a : ℕ} (hpose : poseAt ρ a = none) : OldFenceClear cfg fn ρ a := by
  rintro ⟨k, ⟨hk, -⟩, hout, -⟩
  exact pose_of_sample hk hout.isSample hpose

/-- With a pose, the fence is right exactly when the old one does not decide the arming tick. -/
theorem geofenced_of_pose {a : ℕ} (harms : Arms ρ a) {c : ℚ × ℚ} (hpose : poseAt ρ a = some c) :
    (∀ n, ArmedThrough ρ a n → Geofenced cfg fn start ρ a n) ↔ OldFenceClear cfg fn ρ a := by
  have hcentre : ∀ c', Centre ρ a c' ↔ poseAt ρ a = some c' := fun c' =>
    ⟨fun h => h.elim id fun h => absurd (h.1.symm.trans hpose) (by simp), Or.inl⟩
  unfold Geofenced
  simp only [hcentre]
  constructor
  · intro hall
    by_contra hdirty
    obtain ⟨k, -, -, hak, hka, -⟩ := (hall a (armedThrough_self harms)).mp
      ((raised_through harms (armedThrough_self harms)).mpr (Or.inl hdirty))
    omega
  · intro hclear n hthrough
    rw [raised_through harms hthrough]
    simp only [hclear, not_true_eq_false, false_or]

/-- Without a pose the condition is never raised. -/
theorem geofenced_of_no_pose {a : ℕ} (harms : Arms ρ a) (hpose : poseAt ρ a = none) :
    (∀ n, ArmedThrough ρ a n → Geofenced cfg fn start ρ a n) ↔ StaysNearFirst cfg fn ρ a := by
  have hnever : ∀ n, ArmedThrough ρ a n → ¬ ∃ m, a ≤ m ∧ m ≤ n ∧ IsTick ρ m ∧ Raised cfg fn start ρ m := by
    intro n hthrough hraised
    rcases (raised_through harms hthrough).mp hraised with hdirty | ⟨k, s, c, -, -, -, hc, -⟩
    · exact hdirty (oldFenceClear_of_no_pose hpose)
    · exact absurd (hpose.symm.trans hc) (by simp)
  constructor
  · intro hall n hthrough k s k₀ s₀ hkn hfirst hak hs
    by_contra hout
    refine hnever n hthrough ((hall n hthrough).mpr ⟨k, s, (s₀.x, s₀.y), hak, hkn, hs, ?_, ?_⟩)
    · exact Or.inr ⟨hpose, k₀, s₀, hfirst, rfl⟩
    · simpa using hout
  · intro hnear n hthrough
    constructor
    · exact fun hraised => absurd hraised (hnever n hthrough)
    · rintro ⟨k, s, c, hak, hkn, hs, hcentre, hout⟩
      rcases hcentre with hc | ⟨-, k₀, s₀, hfirst, rfl⟩
      · exact absurd (hpose.symm.trans hc) (by simp)
      · rw [hnear n hthrough k s k₀ s₀ hkn hfirst hak hs] at hout
        exact nomatch hout

end Fence

variable {ρ}

/-- **The fence is where the car armed, exactly when** a pose was known and the old fence did not trip the arming tick, or
    no pose was known and the car stays near the first one by itself. -/
theorem geofenced_iff {a : ℕ} (harms : Arms ρ a) :
    (∀ n, ArmedThrough ρ a n → Geofenced cfg fn start ρ a n) ↔
      if poseAt ρ a = none then StaysNearFirst cfg fn ρ a else OldFenceClear cfg fn ρ a := by
  split
  · rename_i hpose
    exact geofenced_of_no_pose harms hpose
  · rename_i hpose
    obtain ⟨c, hc⟩ := Option.ne_none_iff_exists'.mp hpose
    exact geofenced_of_pose harms hc

/-- A finite message at rest at a point. -/
def restingAt (x : ℚ) : OdomMsg := ⟨some x, some 0, some 0, some 0, some 0, some 0, some 0⟩

/-- A car that arms, is switched off, is moved by 200 m and arms again. -/
def movedRun : ℕ → ℚ × SafetyEvent :=
  ofList
    [(0, .odom (restingAt 0)), (0, .status "READY"), (0, .tick), (0, .status "OFF"), (0, .tick), (0, .odom (restingAt 200)),
      (0, .status "READY"), (0, .tick)]
    (0, .tick)

theorem movedRun_arms : Arms movedRun 7 := by
  refine ⟨rfl, ?_, ?_⟩ <;> decide

theorem geofenced_iff_moved :
    (∀ n, ArmedThrough movedRun 2 n →
        Geofenced { wheelbaseM := 3 / 2, maxSpeedMps := 20 } nearZero 0 movedRun 2 n) ↔
      if poseAt movedRun 2 = none then StaysNearFirst { wheelbaseM := 3 / 2, maxSpeedMps := 20 } nearZero movedRun 2
      else OldFenceClear { wheelbaseM := 3 / 2, maxSpeedMps := 20 } nearZero movedRun 2 :=
  geofenced_iff _ _ _ ⟨rfl, by decide, by decide⟩

/-- The pose the car was moved to is outside the fence it left, which still decides when it arms again. -/
theorem movedRun_outside :
    ¬ OldFenceClear { wheelbaseM := 3 / 2, maxSpeedMps := 20 } nearZero movedRun 7 := by
  intro hclear
  refine hclear ⟨5, ⟨by decide, Or.inr fun j hj hj7 => ?_⟩, ⟨⟨200, 0, 0, 0, 0, 0, 0⟩, (0, 0), rfl, by decide, ?_⟩,
    fun j hj hj7 harms => ?_⟩
  · obtain rfl : j = 6 := by omega
    exact fun h => nomatch h
  · norm_num [Sample.outside, nearZero]
  · obtain rfl : j = 6 := by omega
    exact nomatch harms.1

/-- **The fence of an earlier arming trips a car that was moved and armed again.** -/
theorem not_geofenced_always :
    ¬ ∀ (cfg : SafetyConfig) (fn : SafetyMath) (start : ℚ) (ρ : ℕ → ℚ × SafetyEvent) (a : ℕ), Arms ρ a →
      ∀ n, ArmedThrough ρ a n → Geofenced cfg fn start ρ a n := by
  intro hall
  have hpose : poseAt movedRun 7 = some (200, 0) := by decide
  exact movedRun_outside ((geofenced_of_pose movedRun_arms hpose).mp (hall _ _ 0 movedRun 7 movedRun_arms))

end Lhre.Autonomy
