import Lhre.Vcu.Correctness.Freshness

/-!
# `Correctness.Overthrottle` — no torque with the brake over the throttle, or with implausible pedals

Both rules end in the torque gate: the brake-over-throttle latch closes it directly, and a lasting implausibility of
the pedal sensors raises a torque-cut fault, which also ends DRIVE. The gate is shared by the pedal, the launch and the
regen torque, so none of them gets past it.

The persistence timer of the implausibility is on the wrapping millisecond clock: a condition that holds for a whole
turn of the clock reads as if it had just begun.

## Contents
- **The pedals in a run.** `travelAt`, `BrakeOverPedal`, `PedalReleased` and `botLatched_succ`.
- **Implausible pedals.** `AppsDisagree` and `appsTimer_sampled`.
- **The torque cut.** `pedals_cut_torque`.
- **A turn of the clock.** `not_cut_after_turn`.
-/

namespace Lhre.Vcu

open Lhal Can Longhorn

/-! ## The pedals in a run -/

section Run

variable (env : Env) (ρ : ℕ → Tick) (n : ℕ)

/-- The parameters tick `n` reads the pedals with. -/
def pedalParams : Params := (runState env ρ n).P env

/-- The pedal sensors at tick `n`. -/
def pedalsAt : PedalInputs := (before env ρ n).pedalInputsAt env (ρ n).inputs

/-- The raw average APPS travel at tick `n`. -/
def travelAt : ℚ := averageTravel (pedalsAt env ρ n) (pedalParams env ρ n).apps

/-- Tick `n` has the brake pressed and the pedal over the on threshold. -/
def BrakeOverPedal : Prop :=
  (after env ρ n).live.pedals.brakePressed = true ∧ (pedalParams env ρ n).bse.botPedalOn < travelAt env ρ n

/-- Tick `n` has the pedal below the off threshold. -/
def PedalReleased : Prop := travelAt env ρ n < (pedalParams env ρ n).bse.botPedalOff

/-- The two pedal sensors deviate too much at tick `n`, or one is outside its window. -/
def AppsDisagree : Prop :=
  appsMismatch (pedalsAt env ρ n) (pedalParams env ρ n).apps = true ∨
    appsRange (pedalsAt env ρ n) (pedalParams env ρ n).apps = true

variable {env ρ n}

theorem pedals_succ : (runState env ρ (n + 1)).pedals = ((runState env ρ n).pedals.update (pedalsAt env ρ n)
    (ρ n).inputs.now (pedalParams env ρ n).apps (pedalParams env ρ n).bse).1 := by
  show (after env ρ n).pedals = _
  rw [after_eq, App.controlTick_pedals, (before_same env ρ n).pedals, before_P]
  rfl

theorem live_pedals_after : (after env ρ n).live.pedals = ((runState env ρ n).pedals.update (pedalsAt env ρ n)
    (ρ n).inputs.now (pedalParams env ρ n).apps (pedalParams env ρ n).bse).2 := by
  rw [after_eq, App.controlTick_live_pedals, (before_same env ρ n).pedals, before_P]
  rfl

/-- **The brake-over-throttle latch in a run.** -/
theorem botLatched_succ : (runState env ρ (n + 1)).pedals.botLatched =
    botLatch (runState env ρ n).pedals.botLatched (after env ρ n).live.pedals.brakePressed (travelAt env ρ n)
      (pedalParams env ρ n).bse := by
  rw [pedals_succ, live_pedals_after, PedalProcessor.update_botLatched]
  rfl

/-- The flag the torque gate reads is the latch. -/
theorem brakeOverThrottle_eq :
    (after env ρ n).live.pedals.brakeOverThrottle = (runState env ρ (n + 1)).pedals.botLatched := by
  rw [live_pedals_after, pedals_succ]
  rfl

/-- The latch holds from the tick that sets it until the pedal is released. -/
theorem botLatched_until_released {m : ℕ} (hmn : m ≤ n) (hset : BrakeOverPedal env ρ m)
    (hno : ∀ k, m < k → k ≤ n → ¬ PedalReleased env ρ k) : (runState env ρ (n + 1)).pedals.botLatched = true := by
  refine Trace.holds_until (P := fun k => (runState env ρ k).pedals.botLatched = true)
    (R := fun k => PedalReleased env ρ k) ?_ (Nat.succ_le_succ hmn) ?_ ?_
  · intro k hk hno
    show (runState env ρ (k + 1)).pedals.botLatched = true
    rw [botLatched_succ, hk]
    exact botLatch_hold hno
  · show (runState env ρ (m + 1)).pedals.botLatched = true
    rw [botLatched_succ, hset.1]
    exact botLatch_set hset.2
  · intro k hk hkn
    exact hno k hk (Nat.le_of_lt_succ hkn)

/-- A latched tick has a cause at or before it. -/
theorem brakeOverPedal_of_botLatched (h : (runState env ρ (n + 1)).pedals.botLatched = true) :
    ∃ m, m ≤ n ∧ BrakeOverPedal env ρ m ∧ ∀ k, m < k → k ≤ n → ¬ PedalReleased env ρ k := by
  have hboot : ¬ (runState env ρ 0).pedals.botLatched = true := by
    rintro ⟨⟩
  have hcause : ∀ k, (runState env ρ (k + 1)).pedals.botLatched = true →
      BrakeOverPedal env ρ k ∨ ((runState env ρ k).pedals.botLatched = true ∧ ¬ PedalReleased env ρ k) := by
    intro k hk
    rw [botLatched_succ] at hk
    exact botLatch_cause hk
  obtain ⟨m, hmn, hset, hno⟩ :=
    Trace.exists_cause (P := fun k => (runState env ρ k).pedals.botLatched = true) hboot hcause h
  refine ⟨m, Nat.le_of_lt_succ hmn, hset, ?_⟩
  intro k hmk hkn
  exact hno k hmk (Nat.lt_succ_of_le hkn)

/-- The latch closes the torque gate. -/
theorem torqueCommand_of_botLatched (h : (runState env ρ (n + 1)).pedals.botLatched = true) :
    (after env ρ n).torqueCommand = 0 := by
  by_contra htorque
  have hopen : (after env ρ n).live.pedals.brakeOverThrottle = false :=
    (App.torqueAllowed_iff.mp (App.torqueAllowed_of_torqueCommand htorque)).2.2.1
  rw [brakeOverThrottle_eq, h] at hopen
  cases hopen

/-! ## Implausible pedals -/

/-- The condition the implausibility timer is fed at tick `n`. -/
def appsCondition (env : Env) (ρ : ℕ → Tick) (n : ℕ) : Bool :=
  appsMismatch (pedalsAt env ρ n) (pedalParams env ρ n).apps ||
    appsRange (pedalsAt env ρ n) (pedalParams env ρ n).apps

theorem appsCondition_iff : appsCondition env ρ n = true ↔ AppsDisagree env ρ n := Bool.or_eq_true_iff

/-- The hold time of the implausibility timer at tick `n`. -/
def implausibleHold (env : Env) (ρ : ℕ → Tick) (n : ℕ) : U32 := (pedalParams env ρ n).apps.implausibleMs

theorem appsTimer_sampled {t : ℕ → ℕ} (hc : Clocked ρ t) :
    PersistenceTimer.Sampled (fun n => (runState env ρ n).pedals.appsImplausibleTimer) (appsCondition env ρ) t
      (implausibleHold env ρ) where
  fresh := rfl
  step n := by
    rw [pedals_succ, PedalProcessor.update_appsImplausibleTimer, hc.now]
    rfl
  mono := hc.mono

/-- An implausibility that has lasted its hold time is reported, unless it has lasted a turn of the clock. -/
theorem appsImplausible_of_disagree {t : ℕ → ℕ} (hc : Clocked ρ t) {m : ℕ} (hmn : m ≤ n)
    (hlong : t m + (implausibleHold env ρ n).toNat ≤ t n)
    (hall : ∀ k, m ≤ k → k ≤ n → AppsDisagree env ρ k)
    (hepisode : ∀ s, (∀ k, s ≤ k → k ≤ n → AppsDisagree env ρ k) → t n - t s < 2 ^ 32) :
    (after env ρ n).live.pedals.appsImplausibility = true := by
  have hheld : ∀ k, m ≤ k → k ≤ n → appsCondition env ρ k = true := by
    intro k hk hkn
    exact appsCondition_iff.mpr (hall k hk hkn)
  have hshort : ∀ s, (∀ k, s ≤ k → k ≤ n → appsCondition env ρ k = true) → t n - t s < 2 ^ 32 := by
    intro s hs
    apply hepisode s
    intro k hk hkn
    exact appsCondition_iff.mp (hs k hk hkn)
  have hfires := (@appsTimer_sampled env ρ t hc).fires hmn hheld hlong hshort
  rw [live_pedals_after, PedalProcessor.update_appsImplausible, hc.now]
  exact hfires

/-- A tick with the implausibility reported commands no torque and does not end in DRIVE. -/
theorem cut_of_appsImplausible (h : (after env ρ n).live.pedals.appsImplausibility = true) :
    (after env ρ n).torqueCommand = 0 ∧ (after env ρ n).sm.state ≠ .drive := by
  have hstate : (after env ρ n).sm.state ≠ .drive := by
    intro hdrive
    have hready := App.driveReady_of_drive hdrive
    have hagree : (after env ρ n).live.pedals.appsImplausibility = false :=
      (App.noCut_of_not_anyFault env _ _ hready.noCutFault).appsPlausible
    rw [h] at hagree
    cases hagree
  refine ⟨?_, hstate⟩
  by_contra htorque
  exact hstate (drive_of_torqueCommand htorque)

end Run

/-! ## The torque cut -/

/-- **Torque is cut with the brake over the throttle and with implausible pedals.** From a tick with the brake pressed
    and the pedal over the on threshold, torque is zero until the pedal goes below the off threshold, and the latch is
    never set without such a tick; and pedal sensors that disagree at every tick over the hold time leave the app
    without torque and out of DRIVE, unless they have disagreed for a whole turn of the clock. -/
theorem pedals_cut_torque (env : Env) (ρ : ℕ → Tick) :
    (∀ m n, m ≤ n → BrakeOverPedal env ρ m → (∀ k, m < k → k ≤ n → ¬ PedalReleased env ρ k) →
      (after env ρ n).torqueCommand = 0) ∧
    (∀ t m n, Clocked ρ t → m ≤ n → t m + (implausibleHold env ρ n).toNat ≤ t n →
      (∀ k, m ≤ k → k ≤ n → AppsDisagree env ρ k) →
      (∀ s, (∀ k, s ≤ k → k ≤ n → AppsDisagree env ρ k) → t n - t s < 2 ^ 32) →
      (after env ρ n).torqueCommand = 0 ∧ (after env ρ n).sm.state ≠ .drive) ∧
    (∀ n, (after env ρ n).live.pedals.brakeOverThrottle = true →
      ∃ m, m ≤ n ∧ BrakeOverPedal env ρ m ∧ ∀ k, m < k → k ≤ n → ¬ PedalReleased env ρ k) := by
  refine ⟨?_, ?_, ?_⟩
  · intro m n hmn hset hno
    have hlatched := botLatched_until_released hmn hset hno
    exact torqueCommand_of_botLatched hlatched
  · intro t m n hc hmn hlong hall hepisode
    have hreported := appsImplausible_of_disagree hc hmn hlong hall hepisode
    exact cut_of_appsImplausible hreported
  · intro n h
    rw [brakeOverThrottle_eq] at h
    exact brakeOverPedal_of_botLatched h

/-! ## Runs of the bench -/

/-- A run of bench ticks is clocked by their times. -/
theorem toTick_clocked {ticks : ℕ → BenchTick} (hmono : Monotone fun n => (ticks n).now) :
    Clocked (fun n => (ticks n).toTick) (fun n => (ticks n).now) :=
  ⟨fun _ => rfl, hmono⟩

/-- Into DRIVE; the pedal down with the brake still pressed; the brake let go; then the sensors disagree for
    102 ms. -/
def overTick (n : ℕ) : BenchTick :=
  (benchStart ++ ([{ now := 12, brake := 1000, pedal := 2000 }, { now := 15, pedal := 2000 },
    { now := 18, pedal2 := 1600 }, { now := 120, pedal2 := 1600 }] : List BenchTick)).getD n { now := 120 + 3 * n }

theorem overTick_mono : Monotone fun n => (overTick n).now := by
  apply monotone_nat_of_le_succ
  intro n
  match n with
  | 0 | 1 | 2 | 3 | 4 | 5 | 6 | 7 => decide
  | n + 8 => exact Nat.add_le_add_left (Nat.mul_le_mul_left 3 (Nat.le_succ _)) 120

/-- The run of those ticks. -/
def overRun (n : ℕ) : Tick := (overTick n).toTick

/-- The brake over the throttle cuts torque after the brake is let go; disagreeing sensors cut it and end DRIVE. -/
theorem pedals_cut_torque_bench : (after benchEnv overRun 5).torqueCommand = 0 ∧
    ((after benchEnv overRun 7).torqueCommand = 0 ∧ (after benchEnv overRun 7).sm.state ≠ .drive) ∧
    ∃ m, m ≤ 5 ∧ BrakeOverPedal benchEnv overRun m ∧ ∀ k, m < k → k ≤ 5 → ¬ PedalReleased benchEnv overRun k := by
  have hover : BrakeOverPedal benchEnv overRun 4 := by
    unfold BrakeOverPedal
    decide +kernel
  refine ⟨?_, ?_, ?_⟩
  · apply (pedals_cut_torque benchEnv overRun).1 4 5 (by decide) hover
    intro k hk hk5
    unfold PedalReleased
    interval_cases k
    decide +kernel
  · refine (pedals_cut_torque benchEnv overRun).2.1 (fun n => (overTick n).now) 6 7 (toTick_clocked overTick_mono)
      (by decide) (by decide) ?_ ?_
    · intro k hk hk7
      unfold AppsDisagree
      interval_cases k <;> decide +kernel
    · intro s _
      exact (Nat.sub_le _ _).trans_lt (by decide)
  · exact (pedals_cut_torque benchEnv overRun).2.2 5 (by decide +kernel)

/-! ## A turn of the clock -/

/-- The pedal sensors disagree from boot on. After a turn of the millisecond clock the driver starts the car and
    presses the pedal. -/
def turnTick (n : ℕ) : BenchTick :=
  [{ now := 0, brake := 1000, pedal2 := 1000, rtdPressed := false },
   { now := 3, brake := 1000, pedal2 := 1000, rtdPressed := false },
   { now := 2 ^ 31, brake := 1000, pedal2 := 1000, rtdPressed := false },
   { now := 2 ^ 32, brake := 1000, pedal2 := 1000, rtdPressed := false },
   { now := 2 ^ 32 + 3, brake := 1000, pedal2 := 1000 },
   { now := 2 ^ 32 + 6, pedal2 := 1600 }].getD n { now := 2 ^ 32 + 3 * n }

theorem turnTick_mono : Monotone fun n => (turnTick n).now := by
  apply monotone_nat_of_le_succ
  intro n
  match n with
  | 0 | 1 | 2 | 3 | 4 | 5 => decide
  | n + 6 => exact Nat.add_le_add_left (Nat.mul_le_mul_left 3 (Nat.le_succ _)) (2 ^ 32)

/-- The run of those ticks. -/
def turnRun (n : ℕ) : Tick := (turnTick n).toTick

/-- **The timer turns with the clock.** It is not so that pedal sensors that disagree at every tick over the hold time
    always leave the app without torque and out of DRIVE: after a turn of the clock neither holds. -/
theorem not_cut_after_turn : ¬ ∀ (env : Env) (ρ : ℕ → Tick) (t : ℕ → ℕ) (m n : ℕ), Clocked ρ t → m ≤ n →
    t m + (implausibleHold env ρ n).toNat ≤ t n → (∀ k, m ≤ k → k ≤ n → AppsDisagree env ρ k) →
    (after env ρ n).torqueCommand = 0 ∧ (after env ρ n).sm.state ≠ .drive := by
  intro h
  have hdisagree : ∀ k, 0 ≤ k → k ≤ 5 → AppsDisagree benchEnv turnRun k := by
    intro k hk hk5
    unfold AppsDisagree
    interval_cases k <;> decide +kernel
  have hcut := h benchEnv turnRun (fun n => (turnTick n).now) 0 5 (toTick_clocked turnTick_mono) (by decide)
    (by decide) hdisagree
  exact absurd hcut.1 (by decide +kernel)

end Lhre.Vcu
