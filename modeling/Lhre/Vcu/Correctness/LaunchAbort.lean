import Lhre.Vcu.Correctness.Overthrottle

/-!
# `Correctness.LaunchAbort` — how long a launch abort holds torque at zero

An abort inhibits the launch ramp, and with torque allowed the inhibit lasts until the pedal is released. But a tick
without torque drops the ramp's state, inhibit included. So an abort holds for as long as torque, once cut after it, is
not allowed again before the pedal is released; when it is, the driver's torque is back with the pedal still down.

## Contents
- **The ramp in a run.** `rampBefore`, `driverTorque` and `torqueCommand_eq`.
- **Aborts.** `AbortsAt` and `inhibited_of_abort`.
- **How long an abort holds.** `launch_abort_holds`, and `not_launch_abort_holds` on when it does not.
-/

namespace Lhre.Vcu

open Lhal Can Longhorn

/-! ## The ramp in a run -/

section Run

variable (env : Env) (ρ : ℕ → Tick) (n : ℕ)

/-- The launch parameters in use at tick `n`. -/
def launchParams : LaunchParams := ((after env ρ n).P env).launch

/-- The filtered pedal travel at tick `n`. -/
def pedalTravelAt : ℚ := (after env ρ n).live.pedals.pedalTravel

/-- The motor speed at tick `n`. -/
def motorRpmAt : ℚ := ((after env ρ n).rx.motorRpm (ρ n).inputs.now).1

/-- The launch ramp as tick `n` hands it to its update: armed on request, aborted while the wheel data is invalid. -/
def rampBefore : LaunchRamp :=
  ({ after env ρ n with
      launch := (runState env ρ n).launch
      launchRequest := (before env ρ n).launchRequest } : App).launchBeforeUpdate env
    (after env ρ n).torqueAllowed (motorRpmAt env ρ n) (after env ρ n).live.wheelControl

/-- The ramp's update at tick `n`. -/
def rampUpdateAt : LaunchRamp × ℚ :=
  (rampBefore env ρ n).update (after env ρ n).live.wheelControl.positiveNm (after env ρ n).torqueAllowed
    (after env ρ n).live.pedals.brakeForRtd (pedalTravelAt env ρ n) (motorRpmAt env ρ n)
    ((before env ρ n).dtMs (ρ n).inputs.now) (launchParams env ρ n)

/-- The positive torque tick `n` lets the driver have. -/
def driverTorque : ℚ :=
  if (after env ρ n).torqueAllowed then
    if (launchParams env ρ n).enabled && !(after env ρ n).live.wheelControl.valid then 0
    else (rampUpdateAt env ρ n).2
  else 0

variable {env ρ n}

theorem rampUpdateAt_eq : rampUpdateAt env ρ n = (before env ρ n).rampTick env (ρ n).inputs := by
  unfold rampUpdateAt rampBefore launchParams pedalTravelAt motorRpmAt
  rw [← (before_same env ρ n).launch]
  rfl

theorem launch_succ : (runState env ρ (n + 1)).launch = (rampUpdateAt env ρ n).1 := by
  show (after env ρ n).launch = _
  rw [rampUpdateAt_eq, after_eq, App.controlTick_launch]

/-- **The torque command** is what the arbitration makes of the driver's torque. -/
theorem torqueCommand_eq : ∃ regen bse2Psi, (after env ρ n).torqueCommand =
    arbitrate ((after env ρ n).P env) (after env ρ n).torqueAllowed regen bse2Psi (driverTorque env ρ n) := by
  obtain ⟨regen, bse2Psi, h⟩ := (before env ρ n).controlTick_positive env (ρ n).inputs
  refine ⟨regen, bse2Psi, ?_⟩
  rw [← rampUpdateAt_eq, ← after_eq] at h
  rw [h]
  unfold driverTorque
  cases hallowed : (after env ρ n).torqueAllowed with
  | true => rfl
  | false => rw [arbitrate_of_not_allowed rfl, arbitrate_of_not_allowed rfl]

/-- Without torque for the driver the command is regen torque or nothing. -/
theorem torqueCommand_nonpos (hlimit : 0 ≤ ((after env ρ n).P env).inverter.torqueLimitNm)
    (h : driverTorque env ρ n = 0) : (after env ρ n).torqueCommand ≤ 0 := by
  obtain ⟨regen, bse2Psi, hcommand⟩ := @torqueCommand_eq env ρ n
  rw [hcommand, h]
  unfold arbitrate
  split
  · split
    · exact clamp_le (by linarith)
    · rw [clamp_zero hlimit, ite_self]
  · exact le_refl 0

/-! ## Aborts -/

variable (env ρ n) in
/-- Tick `n` aborts a launch that is armed or running: its wheel data is invalid, or with torque allowed the ramp's
    update meets an abort condition or times out. -/
def AbortsAt : Prop :=
  ((runState env ρ n).launch.armed = true ∨ (runState env ρ n).launch.running = true) ∧
    ((after env ρ n).live.wheelControl.valid = false ∨
      ((after env ρ n).torqueAllowed = true ∧
        (rampBefore env ρ n).stops (after env ρ n).live.pedals.brakeForRtd (pedalTravelAt env ρ n)
          (motorRpmAt env ρ n) ((before env ρ n).dtMs (ρ n).inputs.now) (launchParams env ρ n) = true))

/-- Invalid wheel data inhibits the ramp before its update. -/
theorem rampBefore_of_invalid (henabled : (launchParams env ρ n).enabled = true)
    (h : (after env ρ n).live.wheelControl.valid = false) : (rampBefore env ρ n).inhibited = true := by
  have henabled' : ((after env ρ n).P env).launch.enabled = true := henabled
  have habort : (((after env ρ n).P env).launch.enabled && !(after env ρ n).live.wheelControl.valid) = true := by
    rw [henabled', h]
    rfl
  exact congrArg LaunchRamp.inhibited (if_pos habort)

/-- With the pedal down, an inhibited ramp reaches its update inhibited: it cannot be armed. -/
theorem rampBefore_of_inhibited (hpedal : 0 < pedalTravelAt env ρ n)
    (h : (runState env ρ n).launch.inhibited = true) : (rampBefore env ρ n).inhibited = true := by
  have hpedal' : (after env ρ n).live.pedals.pedalTravel ≠ 0 := ne_of_gt hpedal
  unfold rampBefore App.launchBeforeUpdate
  dsimp only
  rw [LaunchRamp.arm_of_pedal hpedal', ite_self]
  split
  · rfl
  · exact h

/-- **An abort inhibits, and an inhibit lasts.** With torque allowed and the pedal down, a tick that starts inhibited or
    aborts a launch gives the driver nothing and ends inhibited. -/
theorem inhibited_of_abort (henabled : (launchParams env ρ n).enabled = true) (hpedal : 0 < pedalTravelAt env ρ n)
    (hallowed : (after env ρ n).torqueAllowed = true)
    (h : (runState env ρ n).launch.inhibited = true ∨ AbortsAt env ρ n) :
    (runState env ρ (n + 1)).launch.inhibited = true ∧ driverTorque env ρ n = 0 := by
  -- an abort inhibits the ramp at once, or stops it in this update
  have hramp : (rampBefore env ρ n).inhibited = true ∨
      (rampBefore env ρ n).stops (after env ρ n).live.pedals.brakeForRtd (pedalTravelAt env ρ n)
        (motorRpmAt env ρ n) ((before env ρ n).dtMs (ρ n).inputs.now) (launchParams env ρ n) = true := by
    rcases h with hinhibited | ⟨-, hinvalid | ⟨-, hstops⟩⟩
    · exact Or.inl (rampBefore_of_inhibited hpedal hinhibited)
    · exact Or.inl (rampBefore_of_invalid henabled hinvalid)
    · exact Or.inr hstops
  have hupdate : rampUpdateAt env ρ n = (rampBefore env ρ n).update (after env ρ n).live.wheelControl.positiveNm true
      (after env ρ n).live.pedals.brakeForRtd (pedalTravelAt env ρ n) (motorRpmAt env ρ n)
      ((before env ρ n).dtMs (ρ n).inputs.now) (launchParams env ρ n) := by
    unfold rampUpdateAt
    rw [hallowed]
  obtain ⟨hinhibited, hzero⟩ :
      (rampUpdateAt env ρ n).1.inhibited = true ∧ (rampUpdateAt env ρ n).2 = 0 := by
    rw [hupdate]
    exact LaunchRamp.update_inhibited henabled hpedal hramp
  refine ⟨?_, ?_⟩
  · rw [launch_succ]
    exact hinhibited
  · unfold driverTorque
    rw [if_pos hallowed]
    split
    · rfl
    · exact hzero

/-- A tick without torque drops the ramp, with its inhibit, and gives the driver nothing. -/
theorem dropped_of_not_allowed (h : (after env ρ n).torqueAllowed = false) :
    (runState env ρ (n + 1)).launch.inhibited = false ∧ driverTorque env ρ n = 0 := by
  refine ⟨?_, ?_⟩
  · rw [launch_succ]
    unfold rampUpdateAt
    rw [h, LaunchRamp.update_not_drive]
  · unfold driverTorque
    rw [h]
    rfl

/-! ## How long an abort holds -/

/-- The pedal is down, with launch enabled, at every tick from `b` to `n`. -/
def PedalHeld (env : Env) (ρ : ℕ → Tick) (b n : ℕ) : Prop :=
  ∀ k, b ≤ k → k ≤ n → (launchParams env ρ k).enabled = true ∧ 0 < pedalTravelAt env ρ k

/-- Torque that is cut at or after tick `b` stays cut up to tick `n`. -/
def CutStays (env : Env) (ρ : ℕ → Tick) (b n : ℕ) : Prop :=
  ∀ j k, b ≤ j → j < k → k ≤ n → (after env ρ j).torqueAllowed = false → (after env ρ k).torqueAllowed = false

/-- While torque stays allowed, the inhibit lasts from the abort on. -/
theorem inhibited_since_abort {b : ℕ} (hbn : b ≤ n) (habort : AbortsAt env ρ b) (hheld : PedalHeld env ρ b n)
    (hallowed : ∀ k, b ≤ k → k ≤ n → (after env ρ k).torqueAllowed = true) :
    (runState env ρ (n + 1)).launch.inhibited = true ∧ driverTorque env ρ n = 0 := by
  induction n, hbn using Nat.le_induction with
  | base =>
      obtain ⟨henabled, hpedal⟩ := hheld b le_rfl le_rfl
      exact inhibited_of_abort henabled hpedal (hallowed b le_rfl le_rfl) (Or.inr habort)
  | succ n hbn ih =>
      obtain ⟨henabled, hpedal⟩ := hheld (n + 1) (by omega) le_rfl
      have hheld' : PedalHeld env ρ b n := by
        intro k hbk hkn
        exact hheld k hbk (Nat.le_succ_of_le hkn)
      have hallowed' : ∀ k, b ≤ k → k ≤ n → (after env ρ k).torqueAllowed = true := by
        intro k hbk hkn
        exact hallowed k hbk (Nat.le_succ_of_le hkn)
      have hbefore := ih hheld' hallowed'
      exact inhibited_of_abort henabled hpedal (hallowed (n + 1) (by omega) le_rfl) (Or.inl hbefore.1)

/-- **A launch abort holds torque at zero until the pedal is released**, as long as torque that is cut after the abort
    is not allowed again before. The driver gets no torque, so the command is at most regen torque. -/
theorem launch_abort_holds {b : ℕ} (hbn : b ≤ n) (habort : AbortsAt env ρ b) (hheld : PedalHeld env ρ b n)
    (hcut : CutStays env ρ b n) : driverTorque env ρ n = 0 ∧
      (0 ≤ ((after env ρ n).P env).inverter.torqueLimitNm → (after env ρ n).torqueCommand ≤ 0) := by
  have hzero : driverTorque env ρ n = 0 := by
    by_cases hallowed : (after env ρ n).torqueAllowed = true
    · -- torque has been allowed throughout, since a cut would have stayed
      have hsince : ∀ k, b ≤ k → k ≤ n → (after env ρ k).torqueAllowed = true := by
        intro k hbk hkn
        by_contra hk
        rcases Nat.lt_or_eq_of_le hkn with hlt | rfl
        · rw [hcut k n hbk hlt le_rfl (Bool.eq_false_iff.mpr hk)] at hallowed
          cases hallowed
        · exact hk hallowed
      exact (inhibited_since_abort hbn habort hheld hsince).2
    · exact (dropped_of_not_allowed (Bool.eq_false_iff.mpr hallowed)).2
  refine ⟨hzero, ?_⟩
  intro hlimit
  exact torqueCommand_nonpos hlimit hzero

end Run

/-! ## Runs of the bench -/

/-- The bench in acceleration mode with launch enabled and the pedal filtered. -/
def launchEnv : Env :=
  { benchEnv with
    initialParams := some { benchParams with apps := {}, eventMode := .acceleration, launch := { enabled := true } } }

/-- The wheel speed frames of a car at rest. -/
def wheelFrames : List CanFrame := [1026, 1027, 1028, 1029].map fun id => dataFrame id [0, 0, 0, 0, 0, 0, 0, 0]

/-- Into DRIVE, armed on the brake, the pedal down, and at tick 7 a light brake that aborts the launch. -/
def launchTicks : List BenchTick :=
  benchStart ++
    [{ now := 12, brake := 1000, tasks := [.launchCommand] }, { now := 15, pedal := 3700 },
     { now := 18, pedal := 3700 }, { now := 21, pedal := 3700, brake := 520 }]

/-- A bench run of a launch that is aborted, with wheel data throughout. -/
def launchRun (rest : List BenchTick) (n : ℕ) : Tick :=
  let τ := ((launchTicks ++ rest).getD n { now := 3 * n }).toTick
  { τ with inputs := { τ.inputs with dataFrames := wheelFrames } }

/-- The driver lets go of the brake and keeps the pedal down. -/
def heldRun : ℕ → Tick := launchRun [{ now := 24, pedal := 3700 }, { now := 27, pedal := 3700 }]

/-- The abort holds while the pedal stays down, with torque allowed. -/
theorem launch_abort_holds_bench : (after launchEnv heldRun 9).torqueAllowed = true ∧
    driverTorque launchEnv heldRun 9 = 0 ∧
    (0 ≤ ((after launchEnv heldRun 9).P launchEnv).inverter.torqueLimitNm →
      (after launchEnv heldRun 9).torqueCommand ≤ 0) := by
  refine ⟨by decide +kernel, launch_abort_holds (b := 7) (by decide) ?_ ?_ ?_⟩
  · unfold AbortsAt
    decide +kernel
  · intro k hk hk9
    interval_cases k <;> decide +kernel
  · intro j k hj hjk hk9 hcut
    exfalso
    have hj9 : j < 9 := by omega
    interval_cases j <;> revert hcut <;> decide +kernel

/-- The driver brakes harder, which latches the brake over the throttle, and then lets go of both pedals: the latch
    releases on the raw travel while the filtered travel is still positive. -/
def recutRun : ℕ → Tick := launchRun [{ now := 24, pedal := 3700, brake := 1000 }, { now := 27 }]

/-- **A cut in between ends the hold.** It is not so that after a launch abort there is no positive torque until the
    pedal is released: torque that is cut and allowed again is back with the pedal still down. -/
theorem not_launch_abort_holds : ¬ ∀ (env : Env) (ρ : ℕ → Tick) (b n : ℕ), b ≤ n → AbortsAt env ρ b →
    PedalHeld env ρ b n → 0 ≤ ((after env ρ n).P env).inverter.torqueLimitNm → (after env ρ n).torqueCommand ≤ 0 := by
  intro h
  have habort : AbortsAt launchEnv recutRun 7 := by
    unfold AbortsAt
    decide +kernel
  have hpedal : PedalHeld launchEnv recutRun 7 9 := by
    intro k hk hk9
    interval_cases k <;> decide +kernel
  have hheld := h launchEnv recutRun 7 9 (by decide) habort hpedal (by decide)
  exact absurd hheld (by decide +kernel)

end Lhre.Vcu
