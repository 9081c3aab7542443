import Lhre.Vcu.Correctness.TorqueGate

/-!
# `Correctness.DriveEntry` — how DRIVE is entered, and the state that is never left

DRIVE is entered from RTD_WAIT only, on a press edge of the RTD switch and with every drive precondition met in
that tick; a press edge needs a tick before it at which the switch was released. BSPD_TRIPPED is entered from any
state on the tick that reads the latch, and never left.

## Contents
- **The RTD switch in a run.** `rtdEdge`, `released_before_edge`, `rtdSwitch_held`.
- **Entering DRIVE.** `DriveReady`, `drive_entry`, and `entry_between`: a run that is out of DRIVE and later in it
  has entered it in between.
- **A fresh press.** `drive_needs_press`.
- **The BSPD latch.** `bspd_absorbing`.
-/

namespace Lhre.Vcu

open Lhal Can Longhorn

section Run

variable (env : Env) (ρ : ℕ → Tick)

/-! ## The RTD switch in a run -/

/-- The raw RTD switch at tick `n`. -/
def rtdRaw (n : ℕ) : Bool := (readDigitalInputs (ρ n).inputs.pins).rtdPressed

/-- The debounced RTD switch at tick `n`. -/
def rtdPressed (n : ℕ) : Bool := (after env ρ n).live.inputs.rtdPressed

/-- The switch and the press edge tick `n` computes. -/
def rtdUpdate (n : ℕ) : EdgeButton × Bool :=
  (runState env ρ n).rtdSwitch.update (rtdRaw ρ n) (ρ n).inputs.now ((runState env ρ n).P env).digital.rtdDebounceMs

/-- A debounced press of the RTD switch begins at tick `n`. -/
def rtdEdge (n : ℕ) : Bool := (rtdUpdate env ρ n).2

theorem rtdSwitch_succ (n : ℕ) : (runState env ρ (n + 1)).rtdSwitch = (rtdUpdate env ρ n).1 := by
  show (after env ρ n).rtdSwitch = _
  rw [after_eq, App.controlTick_rtdSwitch, (before_same env ρ n).rtdSwitch, before_P]
  rfl

theorem rtdPressed_eq (n : ℕ) : rtdPressed env ρ n = (rtdUpdate env ρ n).1.last := by
  unfold rtdPressed
  rw [after_eq, App.controlTick_rtdPressed, ← after_eq]
  show (runState env ρ (n + 1)).rtdSwitch.last = _
  rw [rtdSwitch_succ]

variable {env ρ}

/-- **A press edge follows a release.** The switch is pressed at the tick of an edge and was released at the
    tick before it; the first tick has no edge. -/
theorem released_before_edge {n : ℕ} (h : rtdEdge env ρ n = true) :
    ∃ r, n = r + 1 ∧ rtdPressed env ρ r = false ∧ rtdPressed env ρ n = true := by
  obtain ⟨hlast, hpressed⟩ := EdgeButton.edge_last h
  cases n with
  | zero => cases hlast
  | succ r =>
      refine ⟨r, rfl, ?_, ?_⟩
      · rw [rtdPressed_eq, ← rtdSwitch_succ]
        exact hlast
      · rw [rtdPressed_eq]
        exact hpressed

/-- **A held switch stays pressed.** Once the debouncer reports the switch pressed, it does so for as long as
    the raw switch reads pressed. -/
theorem rtdSwitch_held {m n : ℕ} (hmn : m ≤ n)
    (hm : (runState env ρ m).rtdSwitch.debouncer.value = true)
    (hraw : ∀ k, m ≤ k → k < n → rtdRaw ρ k = true) :
    (runState env ρ n).rtdSwitch.debouncer.value = true := by
  induction n, hmn using Nat.le_induction with
  | base => exact hm
  | succ k hk ih =>
      have hvalue : (runState env ρ k).rtdSwitch.debouncer.value = true := by
        apply ih
        intro j hj hjk
        exact hraw j hj (Nat.lt_succ_of_lt hjk)
      rw [rtdSwitch_succ, rtdUpdate, EdgeButton.update_debouncer, hraw k hk (Nat.lt_succ_self k), ← hvalue]
      rw [Debouncer.update_value_self]

/-! ## Entering DRIVE -/

/-- The drive preconditions as the app `a` found them at `now`, under the parameters `P`. -/
structure App.DriveReady (a : App) (P : Params) (now : U32) : Prop where
  hvcFresh : a.rx.contactorStatus.fresh now = true
  energized : HvcState.ofRaw a.rx.contactorStatus.msg.hvcStateMachine = .energized
  contactorsClosed : a.rx.contactorStatus.msg.positiveHvContactor = true ∧
    a.rx.contactorStatus.msg.negativeHvContactor = true
  loopClosed : a.shutdownLoop.closed = true
  noCutFault : anyFault a.faults kTorqueCutFaults = false
  inverterFresh : a.rx.inverterFresh now = true
  inverterOk : a.rx.inverterFaulted now = false
  bse3Fresh : a.rx.bse3.fresh now = true

/-- The driver's side of an RTD request as the app `a` found it under the parameters `P`. -/
structure App.DriverReady (a : App) (P : Params) : Prop where
  bse1InWindow : P.bse.windowLowV ≤ a.live.analog.bse1.sourceV ∧ a.live.analog.bse1.sourceV ≤ P.bse.windowHighV
  bse2InWindow : P.bse.windowLowV ≤ a.live.analog.bse2.sourceV ∧ a.live.analog.bse2.sourceV ≤ P.bse.windowHighV
  bseNoFault : a.live.pedals.bse1Fault = false ∧ a.live.pedals.bse2Fault = false
  braked : P.bse.brakeLightPsi ≤ a.live.pedals.bsePsiFiltered
  pedalReleased : a.live.pedals.pedalTravel ≤ P.drive.rtdMaxPedal

/-- A tick that ends in DRIVE had the drive preconditions, whether it entered DRIVE or stayed there. -/
theorem App.driveReady_of_drive {a : App} {x : TickInputs} (h : (a.controlTick env x).1.sm.state = .drive) :
    (a.controlTick env x).1.DriveReady (a.P env) x.now := by
  rw [App.controlTick_state] at h
  have hready := conditions_of_nextState_drive h
  rw [App.tickStateInputs_eq] at hready
  obtain ⟨henergized, hloop, hcut, hinverter, hpdu⟩ := StateInputs.readyForRtd_iff.mp hready
  obtain ⟨hfresh, hstate, hclosed⟩ := StateInputs.energized_iff.mp henergized
  have hclosed' := Bool.and_eq_true_iff.mp hclosed
  have hinverter' := Bool.and_eq_true_iff.mp hinverter
  exact ⟨hfresh, hstate, hclosed', hloop, hcut, hinverter'.1, by simpa using hinverter'.2, hpdu⟩

/-- The driver's side of an RTD request, read off the pedal outputs. -/
theorem App.driverReady_of_request {a : App} {x : TickInputs}
    (h : (a.tickStateInputs env x).rtdRequest = true) :
    (a.controlTick env x).1.DriverReady (a.P env) := by
  rw [App.tickStateInputs_eq] at h
  obtain ⟨-, hvalid, hbrake, hpedal⟩ := StateInputs.rtdRequest_iff.mp h
  simp only [Bool.and_eq_true, Bool.not_eq_true'] at hvalid
  obtain ⟨⟨⟨⟨⟨hf1, hf2⟩, hd1⟩, hd2⟩, ho1⟩, ho2⟩ := hvalid
  simp only [App.controlTick_live_pedals] at hd1 hd2 ho1 ho2 hbrake
  -- the window flags and the brake level are comparisons of the tick's readings
  have hd1' := of_decide_eq_false hd1
  have hd2' := of_decide_eq_false hd2
  have ho1' := of_decide_eq_false ho1
  have ho2' := of_decide_eq_false ho2
  refine ⟨?_, ?_, ⟨hf1, hf2⟩, ?_, of_decide_eq_true hpedal⟩
  · rw [App.controlTick_live_analog]
    exact ⟨not_lt.mp hd1', not_lt.mp ho1'⟩
  · rw [App.controlTick_live_analog]
    exact ⟨not_lt.mp hd2', not_lt.mp ho2'⟩
  · rw [App.controlTick_live_pedals]
    exact of_decide_eq_true hbrake

/-- The press edge of a tick is the one its state inputs carry. -/
theorem tickStateInputs_rtdEdge (n : ℕ) :
    ((before env ρ n).tickStateInputs env (ρ n).inputs).rtdEdge = rtdEdge env ρ n := by
  rw [App.tickStateInputs_eq]
  unfold rtdEdge rtdUpdate
  rw [← (before_same env ρ n).rtdSwitch, ← before_P]
  rfl

/-- **Entering DRIVE.** A tick that ends in DRIVE and did not start there started in RTD_WAIT, and in it every
    drive precondition held, the driver was ready, and the RTD switch had a press edge. -/
theorem drive_entry {n : ℕ} (hbefore : (runState env ρ n).sm.state ≠ .drive)
    (hdrive : (after env ρ n).sm.state = .drive) :
    (runState env ρ n).sm.state = .rtdWait ∧
      (after env ρ n).DriveReady ((runState env ρ n).P env) (ρ n).inputs.now ∧
      (after env ρ n).DriverReady ((runState env ρ n).P env) ∧ rtdEdge env ρ n = true := by
  have hnext := hdrive
  rw [after_state] at hnext
  obtain ⟨hwait, -, hrequest⟩ := of_nextState_drive hbefore hnext
  refine ⟨hwait, ?_, ?_, ?_⟩
  · rw [← before_P]
    exact App.driveReady_of_drive hdrive
  · rw [← before_P]
    exact App.driverReady_of_request hrequest
  · rw [← tickStateInputs_rtdEdge]
    exact (StateInputs.rtdRequest_iff.mp hrequest).1

/-- A run that is out of DRIVE after one tick and in DRIVE after a later one entered DRIVE in between. -/
theorem entry_between {x n : ℕ} (hxn : x ≤ n) (hx : (after env ρ x).sm.state ≠ .drive)
    (hn : (after env ρ n).sm.state = .drive) :
    ∃ e, x < e ∧ e ≤ n ∧ (runState env ρ e).sm.state ≠ .drive ∧ (after env ρ e).sm.state = .drive := by
  induction n, hxn using Nat.le_induction with
  | base => exact absurd hn hx
  | succ k hk ih =>
      by_cases hdrive : (after env ρ k).sm.state = .drive
      · obtain ⟨e, hxe, hek, hbefore, hafter⟩ := ih hdrive
        exact ⟨e, hxe, by omega, hbefore, hafter⟩
      · exact ⟨k + 1, by omega, Nat.le_refl _, hdrive, hn⟩

/-- Torque at the end of a tick means that the tick ended in DRIVE. -/
theorem drive_of_torqueCommand {n : ℕ} (h : (after env ρ n).torqueCommand ≠ 0) :
    (after env ρ n).sm.state = .drive :=
  (App.torqueAllowed_iff.mp (App.torqueAllowed_of_torqueCommand h)).1

/-! ## A fresh press -/

/-- Out of DRIVE, with the debouncer pressed and the raw switch held since, the app stays out of DRIVE. -/
theorem not_drive_of_held {x n : ℕ} (hxn : x ≤ n) (hx : (after env ρ x).sm.state ≠ .drive)
    (hpressed : (runState env ρ (x + 1)).rtdSwitch.debouncer.value = true)
    (hraw : ∀ k, x < k → k ≤ n → rtdRaw ρ k = true) : (after env ρ n).sm.state ≠ .drive := by
  intro hn
  obtain ⟨e, hxe, hen, hbefore, hafter⟩ := entry_between hxn hx hn
  obtain ⟨r, rfl, hreleased, -⟩ := released_before_edge (drive_entry hbefore hafter).2.2.2
  have hheld : (runState env ρ (r + 1)).rtdSwitch.debouncer.value = true := by
    apply rtdSwitch_held (by omega) hpressed
    intro k hk hkr
    exact hraw k (by omega) (by omega)
  rw [rtdSwitch_succ] at hheld
  rw [rtdPressed_eq] at hreleased
  exact absurd (hheld.symm.trans hreleased) (by simp)

variable (env ρ)

/-- **DRIVE needs a fresh press of the RTD switch.** Whenever a run enters DRIVE it does so from RTD_WAIT, with
    every drive precondition and the driver's side met in that tick, on a press edge with a released tick between
    the edge before it, or boot, and it; out of DRIVE there is no torque until the switch has been released and
    then pressed; and a switch held since boot, or since a tick out of DRIVE at which it was debounced as pressed,
    keeps the app out of DRIVE. -/
theorem drive_needs_press :
    (∀ n, (runState env ρ n).sm.state ≠ .drive → (after env ρ n).sm.state = .drive →
      (runState env ρ n).sm.state = .rtdWait ∧
      (after env ρ n).DriveReady ((runState env ρ n).P env) (ρ n).inputs.now ∧
      (after env ρ n).DriverReady ((runState env ρ n).P env) ∧ rtdEdge env ρ n = true ∧
      ∃ r, r < n ∧ rtdPressed env ρ r = false ∧ ∀ p, p < n → rtdEdge env ρ p = true → p < r) ∧
    (∀ x n, x ≤ n → (after env ρ x).sm.state ≠ .drive → (after env ρ n).torqueCommand ≠ 0 →
      ∃ r e, x ≤ r ∧ r < e ∧ e ≤ n ∧ rtdPressed env ρ r = false ∧ rtdEdge env ρ e = true) ∧
    (∀ n, (∀ k, k ≤ n → rtdRaw ρ k = true) → (after env ρ n).sm.state ≠ .drive) ∧
    (∀ x n, x ≤ n → (after env ρ x).sm.state ≠ .drive → rtdPressed env ρ x = true →
      (∀ k, x < k → k ≤ n → rtdRaw ρ k = true) → (after env ρ n).sm.state ≠ .drive) := by
  refine ⟨?_, ?_, ?_, ?_⟩
  · intro n hbefore hdrive
    obtain ⟨hwait, hready, hdriver, hedge⟩ := drive_entry hbefore hdrive
    obtain ⟨r, rfl, hreleased, -⟩ := released_before_edge hedge
    refine ⟨hwait, hready, hdriver, hedge, r, Nat.lt_succ_self r, hreleased, ?_⟩
    intro p hp hpedge
    -- at an earlier edge the switch is pressed, so that edge is not at the released tick
    obtain ⟨-, -, -, hppressed⟩ := released_before_edge hpedge
    rcases Nat.lt_succ_iff_lt_or_eq.mp hp with hlt | rfl
    · exact hlt
    · rw [hreleased] at hppressed
      cases hppressed
  · intro x n hxn hx htorque
    obtain ⟨e, hxe, hen, hbefore, hafter⟩ := entry_between hxn hx (drive_of_torqueCommand htorque)
    have hedge := (drive_entry hbefore hafter).2.2.2
    obtain ⟨r, rfl, hreleased, -⟩ := released_before_edge hedge
    exact ⟨r, r + 1, by omega, Nat.lt_succ_self r, hen, hreleased, hedge⟩
  · intro n hraw
    -- the button starts pressed, and the first tick cannot enter DRIVE
    have hboot : (runState env ρ 0).rtdSwitch.debouncer.value = true := rfl
    have hfirst : (after env ρ 0).sm.state ≠ .drive := by
      intro h
      have hinit : (runState env ρ 0).sm.state ≠ .drive := by
        rintro ⟨⟩
      have hwait := (drive_entry hinit h).1
      cases hwait
    apply not_drive_of_held (Nat.zero_le n) hfirst
    · apply rtdSwitch_held (Nat.zero_le 1) hboot
      intro k _ hk
      exact hraw k (by omega)
    · intro k _ hk
      exact hraw k hk
  · intro x n hxn hx hpressed hraw
    refine not_drive_of_held hxn hx ?_ hraw
    rw [rtdPressed_eq] at hpressed
    rw [rtdSwitch_succ]
    exact hpressed

/-- A bench run with the RTD switch held from boot on, and the brake pressed. -/
def heldSwitchRun : ℕ → Tick := fun n => ({ now := 3 * n, brake := 1000 } : BenchTick).toTick

/-- A bench run in which the motor disconnects for one tick of DRIVE, with the RTD switch and the brake held. -/
def faultRun : ℕ → Tick :=
  benchRun [{ now := 12, brake := 1000, pins := { motorDisconnect := some true } }, { now := 15, brake := 1000 },
    { now := 18, brake := 1000 }, { now := 21, brake := 1000 }, { now := 24, brake := 1000 }]

/-- A bench run enters DRIVE at its fourth tick on a press, and has torque at its sixth after that press; neither a
    switch held from boot nor one held through a fault enters DRIVE. -/
theorem drive_needs_press_bench :
    ((runState benchEnv torqueRun 3).sm.state = .rtdWait ∧ rtdEdge benchEnv torqueRun 3 = true) ∧
    (∃ r e, 0 ≤ r ∧ r < e ∧ e ≤ 5 ∧ rtdPressed benchEnv torqueRun r = false ∧ rtdEdge benchEnv torqueRun e = true) ∧
    (after benchEnv heldSwitchRun 5).sm.state ≠ .drive ∧ (after benchEnv faultRun 8).sm.state ≠ .drive := by
  refine ⟨?_, ?_, ?_, ?_⟩
  · obtain ⟨hwait, -, -, hedge, -⟩ := (drive_needs_press benchEnv torqueRun).1 3 (by decide +kernel)
      (by decide +kernel)
    exact ⟨hwait, hedge⟩
  · exact (drive_needs_press benchEnv torqueRun).2.1 0 5 (by decide) (by decide +kernel) (by decide +kernel)
  · apply (drive_needs_press benchEnv heldSwitchRun).2.2.1 5
    intro k _
    rfl
  · apply (drive_needs_press benchEnv faultRun).2.2.2 4 8 (by decide) (by decide +kernel) (by decide +kernel)
    intro k hk hk8
    interval_cases k <;> rfl

/-! ## The BSPD latch -/

variable {env ρ}

/-- The tick that reads the BSPD latch ends in BSPD_TRIPPED, whatever state it started in. -/
theorem state_of_latchState {n : ℕ} (h : readPin (ρ n).inputs.pins.latchState = true) :
    (after env ρ n).sm.state = .bspdTripped := by
  rw [after_state]
  apply nextState_of_bspdLatched
  rw [App.tickStateInputs_eq]
  exact (App.controlTick_latchState env _ _).trans h

/-- BSPD_TRIPPED is kept by every tick. -/
theorem state_bspdTripped_succ {n : ℕ} (h : (after env ρ n).sm.state = .bspdTripped) :
    (after env ρ (n + 1)).sm.state = .bspdTripped := by
  rw [after_state]
  show nextState (after env ρ n).sm.state _ = _
  rw [h, nextState_bspdTripped]

/-- **The BSPD trip is immediate and absorbing.** From the tick that reads the latch on, every tick ends in
    BSPD_TRIPPED with no torque and the inverter disabled. -/
theorem bspd_absorbing {m n : ℕ} (htrip : readPin (ρ m).inputs.pins.latchState = true) (hmn : m ≤ n) :
    (after env ρ n).sm.state = .bspdTripped ∧ (after env ρ n).torqueCommand = 0 ∧
      (after env ρ n).live.inverterEnable = false := by
  have hstate : (after env ρ n).sm.state = .bspdTripped := by
    induction n, hmn using Nat.le_induction with
    | base => exact state_of_latchState htrip
    | succ k hk ih => exact state_bspdTripped_succ ih
  refine ⟨hstate, ?_, ?_⟩
  · by_contra h
    rw [drive_of_torqueCommand h] at hstate
    cases hstate
  · rw [after_eq, App.controlTick_inverterEnable, ← after_eq, App.enableAllowed, hstate]
    rfl

/-- A bench run that reads the latch once, on a tick in the middle of DRIVE. -/
def bspdRun : ℕ → Tick :=
  benchRun [{ now := 12 }, { now := 15, pedal := 2000, pins := { latchState := some true } },
    { now := 18, pedal := 2000 }]

/-- The bench is in DRIVE before the trip and still tripped after the latch reads low again. -/
theorem bspd_absorbing_bench : (after benchEnv bspdRun 4).sm.state = .drive ∧
    (after benchEnv bspdRun 6).sm.state = .bspdTripped ∧ (after benchEnv bspdRun 6).torqueCommand = 0 ∧
    (after benchEnv bspdRun 6).live.inverterEnable = false :=
  ⟨by decide +kernel, bspd_absorbing (m := 5) (n := 6) (by decide +kernel) (by decide)⟩

end Run
end Lhre.Vcu
