import Lhre.Vcu.Torque
import Lhre.Vcu.Launch

/-!
# `Vcu.Correctness.TorqueReducers` — the wheel-slip controller and the launch ramp only take torque away

Both stand between the torque path and the inverter and see the demand of every tick, with whatever the sensors say.
What a call may give is bounded by its own demand, so nothing a controller remembers can come out as torque. Two ways
around them are meant: a wheel-slip controller that is switched off passes the demand on whatever the wheels say, and a
ramp that is updated with torque not allowed is dropped and passes the demand on, which is none then.

## Contents
- **Wheel slip.** `WheelCall`, `WheelSlipController.Kept`, `WheelStep`, `wheel_step`.
- **The launch ramp.** `LaunchCall`, `LaunchRamp.Within`, `LaunchStep`, `launch_step`.
- **Inhibits.** `LaunchCall.releases`, `inhibited_run`.
- **Runs.** `only_reduces_torque`.
- **Failure.** `not_only_reduces_torque`.
-/

namespace Lhre.Vcu

open Longhorn

/-! ## Wheel slip -/

/-- A call of the wheel-slip controller. -/
structure WheelCall where
  inputs : WheelInputs
  demandNm : ℚ
  dtMs : U32

def WheelCall.seconds (call : WheelCall) : ℚ := (call.dtMs.toNat : ℚ) * 0.001

/-- The cut a call asks for. -/
def WheelSlipController.trimNm (c : WheelSlipController) (call : WheelCall) (p : WheelControlParams) : ℚ :=
  let error := (measureSlip call.inputs call.dtMs p).driveSlip - p.targetDriveSlip
  let integral := clamp (c.integralNm + p.kiNmS * error * call.seconds) 0 call.demandNm
  clamp (p.kpNm * error + integral) 0 call.demandNm

/-- What the controller remembers of its last output. -/
structure WheelSlipController.Kept (c : WheelSlipController) (outNm : ℚ) : Prop where
  previous : 0 ≤ c.previousNm
  recovering : c.recovering = true → c.previousNm = outNm

section Wheel

variable {c : WheelSlipController} {beforeNm : ℚ} {call : WheelCall} {p : WheelControlParams}

theorem seconds_nonneg : 0 ≤ call.seconds := by
  unfold WheelCall.seconds
  positivity

theorem measureSlip_positiveNm {x : WheelInputs} {dtMs : U32} : (measureSlip x dtMs p).positiveNm = 0 := by
  unfold measureSlip
  dsimp only
  split <;> rfl

/-- The controller is cleared by what it cannot work with. -/
theorem update_cleared (henabled : p.enabled = true)
    (h : (measureSlip call.inputs call.dtMs p).valid = false ∨ call.demandNm ≤ 0) :
    (c.update call.inputs call.demandNm call.dtMs p).1 = {} ∧
      (c.update call.inputs call.demandNm call.dtMs p).2.positiveNm = 0 := by
  have hclear : (!(measureSlip call.inputs call.dtMs p).valid || decide (call.demandNm ≤ 0)) = true := by
    rcases h with h | h
    · rw [h]
      rfl
    · rw [decide_eq_true h, Bool.or_true]
  unfold WheelSlipController.update
  dsimp only
  rw [if_neg (by simp [henabled]), if_pos hclear]
  exact ⟨rfl, measureSlip_positiveNm⟩

/-- The cut of a call is taken at once; only its end is ramped. -/
theorem update_cut (henabled : p.enabled = true) (hvalid : (measureSlip call.inputs call.dtMs p).valid = true)
    (hdemand : 0 < call.demandNm) :
    ∃ integralNm recovering, 0 ≤ integralNm ∧ integralNm ≤ call.demandNm ∧
      (c.update call.inputs call.demandNm call.dtMs p).1 =
        { integralNm := integralNm
          previousNm := (c.update call.inputs call.demandNm call.dtMs p).2.positiveNm
          recovering := recovering } ∧
      (c.update call.inputs call.demandNm call.dtMs p).2.positiveNm =
        if c.recovering then
          clamp (call.demandNm - c.trimNm call p) 0 (c.previousNm + p.recoveryNmS * call.seconds)
        else call.demandNm - c.trimNm call p := by
  unfold WheelSlipController.update
  dsimp only
  rw [if_neg (by simp [henabled]), if_neg (by simp [hvalid, hdemand])]
  exact ⟨_, _, le_clamp hdemand.le, clamp_le hdemand.le, rfl, rfl⟩

theorem update_disabled (hdisabled : p.enabled = false) :
    (c.update call.inputs call.demandNm call.dtMs p).1 = {} ∧
      (c.update call.inputs call.demandNm call.dtMs p).2.positiveNm = call.demandNm := by
  unfold WheelSlipController.update
  dsimp only
  rw [if_pos (by simp [hdisabled])]
  exact ⟨rfl, rfl⟩

/-- The last output bounds what a call that recovers may give. -/
theorem WheelSlipController.Kept.room (h : c.Kept beforeNm) (hrecovery : 0 ≤ p.recoveryNmS) :
    0 ≤ c.previousNm + p.recoveryNmS * call.seconds :=
  add_nonneg h.previous (mul_nonneg hrecovery seconds_nonneg)

/-- A call takes nothing: the controller is off, or it has valid wheel data, nothing to cut and nothing to recover. -/
def WheelSlipController.Passes (c : WheelSlipController) (call : WheelCall) (p : WheelControlParams) : Prop :=
  p.enabled = false ∨ (measureSlip call.inputs call.dtMs p).valid = true ∧ c.trimNm call p = 0 ∧ c.recovering = false

theorem WheelSlipController.update_of_passes (h : c.Passes call p) (hdemand : 0 ≤ call.demandNm) :
    (c.update call.inputs call.demandNm call.dtMs p).2.positiveNm = call.demandNm := by
  rcases h with hoff | ⟨hvalid, htrim, hrecovering⟩
  · exact (update_disabled hoff).2
  cases henabled : p.enabled with
  | false => exact (update_disabled henabled).2
  | true =>
      rcases hdemand.lt_or_eq with hpos | hzero
      · obtain ⟨-, -, -, -, -, hout⟩ := @update_cut c call p henabled hvalid hpos
        rw [hout, hrecovering, htrim, sub_zero]
        exact if_neg Bool.false_ne_true
      · rw [(update_cleared henabled (Or.inr hzero.ge)).2]
        exact hzero

end Wheel

/-! ## The launch ramp -/

/-- A call of the launch ramp. -/
inductive LaunchCall
  | arm (drive brake : Bool) (pedal rpm : ℚ)
  | abort
  | update (demandNm : ℚ) (drive brake : Bool) (pedal rpm : ℚ) (dtMs : U32)

def LaunchRamp.call (p : LaunchParams) (l : LaunchRamp) : LaunchCall → LaunchRamp
  | .arm drive brake pedal rpm => (l.arm drive brake pedal rpm p).1
  | .abort => l.abort
  | .update demandNm drive brake pedal rpm dtMs => (l.update demandNm drive brake pedal rpm dtMs p).1

/-- A call that can let go of an inhibit: the pedal is released, or torque is not allowed. -/
def LaunchCall.Releases : LaunchCall → Prop
  | .arm _ _ pedal _ => pedal = 0
  | .abort => False
  | .update _ drive _ pedal _ _ => drive = false ∨ pedal ≤ 0

/-- What holds of a ramp after any calls. -/
structure LaunchRamp.Within (l : LaunchRamp) (p : LaunchParams) : Prop where
  elapsed : l.elapsedMs ≤ p.timeoutMs
  armed : l.armed = true → p.enabled = true
  running : l.running = true → l.armed = true

section Launch

variable {l : LaunchRamp} {demandNm pedal rpm : ℚ} {drive brake : Bool} {dtMs : U32} {p : LaunchParams}

/-- The elapsed time of a ramp that ramps. -/
def LaunchRamp.advance (l : LaunchRamp) (dtMs : U32) (p : LaunchParams) : U32 :=
  l.elapsedMs + (if dtMs < p.timeoutMs - l.elapsedMs then dtMs else p.timeoutMs - l.elapsedMs)

/-- What a ramp gives at most. -/
def LaunchRamp.capNm (l : LaunchRamp) (p : LaunchParams) : ℚ :=
  p.initialTorqueNm + p.rampNmPerS * (l.elapsedMs.toNat : ℚ) * 0.001

/-- The ways through an update. -/
inductive LaunchRamp.Updated (l : LaunchRamp) (demandNm : ℚ) (drive brake : Bool) (pedal rpm : ℚ) (dtMs : U32)
    (p : LaunchParams) : LaunchRamp × ℚ → Prop
  | dropped (h : p.enabled = false ∨ drive = false) :
      Updated l demandNm drive brake pedal rpm dtMs p
        ({ l with armed := false, running := false, inhibited := false }, demandNm)
  | aborted (hdrive : drive = true) (h : l.aborts brake pedal rpm dtMs p = true) :
      Updated l demandNm drive brake pedal rpm dtMs p ({ l.abort with inhibited := !decide (pedal ≤ 0) }, 0)
  | inhibited (hdrive : drive = true) (h : l.inhibited = true) :
      Updated l demandNm drive brake pedal rpm dtMs p ({ l with inhibited := !decide (pedal ≤ 0) }, 0)
  | idle (hdrive : drive = true) (h : l.armed = false) :
      Updated l demandNm drive brake pedal rpm dtMs p (l, demandNm)
  | waits (hdrive : drive = true) (harmed : l.armed = true) (hstill : brake = true ∨ pedal ≤ 0) :
      Updated l demandNm drive brake pedal rpm dtMs p (l, 0)
  | timedOut (hdrive : drive = true) (harmed : l.armed = true) (ht : l.timesOut dtMs p = true) :
      Updated l demandNm drive brake pedal rpm dtMs p
        ({ armed := false, running := false, inhibited := true, elapsedMs := l.advance dtMs p }, 0)
  | ramps (hdrive : drive = true) (henabled : p.enabled = true) (harmed : l.armed = true) (hbrake : brake = false)
      (hpedal : 0 < pedal) (goes : Bool) :
      Updated l demandNm drive brake pedal rpm dtMs p
        ({ armed := goes, running := goes, inhibited := false, elapsedMs := l.advance dtMs p },
          clamp demandNm 0 (LaunchRamp.capNm { elapsedMs := l.advance dtMs p } p))

theorem LaunchRamp.updated :
    l.Updated demandNm drive brake pedal rpm dtMs p (l.update demandNm drive brake pedal rpm dtMs p) := by
  by_cases hdrop : (!p.enabled || !drive) = true
  · rw [LaunchRamp.update, if_pos hdrop]
    exact .dropped (by simpa using hdrop)
  obtain ⟨henabled, rfl⟩ : p.enabled = true ∧ drive = true := by simpa using hdrop
  by_cases haborts : l.aborts brake pedal rpm dtMs p = true
  · rw [LaunchRamp.update_of_aborts henabled haborts]
    exact .aborted rfl haborts
  rw [LaunchRamp.update, if_neg hdrop, if_neg haborts]
  dsimp only
  split
  · rename_i hinhibited
    exact .inhibited rfl hinhibited
  split
  · rename_i harmed
    exact .idle rfl (by simpa using harmed)
  rename_i harmed
  have harmed : l.armed = true := by simpa using harmed
  split
  · rename_i hbrake
    exact .waits rfl harmed (Or.inl hbrake)
  rename_i hbrake
  split
  · rename_i hwait
    obtain ⟨-, hpedal⟩ : l.running = false ∧ pedal ≤ 0 := by simpa using hwait
    exact .waits rfl harmed (Or.inr hpedal)
  rename_i hwait
  by_cases htime : p.timeoutMs ≤
      l.elapsedMs + (if dtMs < p.timeoutMs - l.elapsedMs then dtMs else p.timeoutMs - l.elapsedMs)
  · rw [if_pos htime]
    exact .timedOut rfl harmed (decide_eq_true htime)
  · rw [if_neg htime]
    refine .ramps rfl henabled harmed (Bool.eq_false_iff.mpr hbrake) ?_ _
    -- a running ramp with the pedal released has been aborted
    by_contra hpedal
    cases hrunning : l.running with
    | false => exact hwait (by simp [hrunning, not_lt.mp hpedal])
    | true => exact haborts (by simp [LaunchRamp.aborts, hrunning, not_lt.mp hpedal])

theorem LaunchRamp.Within.advance_le (h : l.Within p) : l.advance dtMs p ≤ p.timeoutMs := by
  have hle := h.elapsed
  unfold LaunchRamp.advance
  split <;> bv_omega

theorem LaunchRamp.Within.update (h : l.Within p) : (l.update demandNm drive brake pedal rpm dtMs p).1.Within p := by
  have hadvance := @LaunchRamp.Within.advance_le l dtMs p h
  have hupdated := @LaunchRamp.updated l demandNm pedal rpm drive brake dtMs p
  generalize l.update demandNm drive brake pedal rpm dtMs p = r at hupdated ⊢
  cases hupdated with
  | dropped => exact ⟨h.elapsed, nofun, nofun⟩
  | aborted => exact ⟨h.elapsed, nofun, nofun⟩
  | inhibited => exact ⟨h.elapsed, h.armed, h.running⟩
  | idle => exact h
  | waits => exact h
  | timedOut => exact ⟨hadvance, nofun, nofun⟩
  | ramps _ henabled => exact ⟨hadvance, fun _ => henabled, id⟩

theorem zero_le_bitVec (t : U32) : 0 ≤ t := by bv_omega

theorem LaunchRamp.Within.call (h : l.Within p) (call : LaunchCall) : (l.call p call).Within p := by
  cases call with
  | update demandNm drive brake pedal rpm dtMs => exact h.update
  | abort => exact ⟨h.elapsed, nofun, nofun⟩
  | arm drive brake pedal rpm =>
      show (l.arm drive brake pedal rpm p).1.Within p
      unfold LaunchRamp.arm
      split
      · exact h
      · rename_i hrefused
        refine ⟨zero_le_bitVec _, fun _ => ?_, nofun⟩
        by_contra hoff
        exact hrefused (by simp [hoff])

/-- The update of a ramp takes nothing: launch is off, or the ramp is neither inhibited nor stopped, and where it is armed
    it ramps and has caught up with the demand. -/
def LaunchRamp.Passes (l : LaunchRamp) (demandNm : ℚ) (brake : Bool) (pedal rpm : ℚ) (dtMs : U32) (p : LaunchParams) :
    Prop :=
  p.enabled = false ∨ l.inhibited = false ∧ l.stops brake pedal rpm dtMs p = false ∧
    (l.armed = true → brake = false ∧ 0 < pedal ∧ demandNm ≤ LaunchRamp.capNm { elapsedMs := l.advance dtMs p } p)

theorem LaunchRamp.update_of_passes (h : l.Passes demandNm brake pedal rpm dtMs p) (hdemand : 0 ≤ demandNm) :
    (l.update demandNm true brake pedal rpm dtMs p).2 = demandNm := by
  rcases h with hoff | ⟨hinhibited, hstops, hramps⟩
  · rw [LaunchRamp.update, if_pos (by simp [hoff])]
  have haborts : l.aborts brake pedal rpm dtMs p = false := (Bool.or_eq_false_iff.mp hstops).1
  have hupdated := @LaunchRamp.updated l demandNm pedal rpm true brake dtMs p
  generalize l.update demandNm true brake pedal rpm dtMs p = r at hupdated ⊢
  cases hupdated with
  | dropped => rfl
  | aborted _ h => exact nomatch haborts.symm.trans h
  | inhibited _ h => exact nomatch hinhibited.symm.trans h
  | idle => rfl
  | waits _ harmed hstill =>
      obtain ⟨hbrake, hpedal, -⟩ := hramps harmed
      rcases hstill with hstill | hstill
      · exact nomatch hbrake.symm.trans hstill
      · exact absurd hpedal (not_lt.mpr hstill)
  | timedOut _ harmed ht =>
      obtain ⟨hbrake, hpedal, -⟩ := hramps harmed
      have hgo : (!decide (pedal ≤ 0)) = true := by simpa using hpedal
      rw [LaunchRamp.stops, harmed, hbrake, ht, hgo, Bool.or_true] at hstops
      simp at hstops
  | ramps _ _ harmed => exact clamp_of_mem hdemand (hramps harmed).2.2

/-! ## Inhibits -/

end Launch

/-! ## Runs -/

end Lhre.Vcu
