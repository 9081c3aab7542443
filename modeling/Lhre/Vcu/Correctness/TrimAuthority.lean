import Lhre.Vcu.Correctness.LaunchAbort
import Lhre.Vcu.Correctness.TorqueCaps
import Lhre.Vcu.Correctness.TorqueReducers

/-!
# `Vcu.Correctness.TrimAuthority` — what the power trim learns from

The trim of the power limit corrects the cap by the power that was measured, and is to learn only while the cap had
authority over the torque. What it goes by is the demand of the torque path alone: whether the cap was below the base
torque. The stages after it may still take the torque away, and the trim learns all the same from a power it had no part
in. Where they pass the capped torque on, it learns from nothing else.

## Contents
- **The torque path.** `limitPower_active`, `update_active`, `trimPower_changes`.
- **A tick.** `App.torqueAt`, `App.wheelAt`, `App.rampAt`, `App.regenAt`, `updateTorque_stages`.
- **The condition.** `App.PassesCap`, `torqueCommand_of_passes`.
- **Runs.** `trim_keeps_authority`.
- **Failure.** `not_trim_keeps_authority`.
-/

namespace Lhre.Vcu

open Lhal Can Longhorn

/-! ## The torque path -/

section Path

variable {pow : ℚ → ℚ → ℚ} {torque : TorqueParams} {pl : PowerLimitParams} {tc : TractionParams} {t : TorquePath}
  {x : TorqueInputs}

/-- The cap is active where it lowers the torque. -/
theorem limitPower_active (base : ℚ) :
    (t.limitPower x pl base).1.powerCapActive = decide ((t.limitPower x pl base).2 < base) := by
  unfold TorquePath.limitPower
  dsimp only
  split
  · simp
  · split
    · simp
    · rename_i hactive
      simpa using hactive

theorem limitAcceleration_active (powerLimited : ℚ) :
    (t.limitAcceleration x tc powerLimited).powerCapActive = t.powerCapActive := by
  unfold TorquePath.limitAcceleration
  dsimp only
  split
  · rfl
  · split <;> rfl

/-- The cap of an update is active where it lowers the base torque. -/
theorem update_active :
    (t.update pow x torque pl tc).1.powerCapActive = true ↔
      (t.update pow x torque pl tc).2.powerLimited < (t.update pow x torque pl tc).2.base torque := by
  have hactive : (t.update pow x torque pl tc).1.powerCapActive =
      (t.limitPower x pl ((t.update pow x torque pl tc).2.base torque)).1.powerCapActive := by
    obtain ⟨hlookup, hderated⟩ := @update_lookup pow torque pl tc t x
    rw [TorqueOutputs.base, hderated, hlookup]
    unfold TorquePath.update
    dsimp only
    split
    · exact limitAcceleration_active _
    · rfl
  rw [hactive, limitPower_active, decide_eq_true_iff, (@update_parts pow torque pl tc t x).1]

/-- The trim moves only while the cap is active. -/
theorem trimPower_changes {powerW : ℚ} (h : (t.trimPower x pl powerW).powerTrimW ≠ t.powerTrimW) :
    t.powerCapActive = true := by
  by_contra hidle
  refine h ?_
  unfold TorquePath.trimPower
  rw [Bool.eq_false_iff.mpr hidle]
  split
  · rfl
  · split <;> rfl

theorem update_changes (h : (t.update pow x torque pl tc).1.powerTrimW ≠ t.powerTrimW) : t.powerCapActive = true := by
  rw [(@update_parts pow torque pl tc t x).2.2.1, limitPower_trim] at h
  exact trimPower_changes h

end Path

/-! ## A tick -/

section Tick

variable (env : Env) (b : App) (now dtMs : U32) (fresh : Bool)

/-- What the torque path makes of a tick, before anything takes the torque away. -/
def App.torqueAt : TorquePath × TorqueOutputs :=
  let P := b.P env
  let m := b.measureTorque env now dtMs
  m.torquePath.update env.pow (m.torqueInputs now dtMs (b.inverterFeedback now)) P.torque P.powerLimit
    (if P.wheelControl.enabled then { P.traction with enabled := false } else P.traction)

/-- The call of the wheel-slip controller. -/
def App.wheelCallAt : WheelCall :=
  { inputs := b.wheelInputs now
    demandNm := if b.torqueAllowed then (b.torqueAt env now dtMs).2.traction else 0
    dtMs := dtMs }

def App.wheelAt : WheelSlipController × WheelControlResult :=
  let call := b.wheelCallAt env now dtMs
  b.wheelControl.update call.inputs call.demandNm call.dtMs (b.P env).wheelControl

/-- The launch ramp as its update finds it. -/
def App.rampAt : LaunchRamp :=
  b.launchBeforeUpdate env b.torqueAllowed (b.inverterFeedback now).rpm (b.wheelAt env now dtMs).2

/-- What regen makes of a tick. -/
def App.regenAt : RegenResult :=
  let fb := b.inverterFeedback now
  let m := b.measureTorque env now dtMs
  let positive := m.positiveTorque env now dtMs b.torqueAllowed fb
  (positive.1.regen.update (positive.1.regenInputs now dtMs b.torqueAllowed fresh fb) (b.P env).regen).2

/-- **The stages of `UpdateTorque`.** -/
theorem updateTorque_stages :
    (b.updateTorque env now dtMs fresh).torquePath =
        (if !b.torqueAllowed then (b.torqueAt env now dtMs).1.reset else (b.torqueAt env now dtMs).1) ∧
      (b.updateTorque env now dtMs fresh).live.torque = (b.torqueAt env now dtMs).2 ∧
      (b.updateTorque env now dtMs fresh).torqueCommand =
        arbitrate (b.P env) b.torqueAllowed (b.regenAt env now dtMs fresh) b.live.pedals.bse2Psi
          (if (b.P env).launch.enabled && !(b.wheelAt env now dtMs).2.valid then 0
          else ((b.rampAt env now dtMs).update (b.wheelAt env now dtMs).2.positiveNm b.torqueAllowed
            b.live.pedals.brakeForRtd b.live.pedals.pedalTravel (b.inverterFeedback now).rpm dtMs
            (b.P env).launch).2) := by
  unfold App.updateTorque App.arbitrateTorque
  exact ⟨rfl, rfl, rfl⟩

end Tick

/-! ## The condition -/

/-- What stands between the capped torque and the inverter lets it pass. -/
structure App.PassesCap (env : Env) (b : App) (now dtMs : U32) (fresh : Bool) : Prop where
  allowed : b.torqueAllowed = true
  /-- The acceleration limiter holds no trim. -/
  limiter : (b.torqueAt env now dtMs).1.tcTrim = 0
  wheel : b.wheelControl.Passes (b.wheelCallAt env now dtMs) (b.P env).wheelControl
  launch : (b.rampAt env now dtMs).Passes (b.torqueAt env now dtMs).2.powerLimited b.live.pedals.brakeForRtd
    b.live.pedals.pedalTravel (b.inverterFeedback now).rpm dtMs (b.P env).launch
  wheelValid : (b.P env).launch.enabled = true → (b.wheelAt env now dtMs).2.valid = true
  regen : (b.regenAt env now dtMs fresh).currentCut = false ∧ 0 ≤ (b.regenAt env now dtMs fresh).torqueNm
  regenBraking : (b.P env).regen.enabled = true → b.live.pedals.bse2Psi ≤ (b.P env).regen.engageMaxPsi
  limit : 0 ≤ (b.torqueAt env now dtMs).2.powerLimited ∧
    (b.torqueAt env now dtMs).2.powerLimited ≤ (b.P env).inverter.torqueLimitNm

section Command

variable {env : Env} {b : App} {now dtMs : U32} {fresh : Bool}

/-- The acceleration limiter passes the torque on when it holds no trim. -/
theorem traction_of_passes (h : b.PassesCap env now dtMs fresh) :
    (b.torqueAt env now dtMs).2.traction = (b.torqueAt env now dtMs).2.powerLimited := by
  have hlimit := h.limit.1
  have htrim := h.limiter
  unfold App.torqueAt at hlimit htrim ⊢
  dsimp only at hlimit htrim ⊢
  obtain ⟨hlimited, -, -, htraction⟩ := @update_parts env.pow (b.P env).torque (b.P env).powerLimit
    (if (b.P env).wheelControl.enabled then { (b.P env).traction with enabled := false } else (b.P env).traction)
    (b.measureTorque env now dtMs).torquePath
    ((b.measureTorque env now dtMs).torqueInputs now dtMs (b.inverterFeedback now))
  rw [hlimited] at hlimit ⊢
  -- the limiter subtracts its trim, or is off
  rcases htraction with ⟨hpath, htraction⟩ | ⟨-, -, htraction⟩
  · rw [htraction, ← hpath, htrim, clamp_zero hlimit, sub_zero]
  · exact htraction

/-- **Where nothing takes the capped torque away, it is what the inverter is sent.** -/
theorem torqueCommand_of_passes (h : b.PassesCap env now dtMs fresh) :
    (b.updateTorque env now dtMs fresh).torqueCommand = (b.torqueAt env now dtMs).2.powerLimited := by
  -- the stages in the order of `PositiveTorque`: limiter, wheel slip, launch, arbitration
  have hdemand : (b.wheelCallAt env now dtMs).demandNm = (b.torqueAt env now dtMs).2.powerLimited := by
    rw [← traction_of_passes h]
    exact if_pos h.allowed
  have hwheel : (b.wheelAt env now dtMs).2.positiveNm = (b.torqueAt env now dtMs).2.powerLimited := by
    rw [← hdemand]
    refine WheelSlipController.update_of_passes h.wheel ?_
    rw [hdemand]
    exact h.limit.1
  have hlaunch := LaunchRamp.update_of_passes h.launch h.limit.1
  have hvalid : ((b.P env).launch.enabled && !(b.wheelAt env now dtMs).2.valid) = false := by
    cases henabled : (b.P env).launch.enabled with
    | false => rfl
    | true =>
        rw [h.wheelValid henabled]
        rfl
  have hbraking : ((b.P env).regen.enabled && decide ((b.P env).regen.engageMaxPsi < b.live.pedals.bse2Psi)) = false := by
    cases henabled : (b.P env).regen.enabled with
    | false => rfl
    | true => exact decide_eq_false (not_lt.mpr (h.regenBraking henabled))
  rw [(updateTorque_stages env b now dtMs fresh).2.2, hvalid, hwheel, h.allowed, if_neg Bool.false_ne_true, hlaunch]
  unfold arbitrate
  dsimp only
  rw [hbraking, h.regen.1, if_neg (not_lt.mpr h.regen.2)]
  exact clamp_of_mem h.limit.1 h.limit.2

end Command

/-! ## Runs -/

section Run

variable {env : Env} {ρ : ℕ → Tick} {n : ℕ}

variable (env ρ n) in
/-- The app as `UpdateTorque` finds it at tick `n`. -/
def modedAt : App := (before env ρ n).moded env (ρ n).inputs

variable (env ρ n) in
/-- The time since the tick before. -/
def dtAt : U32 := (before env ρ n).dtMs (ρ n).inputs.now

variable (env ρ n) in
def torqueTickAt : TorquePath × TorqueOutputs := (modedAt env ρ n).torqueAt env (ρ n).inputs.now (dtAt env ρ n)

theorem App.beforeTick_torquePath (a : App) (τ : Tick) : (a.beforeTick env τ).torquePath = a.torquePath := by
  unfold App.beforeTick
  induction τ.tasks generalizing a with
  | nil => rfl
  | cons e rest ih =>
      refine (ih (a.taskEvent env e)).trans ?_
      cases e with
      | supervisor now =>
          unfold App.taskEvent App.supervisorTick
          dsimp only
          split <;> rfl
      | _ => rfl

/-- Before `UpdateTorque` the tick may reset the torque path, which keeps the trim and its authority. -/
structure TorquePath.SamePower (t t' : TorquePath) : Prop where
  trim : t'.powerTrimW = t.powerTrimW
  active : t'.powerCapActive = t.powerCapActive

theorem TorquePath.samePower_reset (t : TorquePath) (reset : Bool) :
    t.SamePower (if reset = true then t.reset else t) := by
  split <;> exact ⟨rfl, rfl⟩

theorem App.stepState_power (env : Env) (a : App) (x : TickInputs) :
    a.torquePath.SamePower (a.stepState env x).torquePath :=
  TorquePath.samePower_reset a.torquePath _

theorem App.applyModeRequests_power (env : Env) (a : App) :
    a.torquePath.SamePower (a.applyModeRequests env).torquePath := by
  unfold App.applyModeRequests
  dsimp only
  cases a.requestedMode with
  | none => exact ⟨rfl, rfl⟩
  | some raw =>
      dsimp only
      by_cases hdrive : a.sm.state = .drive
      · rw [if_pos hdrive]
        exact ⟨rfl, rfl⟩
      · rw [if_neg hdrive]
        exact TorquePath.samePower_reset a.torquePath _

/-- The trim and the authority a tick starts with are those the tick before has left. -/
theorem power_moded : (runState env ρ n).torquePath.SamePower (modedAt env ρ n).torquePath := by
  -- the other tasks do not touch the torque path; a mode change and the state machine reset it at most
  have hbefore : (before env ρ n).torquePath = (runState env ρ n).torquePath := App.beforeTick_torquePath _ _
  have hstep := (before env ρ n).stepState_power env (ρ n).inputs
  have hmode := ((before env ρ n).stepState env (ρ n).inputs).applyModeRequests_power env
  rw [← hbefore]
  exact ⟨hmode.trim.trans hstep.trim, hmode.active.trans hstep.active⟩

/-- What a tick leaves of its torque stages. -/
theorem after_stages :
    (after env ρ n).torquePath.powerTrimW = (torqueTickAt env ρ n).1.powerTrimW ∧
      (after env ρ n).torquePath.powerCapActive = (torqueTickAt env ρ n).1.powerCapActive ∧
      (after env ρ n).live.torque = (torqueTickAt env ρ n).2 ∧
      (after env ρ n).torqueAllowed = (modedAt env ρ n).torqueAllowed ∧
      (after env ρ n).P env = (modedAt env ρ n).P env ∧
      (after env ρ n).torqueCommand = ((modedAt env ρ n).updateTorque env (ρ n).inputs.now (dtAt env ρ n)
        ((modedAt env ρ n).rx.inverterFresh (ρ n).inputs.now)).torqueCommand := by
  have hpart {α : Type} (part : App → α)
      (hout : ∀ (b : App) sent faultsGate energyGate beats, part
        { ({ (b.updateStatus (ρ n).inputs.now).driveOutputs env (ρ n).inputs with
              faultClearSent := sent, faultsGate := faultsGate, energyGate := energyGate } : App).publish (ρ n).inputs with
          controlBeats := beats } = part b) :
      part (after env ρ n) = part ((modedAt env ρ n).updateTorque env (ρ n).inputs.now (dtAt env ρ n)
        ((modedAt env ρ n).rx.inverterFresh (ρ n).inputs.now)) :=
    (before env ρ n).controlTick_of_command env (ρ n).inputs part hout
  obtain ⟨hpath, htorque, -⟩ := updateTorque_stages env (modedAt env ρ n) (ρ n).inputs.now (dtAt env ρ n)
    ((modedAt env ρ n).rx.inverterFresh (ρ n).inputs.now)
  -- a reset after the tick keeps the trim and its authority: this is how the trim learns without torque
  have hpower : (torqueTickAt env ρ n).1.SamePower (after env ρ n).torquePath := by
    rw [hpart App.torquePath (fun _ _ _ _ _ => rfl), hpath]
    exact TorquePath.samePower_reset _ _
  refine ⟨hpower.trim, hpower.active, ?_, ?_, ?_, hpart App.torqueCommand (fun _ _ _ _ _ => rfl)⟩
  · exact (hpart (·.live.torque) (fun _ _ _ _ _ => rfl)).trans htorque
  · exact ((before env ρ n).moded_same env (ρ n).inputs).torqueAllowed
  · exact (before env ρ n).controlTick_P env (ρ n).inputs

variable (env ρ n) in
/-- The power cap was what limited the torque that was issued. -/
structure CapIssued : Prop where
  allowed : (after env ρ n).torqueAllowed = true
  capped : (after env ρ n).live.torque.powerLimited < (after env ρ n).live.torque.base ((after env ρ n).P env).torque
  issued : (after env ρ n).torqueCommand = (after env ρ n).live.torque.powerLimited

variable (env ρ n) in
/-- Where the cap of tick `n` lowers the torque the pedal asks for, nothing after it takes torque away. -/
def CapUndisturbed : Prop :=
  (torqueTickAt env ρ n).2.powerLimited < (torqueTickAt env ρ n).2.base ((modedAt env ρ n).P env).torque →
    (modedAt env ρ n).PassesCap env (ρ n).inputs.now (dtAt env ρ n) ((modedAt env ρ n).rx.inverterFresh (ρ n).inputs.now)

/-- A tick changes the trim only if the cap of the tick before was active. -/
theorem active_of_change
    (h : (runState env ρ (n + 1)).torquePath.powerTrimW ≠ (runState env ρ n).torquePath.powerTrimW) :
    (runState env ρ n).torquePath.powerCapActive = true := by
  have hstart := @power_moded env ρ n
  rw [← hstart.active]
  have hafter : (runState env ρ (n + 1)).torquePath.powerTrimW = (torqueTickAt env ρ n).1.powerTrimW :=
    (@after_stages env ρ n).1
  rw [hafter, ← hstart.trim] at h
  exact update_changes h

/-- **The trim learns only from torque it controlled**, as long as nothing takes the capped torque away. -/
theorem trim_keeps_authority (env : Env) (ρ : ℕ → Tick) :
    (after env ρ 0).torquePath.powerTrimW = (runState env ρ 0).torquePath.powerTrimW ∧
      ∀ n, CapUndisturbed env ρ n →
        (after env ρ (n + 1)).torquePath.powerTrimW ≠ (after env ρ n).torquePath.powerTrimW → CapIssued env ρ n := by
  refine ⟨?_, fun n hundisturbed hchange => ?_⟩
  -- at boot the cap is not active
  · by_contra hchange
    exact nomatch active_of_change hchange
  obtain ⟨-, hactive, htorque, hallowed, hP, hcommand⟩ := @after_stages env ρ n
  have hcapped : (torqueTickAt env ρ n).2.powerLimited <
      (torqueTickAt env ρ n).2.base ((modedAt env ρ n).P env).torque :=
    update_active.mp (hactive.symm.trans (active_of_change hchange))
  have hpasses := hundisturbed hcapped
  refine ⟨hallowed.trans hpasses.allowed, ?_, ?_⟩
  · rw [htorque, hP]
    exact hcapped
  · rw [hcommand, htorque]
    exact torqueCommand_of_passes hpasses

end Run

/-! ## Runs of the bench -/

/-- A car at 7500 rpm that draws 100 kW. -/
def fastFrames : List CanFrame :=
  [dataFrame 305 [2, 1, 1, 0], dataFrame 456 [0, 0], dataFrame 171 [0, 0, 0, 0, 0, 0, 0, 0],
   dataFrame 170 [0, 0, 0, 0, 0, 0, 0, 0], dataFrame 167 [0xA0, 0x0F, 0, 0, 0, 0, 0, 0],
   dataFrame 166 [0, 0, 0, 0, 0, 0, 0xC4, 0x09], dataFrame 176 [0, 0, 0, 0, 0x4C, 0x1D, 0, 0]]

/-- The pedal goes down in DRIVE, and the cap limits the torque. -/
def fastRun : ℕ → Tick :=
  benchRun
    [{ now := 12 }, { now := 15, pedal := 3700, frames := fastFrames },
     { now := 18, pedal := 3700, frames := fastFrames }]

theorem trim_keeps_authority_fast :
    (after benchEnv fastRun 6).torquePath.powerTrimW ≠ (after benchEnv fastRun 5).torquePath.powerTrimW ∧
      CapIssued benchEnv fastRun 5 := by
  obtain ⟨⟨hallowed, hlimiter, hwheel, hlaunch, hregen, hbraking, hlimit⟩, hchange⟩ :
      (let b := modedAt benchEnv fastRun 5
       let now := (fastRun 5).inputs.now
       let dtMs := dtAt benchEnv fastRun 5
       b.torqueAllowed = true ∧ (b.torqueAt benchEnv now dtMs).1.tcTrim = 0 ∧
          (b.P benchEnv).wheelControl.enabled = false ∧ (b.P benchEnv).launch.enabled = false ∧
          ((b.regenAt benchEnv now dtMs (b.rx.inverterFresh now)).currentCut = false ∧
            0 ≤ (b.regenAt benchEnv now dtMs (b.rx.inverterFresh now)).torqueNm) ∧
          (b.P benchEnv).regen.enabled = false ∧ 0 ≤ (b.torqueAt benchEnv now dtMs).2.powerLimited ∧
          (b.torqueAt benchEnv now dtMs).2.powerLimited ≤ (b.P benchEnv).inverter.torqueLimitNm) ∧
        (after benchEnv fastRun 6).torquePath.powerTrimW ≠ (after benchEnv fastRun 5).torquePath.powerTrimW := by
    decide +kernel
  refine ⟨hchange, (trim_keeps_authority benchEnv fastRun).2 5 (fun _ => ?_) hchange⟩
  refine ⟨hallowed, hlimiter, Or.inl hwheel, Or.inl hlaunch, ?_, hregen, ?_, hlimit⟩
  · exact fun henabled => nomatch hlaunch.symm.trans henabled
  · exact fun henabled => nomatch hbraking.symm.trans henabled

/-- The pedal is down before the car is in DRIVE. -/
def rollingRun (n : ℕ) : Tick :=
  BenchTick.toTick { now := 3 * n, pedal := 3700, frames := fastFrames, rtdPressed := false }

/-- Not allowed any torque, the trim learns. -/
theorem not_trim_keeps_authority :
    ¬ ∀ (env : Env) (ρ : ℕ → Tick) (n : ℕ),
      (after env ρ (n + 1)).torquePath.powerTrimW ≠ (after env ρ n).torquePath.powerTrimW → CapIssued env ρ n := by
  intro h
  obtain ⟨hchange, hallowed⟩ :
      (after benchEnv rollingRun 1).torquePath.powerTrimW ≠ (after benchEnv rollingRun 0).torquePath.powerTrimW ∧
        (after benchEnv rollingRun 0).torqueAllowed = false := by decide +kernel
  exact nomatch hallowed.symm.trans (h benchEnv rollingRun 0 hchange).allowed

end Lhre.Vcu
