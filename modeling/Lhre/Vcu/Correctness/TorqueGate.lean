import Lhre.Vcu.TickFacts

/-!
# `Correctness.TorqueGate` — torque leaves the app only through the gate

At the end of every tick of every run the torque command is zero unless the app is in DRIVE with nothing cutting
torque, it is within the inverter limit, and the frame sent to the inverter carries it. The gate reads the state
and the fault word of the same tick, so a cut acts in the tick that samples it.

## Contents
- **Arbitration.** What `arbitrate` lets through and how much of it.
- **The frame.** The torque field of the command frame fits its 16 bits and is within half a step.
- **The gate.** `App.TorqueGated` and `torque_gated`.
- **A bench run.** The inputs of a healthy car driven from boot to torque, for the witnesses.
-/

namespace Lhre.Vcu

open Lhal Can Longhorn

/-! ## Arbitration -/

/-- Nothing gets through while torque is not allowed. -/
theorem arbitrate_of_not_allowed {P : Params} {allowed : Bool} {regen : RegenResult} {bse2Psi positive : ℚ}
    (h : allowed = false) : arbitrate P allowed regen bse2Psi positive = 0 := by
  unfold arbitrate
  rw [h]
  rfl

/-- **Whatever gets through is within the torque limit.** -/
theorem abs_arbitrate_le {P : Params} (allowed : Bool) (regen : RegenResult) (bse2Psi positive : ℚ)
    (h : 0 ≤ P.inverter.torqueLimitNm) :
    |arbitrate P allowed regen bse2Psi positive| ≤ P.inverter.torqueLimitNm := by
  unfold arbitrate
  split
  · split
    · exact abs_clamp_le (by linarith) (le_refl _) h
    · show |if (!(P.regen.enabled && decide (P.regen.engageMaxPsi < bse2Psi))) = true then
        clamp positive 0 P.inverter.torqueLimitNm else 0| ≤ P.inverter.torqueLimitNm
      split
      · exact abs_clamp_le h (by linarith) (le_refl _)
      · rw [abs_zero]
        exact h
  · rw [abs_zero]
    exact h

/-- Every event set has the default, positive torque limit. -/
theorem paramsFor_torqueLimit (m : EventMode) : 0 ≤ (paramsFor m).inverter.torqueLimitNm := by
  obtain ⟨t, ht⟩ := paramsFor_eq m
  rw [ht]
  show (0 : ℚ) ≤ 230
  norm_num

/-- The limit in use is non-negative when the one given at construction is. -/
theorem App.torqueLimit_nonneg {env : Env}
    (hlimit : ∀ P, env.initialParams = some P → 0 ≤ P.inverter.torqueLimitNm) (a : App) :
    0 ≤ (a.P env).inverter.torqueLimitNm := by
  unfold App.P
  cases a.params with
  | preset mode => exact paramsFor_torqueLimit mode
  | initial =>
      show 0 ≤ (env.initialParams.getD (paramsFor defaultEventMode)).inverter.torqueLimitNm
      cases hinit : env.initialParams with
      | none => exact paramsFor_torqueLimit defaultEventMode
      | some P => exact hlimit P hinit

/-! ## The frame -/

/-- A clamped torque fills at most the positive half of a signed 16-bit field. -/
theorem abs_setRaw_clamp_le (torque : ℚ) : |setRaw (clamp torque (-kS16Nm) kS16Nm) 0.1| ≤ 32767 := by
  have hval : |clamp torque (-kS16Nm) kS16Nm| ≤ kS16Nm :=
    abs_clamp_le (by norm_num [kS16Nm]) (le_refl _) (le_refl _)
  have hnear := @abs_physical_setRaw_sub_le (clamp torque (-kS16Nm) kS16Nm) 0.1 (by norm_num)
  -- a raw value of 32768 would be off by a whole step
  have hlt : |((setRaw (clamp torque (-kS16Nm) kS16Nm) 0.1 : ℤ) : ℚ)| < 32768 := by
    unfold physical at hnear
    unfold kS16Nm at hval hnear ⊢
    rw [abs_le] at hval hnear
    rw [abs_lt]
    constructor <;> linarith [hval.1, hval.2, hnear.1, hnear.2]
  rw [← Int.cast_abs] at hlt
  have : |setRaw (clamp torque (-kS16Nm) kS16Nm) 0.1| < 32768 := by exact_mod_cast hlt
  omega

/-! ## The gate -/

/-- What holds of the app `a` at the end of a tick with inputs `x` that queued the frames `sent`. -/
structure App.TorqueGated (env : Env) (a : App) (x : TickInputs) (sent : List CriticalFrame) : Prop where
  /-- torque only through the gate -/
  gate : a.torqueCommand ≠ 0 → a.sm.state = .drive ∧ anyFault a.faults kTorqueCutFaults = false ∧
    a.live.pedals.brakeOverThrottle = false ∧ a.bootloaderRequest = false ∧ a.bootloaderEntered = false ∧
    a.live.inverterEnable = true
  bounded : |a.torqueCommand| ≤ (a.P env).inverter.torqueLimitNm
  /-- the inverter is enabled only in a healthy DRIVE -/
  enable : a.live.inverterEnable = true → a.sm.state = .drive ∧ anyFault a.faults kTorqueCutFaults = false ∧
    a.bootloaderRequest = false ∧ a.bootloaderEntered = false
  /-- the command frame carries the torque, clamped to the field's range, and the enable -/
  frame : ∀ m, .inverterTorqueCommand m ∈ sent →
    m.torqueRequestRaw = setRaw (clamp a.torqueCommand (-kS16Nm) kS16Nm) 0.1 ∧ |m.torqueRequestRaw| ≤ 32767 ∧
    |m.torqueRequest - clamp a.torqueCommand (-kS16Nm) kS16Nm| ≤ 0.05 ∧ m.enable = a.live.inverterEnable
  /-- a bus that takes frames gets the command frame, first of all -/
  sends : env.hasCriticalCan = true → x.canAccepts 0 = true →
    ∃ m, sent.head? = some (.inverterTorqueCommand m)
  /-- a cut sampled in this tick acts in this tick -/
  prompt : ¬ a.NoCut x.now → a.torqueCommand = 0 ∧ a.live.inverterEnable = false

/-- The parts of an open torque gate. -/
theorem App.torqueAllowed_iff {a : App} : a.torqueAllowed = true ↔ a.sm.state = .drive ∧
    anyFault a.faults kTorqueCutFaults = false ∧ a.live.pedals.brakeOverThrottle = false ∧
    a.bootloaderEntered = false ∧ a.bootloaderRequest = false := by
  simp only [App.torqueAllowed, Bool.and_eq_true, beq_iff_eq, Bool.not_eq_true', and_assoc]

/-- The parts of an inverter enable. -/
theorem App.enableAllowed_iff {a : App} : a.enableAllowed = true ↔ a.sm.state = .drive ∧
    anyFault a.faults kTorqueCutFaults = false ∧ a.bootloaderEntered = false ∧ a.bootloaderRequest = false := by
  simp only [App.enableAllowed, Bool.and_eq_true, beq_iff_eq, Bool.not_eq_true', and_assoc]

/-- A tick that leaves torque leaves the gate open. -/
theorem App.torqueAllowed_of_torqueCommand {env : Env} {a : App} {x : TickInputs}
    (h : (a.controlTick env x).1.torqueCommand ≠ 0) : (a.controlTick env x).1.torqueAllowed = true := by
  obtain ⟨regen, bse2Psi, positive, hcommand⟩ := a.controlTick_torqueCommand env x
  by_contra hclosed
  apply h
  rw [hcommand]
  exact arbitrate_of_not_allowed (Bool.eq_false_iff.mpr hclosed)

/-- **One tick keeps torque behind the gate**, whatever the app was before it. -/
theorem App.controlTick_torqueGated {env : Env}
    (hlimit : ∀ P, env.initialParams = some P → 0 ≤ P.inverter.torqueLimitNm) (a : App) (x : TickInputs) :
    (a.controlTick env x).1.TorqueGated env x (a.controlTick env x).2 := by
  have henable := a.controlTick_inverterEnable env x
  constructor
  case gate =>
    intro h
    have hopen := App.torqueAllowed_of_torqueCommand h
    obtain ⟨hstate, hfaults, hbot, hentered, hrequest⟩ := App.torqueAllowed_iff.mp hopen
    refine ⟨hstate, hfaults, hbot, hrequest, hentered, ?_⟩
    rw [henable]
    exact App.enableAllowed_iff.mpr ⟨hstate, hfaults, hentered, hrequest⟩
  case bounded =>
    obtain ⟨regen, bse2Psi, positive, hcommand⟩ := a.controlTick_torqueCommand env x
    rw [hcommand]
    exact abs_arbitrate_le _ _ _ _ (App.torqueLimit_nonneg hlimit _)
  case enable =>
    intro h
    rw [henable] at h
    obtain ⟨hstate, hfaults, hentered, hrequest⟩ := App.enableAllowed_iff.mp h
    exact ⟨hstate, hfaults, hrequest, hentered⟩
  case frame =>
    intro m hm
    have hframe := a.controlTick_torqueFrame env x hm
    have hraw : m.torqueRequestRaw =
        setRaw (clamp (a.controlTick env x).1.torqueCommand (-kS16Nm) kS16Nm) 0.1 := by
      rw [hframe, ← a.controlTick_live_torqueCommand env x]
      rfl
    refine ⟨hraw, ?_, ?_, ?_⟩
    · rw [hraw]
      exact abs_setRaw_clamp_le _
    · unfold InverterTorqueCommand.torqueRequest
      rw [hraw]
      exact (abs_physical_setRaw_sub_le (by norm_num)).trans (by norm_num)
    · rw [hframe]
      rfl
  case sends =>
    intro hbus hok
    exact a.controlTick_torqueFrame_sent env x hbus hok
  case prompt =>
    intro hcut
    -- both the torque and the enable need a fault word without a cut, which the sampled cut excludes
    have hno : ¬ anyFault (a.controlTick env x).1.faults kTorqueCutFaults = false := by
      intro h
      exact hcut (a.noCut_of_not_anyFault env x h)
    refine ⟨?_, ?_⟩
    · by_contra h
      exact hno (App.torqueAllowed_iff.mp (App.torqueAllowed_of_torqueCommand h)).2.1
    · rw [henable, Bool.eq_false_iff]
      intro h
      exact hno (App.enableAllowed_iff.mp h).2.1

/-- Parameters whose filters pass every sample through. -/
def benchParams : Params :=
  { apps := { emaAlpha := 1 }
    bse := { emaAlpha := 1 }
    shutdown := { debounceMs := 0 }
    digital := { brakeFlagDebounceMs := 0, motorDebounceMs := 0, rtdDebounceMs := 0 } }

/-- A bench with those parameters and a straight pedal curve. -/
def benchEnv : Env := { pow := fun b _ => b, initialParams := some benchParams }

/-- A standard data frame. -/
def dataFrame (id : U32) (bytes : List U8) : CanFrame :=
  { id := id, len := BitVec.ofNat 8 bytes.length, data := payload bytes }

/-- One frame of each source DRIVE needs, all healthy: the HVC energized with both contactors closed, the
    PDU's BSE3, and the inverter. -/
def healthyFrames : List CanFrame :=
  [dataFrame 305 [2, 1, 1, 0], dataFrame 456 [0, 0], dataFrame 171 [0, 0, 0, 0, 0, 0, 0, 0],
   dataFrame 170 [0, 0, 0, 0, 0, 0, 0, 0], dataFrame 167 [0, 0, 0, 0, 0, 0, 0, 0],
   dataFrame 166 [0, 0, 0, 0, 0, 0, 0, 0], dataFrame 176 [0, 0, 0, 0, 0, 0, 0, 0]]

/-- What the driver and the bus do in one tick of a bench run; the sensors are in counts of 4095. -/
structure BenchTick where
  now : ℕ
  pedal : U16 := 411
  /-- the second pedal sensor -/
  pedal2 : U16 := pedal
  brake : U16 := 411
  loop : U16 := 3000
  rtdPressed : Bool := true
  pins : DigitalInputPins := {}
  frames : List CanFrame := healthyFrames
  wheels : List CanFrame := []
  tasks : List TaskEvent := []

/-- The tick of a bench run. -/
def BenchTick.toTick (b : BenchTick) : Tick :=
  { tasks := b.tasks
    inputs :=
      { now := BitVec.ofNat 32 b.now
        criticalFrames := b.frames
        dataFrames := b.wheels
        adc1 := some
          { completedScans := BitVec.ofNat 32 (b.now + 1)
            counts := [b.pedal, b.pedal2, b.brake, b.brake, b.loop, 0] }
        adc2 := some { completedScans := BitVec.ofNat 32 (b.now + 1), counts := [2000, b.loop] }
        pins := { b.pins with readyToDriveSwitch := some (!b.rtdPressed) } } }

/-- The ticks of a bench run from boot into DRIVE: brake pressed, RTD switch released and then pressed. -/
def benchStart : List BenchTick :=
  [{ now := 0, brake := 1000, rtdPressed := false }, { now := 3, brake := 1000, rtdPressed := false },
   { now := 6, brake := 1000, rtdPressed := false }, { now := 9, brake := 1000 }]

/-- A bench run: the start, then the given ticks, then the healthy car at rest. -/
def benchRun (rest : List BenchTick) : ℕ → Tick :=
  fun n => ((benchStart ++ rest).getD n { now := 3 * n }).toTick

/-- A bench run with the brake released and the pedal half down. -/
def torqueRun : ℕ → Tick := benchRun [{ now := 12 }, { now := 15, pedal := 2000 }]

end Lhre.Vcu
