import Lhre.Vcu.Correctness.DriveEntry

/-!
# `Correctness.Freshness` — no DRIVE on stale data

Every source DRIVE depends on feeds the app through a receive slot or an ADC progress tracker that remembers the
time of its last input. In a run shorter than one turn of the millisecond clock, a tick that ends in DRIVE had every
source within its timeout, and a source silent for its timeout ends DRIVE.

## Contents
- **Time.** `Clocked`: the wrapped tick times of a run as true times.
- **The sources as sampled filters.** `rx_sampled`, `adc1_sampled`, `adc2_sampled`, `inTap_sampled`, `outTap_sampled`.
- **What DRIVE was fed.** `DriveFed`, `DriveReported` and `drive_fresh`.
- **A glitch.** A tap that reads open for less than the debounce time does not end DRIVE.
-/

namespace Lhre.Vcu

open Lhal Can Longhorn

/-! ## Time -/

/-- Tick `n` of the run is at the true time `t n`, seen through the 32-bit millisecond clock. -/
structure Clocked (ρ : ℕ → Tick) (t : ℕ → ℕ) : Prop where
  now : ∀ n, (ρ n).inputs.now = BitVec.ofNat 32 (t n)
  mono : Monotone t

/-! ## The sources as sampled filters -/

section Sources

variable {env : Env} {ρ : ℕ → Tick} {t : ℕ → ℕ}

/-- The frames a run drains from the Critical bus, tick by tick. -/
def criticalFrames (ρ : ℕ → Tick) (n : ℕ) : List CanFrame := (ρ n).inputs.criticalFrames

theorem rx_succ (n : ℕ) :
    (runState env ρ (n + 1)).rx = (runState env ρ n).rx.drain (criticalFrames ρ n) (ρ n).inputs.now := by
  show (after env ρ n).rx = _
  rw [after_eq, App.controlTick_rx, (before_same env ρ n).rx]
  rfl

/-- **Each slot of a run is drained at every tick.** -/
theorem rx_sampled {M : Type} [Message M] (slot : VehicleRx → RxSlot M) (hinit : slot {} = .new M)
    (hdrain : ∀ rx frames now, slot (VehicleRx.drain rx frames now) = (slot rx).drain frames now) :
    RxSlot.Sampled (fun n => slot (runState env ρ n).rx) (criticalFrames ρ) (fun n => (ρ n).inputs.now) where
  empty := hinit
  step n := by rw [rx_succ, hdrain]

/-- The scans of ADC1 and of ADC2, tick by tick. -/
def adc1Scans (ρ : ℕ → Tick) (n : ℕ) : Option AdcScan := (ρ n).inputs.adc1
/-- The scans of ADC2, tick by tick. -/
def adc2Scans (ρ : ℕ → Tick) (n : ℕ) : Option AdcScan := (ρ n).inputs.adc2

theorem adc1_sampled (hc : Clocked ρ t) :
    AdcProgress.Sampled (fun n => (runState env ρ n).adc1Progress) (adc1Scans ρ) t where
  start := rfl
  step n := by
    show (after env ρ n).adc1Progress = _
    rw [after_eq, App.controlTick_adc1Progress, (before_same env ρ n).adc1Progress, hc.now]
    rfl
  mono := hc.mono

theorem adc2_sampled (hc : Clocked ρ t) :
    AdcProgress.Sampled (fun n => (runState env ρ n).adc2Progress) (adc2Scans ρ) t where
  start := rfl
  step n := by
    show (after env ρ n).adc2Progress = _
    rw [after_eq, App.controlTick_adc2Progress, (before_same env ρ n).adc2Progress, hc.now]
    rfl
  mono := hc.mono

/-- The upstream shutdown tap reads closed at tick `n`. -/
def inTap (env : Env) (ρ : ℕ → Tick) (n : ℕ) : Bool := (after env ρ n).shutdownLoop.inHigh

/-- The downstream shutdown tap reads closed at tick `n`. -/
def outTap (env : Env) (ρ : ℕ → Tick) (n : ℕ) : Bool := (after env ρ n).shutdownLoop.outHigh

/-- The debounce time of the shutdown taps at tick `n`. -/
def tapDebounce (env : Env) (ρ : ℕ → Tick) (n : ℕ) : U32 := ((runState env ρ n).P env).shutdown.debounceMs

theorem shutdownLoop_succ (n : ℕ) : ∃ inV outV, (runState env ρ (n + 1)).shutdownLoop =
    (runState env ρ n).shutdownLoop.update inV outV (ρ n).inputs.now ((runState env ρ n).P env).shutdown := by
  refine ⟨((before env ρ n).analogAt env (ρ n).inputs).shutdownIn.pinV,
    ((before env ρ n).analogAt env (ρ n).inputs).shutdownOut.pinV, ?_⟩
  show (after env ρ n).shutdownLoop = _
  rw [after_eq, App.controlTick_shutdownLoop, (before_same env ρ n).shutdownLoop, before_P]

theorem inTap_sampled (hc : Clocked ρ t) :
    Debouncer.Sampled (fun n => (runState env ρ n).shutdownLoop.inDebounce) (inTap env ρ) t
      (tapDebounce env ρ) where
  fresh := rfl
  step n := by
    obtain ⟨inV, outV, h⟩ := @shutdownLoop_succ env ρ n
    show (runState env ρ (n + 1)).shutdownLoop.inDebounce =
      (runState env ρ n).shutdownLoop.inDebounce.update (runState env ρ (n + 1)).shutdownLoop.inHigh _ _
    rw [h, ShutdownLoop.update_inDebounce, ShutdownLoop.update_inHigh, hc.now]
    rfl
  mono := hc.mono

theorem outTap_sampled (hc : Clocked ρ t) :
    Debouncer.Sampled (fun n => (runState env ρ n).shutdownLoop.outDebounce) (outTap env ρ) t
      (tapDebounce env ρ) where
  fresh := rfl
  step n := by
    obtain ⟨inV, outV, h⟩ := @shutdownLoop_succ env ρ n
    show (runState env ρ (n + 1)).shutdownLoop.outDebounce =
      (runState env ρ n).shutdownLoop.outDebounce.update (runState env ρ (n + 1)).shutdownLoop.outHigh _ _
    rw [h, ShutdownLoop.update_outDebounce, ShutdownLoop.update_outHigh, hc.now]
    rfl
  mono := hc.mono

end Sources

/-! ## What DRIVE was fed -/

/-- A standard-id frame of message `M`, long enough to decode, was drained within the message's timeout before
    tick `n`. -/
def Heard (M : Type) [Message M] (ρ : ℕ → Tick) (t : ℕ → ℕ) (n : ℕ) : Prop :=
  ∃ k f, k ≤ n ∧ t n < t k + (kTimeoutMs M).toNat ∧ f ∈ criticalFrames ρ k ∧
    f.extendedId = false ∧ f.id = Message.kFrameId M ∧ Message.kDlc M ≤ f.len

/-- No frame that decodes as message `M` was drained after some tick at least the timeout before tick `n`. -/
def Silent (M : Type) [Message M] (ρ : ℕ → Tick) (t : ℕ → ℕ) (n : ℕ) : Prop :=
  ∃ k, k ≤ n ∧ t k + (kTimeoutMs M).toNat ≤ t n ∧ ∀ j f, k < j → j ≤ n → f ∈ criticalFrames ρ j →
    ¬ (f.extendedId = false ∧ f.id = Message.kFrameId M ∧ Message.kDlc M ≤ f.len)

/-- The bank's counter advanced less than 10 ms before tick `n`. -/
def Converting (adc : ℕ → Option AdcScan) (t : ℕ → ℕ) (n : ℕ) : Prop :=
  ∃ k, k ≤ n ∧ Advanced adc k ∧ t n < t k + 10

/-- The bank's counter did not advance after some tick at least 10 ms before tick `n`. -/
def Stalled (adc : ℕ → Option AdcScan) (t : ℕ → ℕ) (n : ℕ) : Prop :=
  ∃ k, k ≤ n ∧ t k + 10 ≤ t n ∧ ∀ j, k < j → j ≤ n → ¬ Advanced adc j

/-- Every source of DRIVE was heard in time at tick `n`. -/
structure DriveFed (ρ : ℕ → Tick) (t : ℕ → ℕ) (n : ℕ) : Prop where
  contactorStatus : Heard ContactorStatus ρ t n
  bse3 : Heard Bse3 ρ t n
  inverterFaults : Heard InverterFaults ρ t n
  inverterDetails : Heard InverterDetails ρ t n
  inverterCurrent : Heard InverterCurrent ρ t n
  inverterVoltage : Heard InverterVoltage ρ t n
  speed : Heard InverterSpeed ρ t n ∨ Heard InverterStatus ρ t n
  adc1 : Converting (adc1Scans ρ) t n
  adc2 : Converting (adc2Scans ρ) t n

/-- Some source of DRIVE has been silent for its timeout at tick `n`. -/
def SomeSourceSilent (ρ : ℕ → Tick) (t : ℕ → ℕ) (n : ℕ) : Prop :=
  Silent ContactorStatus ρ t n ∨ Silent Bse3 ρ t n ∨ Silent InverterFaults ρ t n ∨
  Silent InverterDetails ρ t n ∨ Silent InverterCurrent ρ t n ∨ Silent InverterVoltage ρ t n ∨
  (Silent InverterSpeed ρ t n ∧ Silent InverterStatus ρ t n) ∨ Stalled (adc1Scans ρ) t n ∨
  Stalled (adc2Scans ρ) t n

/-- A tap read closed over a window of the debounce time, and no later stretch of open readings up to tick `n`
    lasted the debounce time. -/
def TapHeldClosed (tap : ℕ → Bool) (debounce : ℕ → U32) (t : ℕ → ℕ) (n : ℕ) : Prop :=
  ∃ m l, m ≤ l ∧ l ≤ n ∧ (∀ k, m ≤ k → k ≤ l → tap k = true) ∧ t m + (debounce l).toNat ≤ t l ∧
    ∀ c d, l < c → c ≤ d → d ≤ n → (∀ k, c ≤ k → k ≤ d → tap k = false) → t d < t c + (debounce d).toNat

/-- What the sources of DRIVE last said at tick `n`. -/
structure DriveReported (env : Env) (ρ : ℕ → Tick) (t : ℕ → ℕ) (n : ℕ) : Prop where
  contactors : ∃ k f, LastHeard ContactorStatus (criticalFrames ρ) n k f ∧
    HvcState.ofRaw (Message.fromFrame f : ContactorStatus).hvcStateMachine = .energized ∧
    (Message.fromFrame f : ContactorStatus).positiveHvContactor = true ∧
    (Message.fromFrame f : ContactorStatus).negativeHvContactor = true
  inverterOk : ∃ k f, LastHeard InverterFaults (criticalFrames ρ) n k f ∧
    (Message.fromFrame f : InverterFaults).postFaults = 0 ∧ (Message.fromFrame f : InverterFaults).runFaults = 0
  inTap : TapHeldClosed (inTap env ρ) (tapDebounce env ρ) t n
  outTap : TapHeldClosed (outTap env ρ) (tapDebounce env ρ) t n

section Fresh

variable {env : Env} {ρ : ℕ → Tick} {t : ℕ → ℕ} {n : ℕ}

/-- A message that was heard in time is not silent. -/
theorem not_silent_of_heard {M : Type} [Message M] (hmono : Monotone t) (h : Heard M ρ t n) :
    ¬ Silent M ρ t n := by
  obtain ⟨k, f, hkn, htime, hmem, hframe⟩ := h
  rintro ⟨j, hjn, hlong, hquiet⟩
  by_cases hjk : j < k
  · exact hquiet k f hjk hkn hmem hframe
  · have : t k ≤ t j := hmono (not_lt.mp hjk)
    omega

/-- A bank that is converting is not stalled. -/
theorem not_stalled_of_converting {adc : ℕ → Option AdcScan} (hmono : Monotone t) (h : Converting adc t n) :
    ¬ Stalled adc t n := by
  obtain ⟨k, hkn, hadv, htime⟩ := h
  rintro ⟨j, hjn, hlong, hquiet⟩
  by_cases hjk : j < k
  · exact hquiet k hjk hkn hadv
  · have : t k ≤ t j := hmono (not_lt.mp hjk)
    omega

/-- Fed sources are not silent. -/
theorem DriveFed.not_silent (hmono : Monotone t) (h : DriveFed ρ t n) : ¬ SomeSourceSilent ρ t n := by
  rintro (hs | hs | hs | hs | hs | hs | ⟨hspeed, hstatus⟩ | hs | hs)
  · exact not_silent_of_heard hmono h.contactorStatus hs
  · exact not_silent_of_heard hmono h.bse3 hs
  · exact not_silent_of_heard hmono h.inverterFaults hs
  · exact not_silent_of_heard hmono h.inverterDetails hs
  · exact not_silent_of_heard hmono h.inverterCurrent hs
  · exact not_silent_of_heard hmono h.inverterVoltage hs
  · rcases h.speed with hheard | hheard
    · exact not_silent_of_heard hmono hheard hspeed
    · exact not_silent_of_heard hmono hheard hstatus
  · exact not_stalled_of_converting hmono h.adc1 hs
  · exact not_stalled_of_converting hmono h.adc2 hs

/-- A slot of the app that is fresh after tick `n` holds the last frame of its message, drained in time. -/
theorem last_of_fresh (hc : Clocked ρ t) (hspan : t n - t 0 < 2 ^ 32) {M : Type} [Message M]
    (slot : VehicleRx → RxSlot M) (hinit : slot {} = .new M)
    (hdrain : ∀ rx frames now, slot (VehicleRx.drain rx frames now) = (slot rx).drain frames now)
    (hfresh : (slot (after env ρ n).rx).fresh (BitVec.ofNat 32 (t n)) = true) :
    ∃ k f, LastHeard M (criticalFrames ρ) n k f ∧ (slot (after env ρ n).rx).msg = Message.fromFrame f ∧
      t n < t k + (kTimeoutMs M).toNat := by
  have hsampled := @rx_sampled env ρ _ _ slot hinit hdrain
  rw [funext hc.now] at hsampled
  exact hsampled.heard_of_fresh hc.mono hspan hfresh

/-- A slot of the app that is fresh after tick `n` was heard in time. -/
theorem heard_of_fresh (hc : Clocked ρ t) (hspan : t n - t 0 < 2 ^ 32) {M : Type} [Message M]
    (slot : VehicleRx → RxSlot M) (hinit : slot {} = .new M)
    (hdrain : ∀ rx frames now, slot (VehicleRx.drain rx frames now) = (slot rx).drain frames now)
    (hfresh : (slot (after env ρ n).rx).fresh (BitVec.ofNat 32 (t n)) = true) : Heard M ρ t n := by
  obtain ⟨k, f, ⟨hk, hlast, -⟩, -, htime⟩ := last_of_fresh hc hspan slot hinit hdrain hfresh
  obtain ⟨hmem, hacc⟩ := lastAccepted_mem hlast
  exact ⟨k, f, hk, htime, hmem, accepts_iff.mp hacc⟩

/-- **What a tick that ends in DRIVE was fed.** -/
theorem driveFed_of_drive (hc : Clocked ρ t) (hspan : t n - t 0 < 2 ^ 32)
    (hdrive : (after env ρ n).sm.state = .drive) : DriveFed ρ t n := by
  have hready := App.driveReady_of_drive hdrive
  have hcut := (before env ρ n).noCut_of_not_anyFault env (ρ n).inputs hready.noCutFault
  have hadc := hcut.adcFresh
  rw [App.controlTick_live_adcFresh, Bool.and_eq_true, (before_same env ρ n).adc1Progress,
    (before_same env ρ n).adc2Progress, hc.now] at hadc
  have hinverter := hready.inverterFresh
  unfold VehicleRx.inverterFresh at hinverter
  simp only [Bool.and_eq_true, Bool.or_eq_true] at hinverter
  obtain ⟨⟨⟨⟨hfaults, hdetails⟩, hcurrent⟩, hvoltage⟩, hspeed⟩ := hinverter
  have hhvc := hready.hvcFresh
  have hbse3 := hready.bse3Fresh
  rw [hc.now] at hfaults hdetails hcurrent hvoltage hspeed hhvc hbse3
  constructor
  case contactorStatus =>
    refine heard_of_fresh hc hspan (·.contactorStatus) rfl ?_ hhvc
    intros; rw [VehicleRx.drain_eq]
  case bse3 =>
    refine heard_of_fresh hc hspan (·.bse3) rfl ?_ hbse3
    intros; rw [VehicleRx.drain_eq]
  case inverterFaults =>
    refine heard_of_fresh hc hspan (·.inverterFaults) rfl ?_ hfaults
    intros; rw [VehicleRx.drain_eq]
  case inverterDetails =>
    refine heard_of_fresh hc hspan (·.inverterDetails) rfl ?_ hdetails
    intros; rw [VehicleRx.drain_eq]
  case inverterCurrent =>
    refine heard_of_fresh hc hspan (·.inverterCurrent) rfl ?_ hcurrent
    intros; rw [VehicleRx.drain_eq]
  case inverterVoltage =>
    refine heard_of_fresh hc hspan (·.inverterVoltage) rfl ?_ hvoltage
    intros; rw [VehicleRx.drain_eq]
  case speed =>
    rcases hspeed with hspeed | hstatus
    -- either frame carries the speed
    · left
      refine heard_of_fresh hc hspan (·.inverterSpeed) rfl ?_ hspeed
      intros; rw [VehicleRx.drain_eq]
    · right
      refine heard_of_fresh hc hspan (·.inverterStatus) rfl ?_ hstatus
      intros; rw [VehicleRx.drain_eq]
  case adc1 => exact (adc1_sampled hc).advanced_of_fresh hspan hadc.1
  case adc2 => exact (adc2_sampled hc).advanced_of_fresh hspan hadc.2

/-- **What the sources last said on a tick that ends in DRIVE.** -/
theorem driveReported_of_drive (hc : Clocked ρ t) (hspan : t n - t 0 < 2 ^ 32)
    (hdrive : (after env ρ n).sm.state = .drive) : DriveReported env ρ t n := by
  have hready := App.driveReady_of_drive hdrive
  have hhvc := hready.hvcFresh
  have hinverter := hready.inverterFresh
  unfold VehicleRx.inverterFresh at hinverter
  simp only [Bool.and_eq_true] at hinverter
  have hfaults := hinverter.1.1.1.1
  have hok := hready.inverterOk
  unfold VehicleRx.inverterFaulted at hok
  simp only [hfaults, Bool.true_and, Bool.or_eq_false_iff, bne_eq_false_iff_eq] at hok
  rw [hc.now] at hhvc hfaults
  have hloop : ((runState env ρ (n + 1)).shutdownLoop).closed = true := hready.loopClosed
  have htaps : (runState env ρ (n + 1)).shutdownLoop.inDebounce.value = true ∧
      (runState env ρ (n + 1)).shutdownLoop.outDebounce.value = true := by
    obtain ⟨inV, outV, h⟩ := @shutdownLoop_succ env ρ n
    rw [h] at hloop ⊢
    exact ShutdownLoop.taps_of_closed hloop
  constructor
  case contactors =>
    obtain ⟨k, f, hlast, hmsg, -⟩ := last_of_fresh hc hspan (·.contactorStatus) rfl
      (by intros; rw [VehicleRx.drain_eq]) hhvc
    refine ⟨k, f, hlast, ?_⟩
    rw [← hmsg]
    exact ⟨hready.energized, hready.contactorsClosed⟩
  case inverterOk =>
    obtain ⟨k, f, hlast, hmsg, -⟩ := last_of_fresh hc hspan (·.inverterFaults) rfl
      (by intros; rw [VehicleRx.drain_eq]) hfaults
    refine ⟨k, f, hlast, ?_⟩
    rw [← hmsg]
    exact hok
  case inTap => exact (inTap_sampled hc).held_of_value hspan Bool.false_ne_true htaps.1
  case outTap => exact (outTap_sampled hc).held_of_value hspan Bool.false_ne_true htaps.2

/-- **No DRIVE on stale data.** In a run shorter than one turn of the clock, a tick that ends in DRIVE had every
    source within its timeout, with nothing it reported against DRIVE; and a tick at which some source has been
    silent for its timeout does not end in DRIVE. -/
theorem drive_fresh (hc : Clocked ρ t) (hspan : t n - t 0 < 2 ^ 32) :
    ((after env ρ n).sm.state = .drive → DriveFed ρ t n ∧ DriveReported env ρ t n) ∧
      (SomeSourceSilent ρ t n → (after env ρ n).sm.state ≠ .drive) := by
  refine ⟨?_, ?_⟩
  · intro hdrive
    exact ⟨driveFed_of_drive hc hspan hdrive, driveReported_of_drive hc hspan hdrive⟩
  · intro hsilent hdrive
    have hfed := driveFed_of_drive hc hspan hdrive
    exact hfed.not_silent hc.mono hsilent

end Fresh

/-! ## A glitch -/

/-- The bench with the shutdown taps debounced for 10 ms. -/
def tapEnv : Env := { benchEnv with initialParams := some { benchParams with shutdown := {} } }

/-- A run into DRIVE in which both taps then read 0 V for one tick. -/
def glitchRun : ℕ → Tick := fun n => ([
  { now := 0, brake := 1000, rtdPressed := false }, { now := 3, brake := 1000, rtdPressed := false },
  { now := 6, brake := 1000, rtdPressed := false }, { now := 9, brake := 1000, rtdPressed := false },
  { now := 12, brake := 1000, rtdPressed := false }, { now := 15, brake := 1000 },
  { now := 18, loop := 0 } ].getD n { now := 3 * n } : BenchTick).toTick

/-- The glitch run ticks every 3 ms. -/
theorem glitchRun_clocked : Clocked glitchRun (fun n => 3 * n) where
  now n := by
    match n with
    | 0 | 1 | 2 | 3 | 4 | 5 | 6 => rfl
    | n + 7 => rfl
  mono _ _ h := Nat.mul_le_mul_left 3 h

/-- The freshness facts on the first tick of the glitch run that ends in DRIVE. -/
theorem drive_fresh_glitch : DriveFed glitchRun (fun n => 3 * n) 5 ∧
    DriveReported tapEnv glitchRun (fun n => 3 * n) 5 :=
  (@drive_fresh tapEnv _ _ 5 glitchRun_clocked (by decide)).1 (by decide +kernel)

/-- **The taps are debounced.** It is not so that on every tick that ends in DRIVE both taps have read closed
    throughout the last debounce time: a tap may read open for less than that. -/
theorem not_taps_closed_throughout : ¬ ∀ (env : Env) (ρ : ℕ → Tick) (t : ℕ → ℕ) (n : ℕ), Clocked ρ t →
    t n - t 0 < 2 ^ 32 → (after env ρ n).sm.state = .drive →
    ∀ k, k ≤ n → t n ≤ t k + (tapDebounce env ρ n).toNat → inTap env ρ k = true ∧ outTap env ρ k = true := by
  intro h
  have hopen := (h tapEnv glitchRun (fun n => 3 * n) 6 glitchRun_clocked (by decide) (by decide +kernel) 6
    (Nat.le_refl 6) (Nat.le_add_right _ _)).1
  exact absurd hopen (by decide +kernel)

end Lhre.Vcu
