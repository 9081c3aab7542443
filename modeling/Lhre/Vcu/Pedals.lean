import Lhre.Vcu.Params
import Lhre.Drivers.Debounce

/-!
# `Vcu.Pedals` — APPS and BSE processing

`PedalProcessor::Update` (`boards/VCU/App/control/pedals.cpp`), called once per control tick: the plausibility
checks of the two pedal sensors and the two brake sensors, the filtered torque input, and the
brake-over-throttle latch.
-/

namespace Lhre.Vcu

open Longhorn

structure PedalInputs where
  apps1V : ℚ := 0
  apps2V : ℚ := 0
  bse1V : ℚ := 0
  bse2V : ℚ := 0
  -- MCU pin volts on the BSE channels, for the hard-brake cross-check
  bse1PinV : ℚ := 0
  bse2PinV : ℚ := 0
  hardBrakingHw : Bool := false
deriving DecidableEq

structure PedalOutputs where
  apps1TravelUnclamped : ℚ := 0
  apps2TravelUnclamped : ℚ := 0
  apps1Travel : ℚ := 0
  apps2Travel : ℚ := 0
  /-- filtered + deadzone: the torque input -/
  pedalTravel : ℚ := 0
  apps1Disconnect : Bool := false
  apps2Disconnect : Bool := false
  apps1OutOfRange : Bool := false
  apps2OutOfRange : Bool := false
  appsMismatch : Bool := false
  appsImplausibility : Bool := false
  bse1PsiUnclamped : ℚ := 0
  bse2PsiUnclamped : ℚ := 0
  bse1Psi : ℚ := 0
  bse2Psi : ℚ := 0
  bsePsiFiltered : ℚ := 0
  bse1Disconnect : Bool := false
  bse2Disconnect : Bool := false
  bse1OutOfRange : Bool := false
  bse2OutOfRange : Bool := false
  bse1Fault : Bool := false
  bse2Fault : Bool := false
  brakePressed : Bool := false
  brakeLight : ℚ := 0
  /-- filtered pressure at or above the brake-light threshold -/
  brakeForRtd : Bool := false
  brakeOverThrottle : Bool := false
  firmwareHardBrake : Bool := false
  hardBrakeMismatch : Bool := false
deriving DecidableEq

structure PedalProcessor where
  appsImplausibleTimer : PersistenceTimer := {}
  bse1FaultTimer : PersistenceTimer := {}
  bse2FaultTimer : PersistenceTimer := {}
  hardBrakeMismatchTimer : PersistenceTimer := {}
  pedalFilter : Ema := {}
  bseFilter : Ema := {}
  brakePressed : Bool := false
  botLatched : Bool := false
deriving DecidableEq

/-- `Deadzone`. -/
def deadzone (x lo hi : ℚ) : ℚ :=
  if x ≤ lo then 0 else if hi ≤ x then 1 else (x - lo) / (hi - lo)

/-! ## The readings of one tick -/

/-- Travel of the first pedal sensor, clamped to `[0, 1]`. -/
def apps1Travel (pin : PedalInputs) (apps : AppsParams) : ℚ :=
  clamp (normalize pin.apps1V apps.apps1VAt0 apps.apps1VAt100) 0 1

/-- Travel of the second pedal sensor, clamped to `[0, 1]`. -/
def apps2Travel (pin : PedalInputs) (apps : AppsParams) : ℚ :=
  clamp (normalize pin.apps2V apps.apps2VAt0 apps.apps2VAt100) 0 1

/-- The raw average APPS travel, before the filter and the deadzone. -/
def averageTravel (pin : PedalInputs) (apps : AppsParams) : ℚ :=
  0.5 * (apps1Travel pin apps + apps2Travel pin apps)

/-- The two sensors deviate by more than the allowed amount. -/
def appsMismatch (pin : PedalInputs) (apps : AppsParams) : Bool :=
  decide (apps.maxDeviation < |apps1Travel pin apps - apps2Travel pin apps|)

/-- At least one pedal sensor is outside its open/short window. -/
def appsRange (pin : PedalInputs) (apps : AppsParams) : Bool :=
  decide (pin.apps1V < apps.windowLowV) || decide (pin.apps2V < apps.windowLowV) ||
    decide (apps.windowHighV < pin.apps1V) || decide (apps.windowHighV < pin.apps2V)

/-- Hysteresis on the filtered brake pressure. -/
def pressedHysteresis (last : Bool) (psi : ℚ) (bse : BseParams) : Bool :=
  if bse.pressedOnPsi ≤ psi then true else if psi < bse.pressedOffPsi then false else last

/-- The brake-over-throttle latch: set with the brake pressed and the pedal over the on threshold,
    released below the off threshold. -/
def botLatch (last brakePressed : Bool) (average : ℚ) (bse : BseParams) : Bool :=
  if brakePressed && decide (bse.botPedalOn < average) then true
  else if average < bse.botPedalOff then false
  else last

/-- `PedalProcessor::Update`. -/
def PedalProcessor.update (p : PedalProcessor) (pin : PedalInputs) (now : U32) (apps : AppsParams)
    (bse : BseParams) : PedalProcessor × PedalOutputs :=
  -- APPS
  let apps1Unclamped := normalize pin.apps1V apps.apps1VAt0 apps.apps1VAt100
  let apps2Unclamped := normalize pin.apps2V apps.apps2VAt0 apps.apps2VAt100
  let appsTimer := p.appsImplausibleTimer.update (appsMismatch pin apps || appsRange pin apps) now
    apps.implausibleMs
  let average := averageTravel pin apps
  let pedalFilter := p.pedalFilter.update average apps.emaAlpha
  -- BSE
  let bse1Unclamped := normalize pin.bse1V bse.vAt0Psi bse.vAtFull * bse.fullScalePsi
  let bse2Unclamped := normalize pin.bse2V bse.vAt0Psi bse.vAtFull * bse.fullScalePsi
  let bse1Psi := clamp bse1Unclamped 0 bse.fullScalePsi
  let bse2Psi := clamp bse2Unclamped 0 bse.fullScalePsi
  let bse1Disconnect := decide (pin.bse1V < bse.windowLowV)
  let bse2Disconnect := decide (pin.bse2V < bse.windowLowV)
  let bse1OutOfRange := decide (bse.windowHighV < pin.bse1V)
  let bse2OutOfRange := decide (bse.windowHighV < pin.bse2V)
  let bse1Timer := p.bse1FaultTimer.update (bse1Disconnect || bse1OutOfRange) now bse.rangeFaultMs
  let bse2Timer := p.bse2FaultTimer.update (bse2Disconnect || bse2OutOfRange) now bse.rangeFaultMs
  let bseFilter := p.bseFilter.update (0.5 * (bse1Psi + bse2Psi)) bse.emaAlpha
  let brakePressed := pressedHysteresis p.brakePressed bseFilter.y bse
  let brakeForRtd := decide (bse.brakeLightPsi ≤ bseFilter.y)
  let botLatched := botLatch p.botLatched brakePressed average bse
  -- the firmware's own hard-brake view against the BSPD comparators: a diagnostic only
  let firmwareHardBrake := decide (bse.hardBrakePinV < pin.bse1PinV) && decide (bse.hardBrakePinV < pin.bse2PinV)
  let mismatchTimer := p.hardBrakeMismatchTimer.update (firmwareHardBrake != pin.hardBrakingHw) now
    bse.hardBrakeMismatchMs
  ({ appsImplausibleTimer := appsTimer.1
     bse1FaultTimer := bse1Timer.1
     bse2FaultTimer := bse2Timer.1
     hardBrakeMismatchTimer := mismatchTimer.1
     pedalFilter := pedalFilter
     bseFilter := bseFilter
     brakePressed := brakePressed
     botLatched := botLatched },
   { apps1TravelUnclamped := apps1Unclamped
     apps2TravelUnclamped := apps2Unclamped
     apps1Travel := apps1Travel pin apps
     apps2Travel := apps2Travel pin apps
     pedalTravel := deadzone pedalFilter.y apps.minTravelDeadzone apps.maxTravelDeadzone
     apps1Disconnect := decide (pin.apps1V < apps.windowLowV)
     apps2Disconnect := decide (pin.apps2V < apps.windowLowV)
     apps1OutOfRange := decide (apps.windowHighV < pin.apps1V)
     apps2OutOfRange := decide (apps.windowHighV < pin.apps2V)
     appsMismatch := appsMismatch pin apps
     appsImplausibility := appsTimer.2
     bse1PsiUnclamped := bse1Unclamped
     bse2PsiUnclamped := bse2Unclamped
     bse1Psi := bse1Psi
     bse2Psi := bse2Psi
     bsePsiFiltered := bseFilter.y
     bse1Disconnect := bse1Disconnect
     bse2Disconnect := bse2Disconnect
     bse1OutOfRange := bse1OutOfRange
     bse2OutOfRange := bse2OutOfRange
     bse1Fault := bse1Timer.2
     bse2Fault := bse2Timer.2
     brakePressed := brakePressed
     brakeLight := if brakeForRtd then bse.brakeLightDuty else 0
     brakeForRtd := brakeForRtd
     brakeOverThrottle := botLatched
     firmwareHardBrake := firmwareHardBrake
     hardBrakeMismatch := mismatchTimer.2 })

section Update

variable (p : PedalProcessor) (pin : PedalInputs) (now : U32) (apps : AppsParams) (bse : BseParams)

@[simp] theorem PedalProcessor.update_botLatched : (p.update pin now apps bse).1.botLatched =
    botLatch p.botLatched (p.update pin now apps bse).2.brakePressed (averageTravel pin apps) bse := rfl

@[simp] theorem PedalProcessor.update_brakeOverThrottle :
    (p.update pin now apps bse).2.brakeOverThrottle = (p.update pin now apps bse).1.botLatched := rfl

@[simp] theorem PedalProcessor.update_appsImplausibleTimer :
    (p.update pin now apps bse).1.appsImplausibleTimer =
      (p.appsImplausibleTimer.update (appsMismatch pin apps || appsRange pin apps) now apps.implausibleMs).1 :=
  rfl

@[simp] theorem PedalProcessor.update_appsImplausible : (p.update pin now apps bse).2.appsImplausibility =
    (p.appsImplausibleTimer.update (appsMismatch pin apps || appsRange pin apps) now apps.implausibleMs).2 :=
  rfl

end Update

/-! ## The brake-over-throttle latch -/

/-- The latch sets while the brake is pressed and the pedal is over the on threshold. -/
theorem botLatch_set {last : Bool} {average : ℚ} {bse : BseParams} (h : bse.botPedalOn < average) :
    botLatch last true average bse = true := by
  unfold botLatch
  rw [if_pos (by simpa using h)]

/-- **The latch holds until the pedal is released**, whatever the brake does. -/
theorem botLatch_hold {brakePressed : Bool} {average : ℚ} {bse : BseParams}
    (h : ¬ average < bse.botPedalOff) : botLatch true brakePressed average bse = true := by
  unfold botLatch
  rw [if_neg h, ite_self]

/-- **A latched tick has a cause.** The latch is set on a tick only by the brake with the pedal over the
    on threshold, or because it was set and the pedal was not released. -/
theorem botLatch_cause {last brakePressed : Bool} {average : ℚ} {bse : BseParams}
    (h : botLatch last brakePressed average bse = true) :
    (brakePressed = true ∧ bse.botPedalOn < average) ∨ (last = true ∧ ¬ average < bse.botPedalOff) := by
  unfold botLatch at h
  split at h
  · rename_i hset
    rw [Bool.and_eq_true, decide_eq_true_eq] at hset
    left
    exact hset
  · split at h
    · cases h
    · rename_i hno
      right
      exact ⟨h, hno⟩

end Lhre.Vcu
