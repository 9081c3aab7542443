import Lhre.Vcu.Params
import Lhre.Drivers.Debounce

/-!
# `Vcu.Sensors` — steering, brake bias, battery estimate and the shutdown loop

The sensor conversions of the control loop (`boards/VCU/App/control/{steering,brake_bias,battery}` and
`boards/VCU/App/safety/shutdown_loop`). The shutdown loop is the one DRIVE depends on:
`ShutdownLoop.taps_of_closed` says what a closed reading
implies about the two taps.
-/

namespace Lhre.Vcu

open Lhal Can Longhorn

/-! ## Steering and brake bias -/

structure SteeringOutputs where
  /-- fraction of the sensor span, unclamped -/
  travel : ℚ := 0
  angleDeg : ℚ := 0
  /-- diagnostic only -/
  rangeFault : Bool := false
deriving DecidableEq

/-- `ComputeSteering`. -/
def computeSteering (sensorV : ℚ) (p : SteeringParams) : SteeringOutputs :=
  let travel := normalize sensorV p.vAt0 p.vAt100
  let pct := clamp travel 0 1
  let pct := if p.wrapAbove < pct then pct - 1 else pct
  { travel := travel
    rangeFault := decide (sensorV < p.windowLowV) || decide (p.windowHighV < sensorV)
    angleDeg := ((pct - p.pctZero) / p.pctSpan - 0.5) * p.rangeDeg + p.offsetDeg }

/-- Front share of total brake pressure, held while the total is small. -/
structure BrakeBias where
  bias : ℚ := 0
deriving DecidableEq

/-- `BrakeBias::Update`. -/
def BrakeBias.update (b : BrakeBias) (frontPsi rearPsi minTotalPsi : ℚ) : BrakeBias :=
  let total := frontPsi + rearPsi
  if minTotalPsi < total then { bias := frontPsi / total } else b

/-! ## Battery -/

structure BatteryInputs where
  dcBusCurrent : ℚ := 0
  dcBusVoltage : ℚ := 0
  minCellV : ℚ := 0
  maxCellV : ℚ := 0
  dtMs : U32 := 0
deriving DecidableEq

structure BatteryOutputs where
  ocvMinCellV : ℚ := 0
  ocvMaxCellV : ℚ := 0
  soePct : ℚ := 0
  netEnergyWh : ℚ := 0
  regenEnergyWh : ℚ := 0
deriving DecidableEq

/-- Updates OCV only after the pack rests; holds the estimate under load. -/
structure BatteryEstimator where
  restMs : U32 := 0
  ocvMin : Ema := {}
  ocvMax : Ema := {}
  out : BatteryOutputs := {}
deriving DecidableEq

/-- `BatteryEstimator::Update`; the outputs are the `out` of the result. -/
def BatteryEstimator.update (b : BatteryEstimator) (x : BatteryInputs) (p : BatteryParams) :
    BatteryEstimator :=
  let minCell := if 0 < x.minCellV then x.minCellV else p.missingMinCellV
  let maxCell := if 0 < x.maxCellV then x.maxCellV else minCell
  let restMs := if |x.dcBusCurrent| < p.restCurrentA then b.restMs + x.dtMs else 0
  let rested := decide (p.restTimeMs ≤ restMs)
  let ocvMin := if rested then b.ocvMin.update minCell p.cellVoltageEmaAlpha else b.ocvMin
  let ocvMax := if rested then b.ocvMax.update maxCell p.cellVoltageEmaAlpha else b.ocvMax
  let ocvMinCellV := if rested then ocvMin.y else b.out.ocvMinCellV
  let stepWh := x.dcBusCurrent * x.dcBusVoltage * (x.dtMs.toNat : ℚ) / 3600000
  let net := b.out.netEnergyWh + stepWh
  { restMs := restMs
    ocvMin := ocvMin
    ocvMax := ocvMax
    out :=
      { ocvMinCellV := ocvMinCellV
        ocvMaxCellV := if rested then ocvMax.y else b.out.ocvMaxCellV
        soePct := lookup1D p.soeFromCellVoltage p.soeMinCellV p.soeMaxCellV ocvMinCellV
        netEnergyWh := if net < 0 then 0 else net
        regenEnergyWh := if stepWh < 0 then b.out.regenEnergyWh - stepWh else b.out.regenEnergyWh } }

/-! ## Shutdown loop -/

/-- Shutdown loop state from the two taps either side of the BSPD relay. -/
structure ShutdownLoop where
  inHigh : Bool := false
  outHigh : Bool := false
  inDebounce : Debouncer := {}
  outDebounce : Debouncer := {}
  sampled : Bool := false
  firstMs : U32 := 0
  state : ShutdownLoopState := .unknown
deriving DecidableEq

/-- `ShutdownLoop::closed`. -/
def ShutdownLoop.closed (s : ShutdownLoop) : Bool := s.state == .closed

/-- `ShutdownLoop::Hysteresis`. -/
def tapHysteresis (last : Bool) (v : ℚ) (p : ShutdownParams) : Bool :=
  if p.highPinV ≤ v then true else if v < p.lowPinV then false else last

/-- The state the two debounced taps report; UNKNOWN until both had a full debounce window to settle. -/
def loopState (settled inHigh outHigh : Bool) : ShutdownLoopState :=
  if !settled then .unknown
  else if inHigh && outHigh then .closed
  else if inHigh then .bspdRelayOpen
  else if outHigh then .implausibility
  else .upstreamOpen

/-- Only both taps high reads as closed. -/
theorem loopState_eq_closed {settled inHigh outHigh : Bool} :
    loopState settled inHigh outHigh = .closed ↔ settled = true ∧ inHigh = true ∧ outHigh = true := by
  revert settled inHigh outHigh
  decide

/-- `ShutdownLoop::Update`; the reported state is the `state` of the result. -/
def ShutdownLoop.update (s : ShutdownLoop) (inPinV outPinV : ℚ) (now : U32) (p : ShutdownParams) :
    ShutdownLoop :=
  let inHigh := tapHysteresis s.inHigh inPinV p
  let outHigh := tapHysteresis s.outHigh outPinV p
  let inDebounce := s.inDebounce.update inHigh now p.debounceMs
  let outDebounce := s.outDebounce.update outHigh now p.debounceMs
  let firstMs := if s.sampled then s.firstMs else now
  { inHigh := inHigh
    outHigh := outHigh
    inDebounce := inDebounce
    outDebounce := outDebounce
    sampled := true
    firstMs := firstMs
    state := loopState (elapsedMs now firstMs p.debounceMs) inDebounce.value outDebounce.value }

section Update

variable (s : ShutdownLoop) (inPinV outPinV : ℚ) (now : U32) (p : ShutdownParams)

@[simp] theorem ShutdownLoop.update_inHigh :
    (s.update inPinV outPinV now p).inHigh = tapHysteresis s.inHigh inPinV p := rfl

@[simp] theorem ShutdownLoop.update_outHigh :
    (s.update inPinV outPinV now p).outHigh = tapHysteresis s.outHigh outPinV p := rfl

@[simp] theorem ShutdownLoop.update_inDebounce : (s.update inPinV outPinV now p).inDebounce =
    s.inDebounce.update (tapHysteresis s.inHigh inPinV p) now p.debounceMs := rfl

@[simp] theorem ShutdownLoop.update_outDebounce : (s.update inPinV outPinV now p).outDebounce =
    s.outDebounce.update (tapHysteresis s.outHigh outPinV p) now p.debounceMs := rfl

/-- **A closed loop has both taps debounced high.** -/
theorem ShutdownLoop.taps_of_closed {s : ShutdownLoop} {inPinV outPinV : ℚ} {now : U32}
    {p : ShutdownParams} (h : (s.update inPinV outPinV now p).closed = true) :
    (s.update inPinV outPinV now p).inDebounce.value = true ∧
      (s.update inPinV outPinV now p).outDebounce.value = true := by
  unfold ShutdownLoop.closed at h
  exact (loopState_eq_closed.mp (beq_iff_eq.mp h)).2

end Update

end Lhre.Vcu
