import Mathlib.Tactic
import Lhre.Theory.Dict

/-!
# `CarStatus.Classifier` — the state of the car, frame by frame

`apps/telemetry/stack/processors/car_status/classifier.py`: `classify_instant` with the predicates it is made of, and
`CarStateMachine`, which debounces it. A frame is a dictionary of tables. Numbers are exact; one that is not finite is `none`.
What `float` makes of a text is the parameter `parse`.

## Contents
- **Values.** `Value`, `num`, `truthy`, `pick`.
- **One frame.** `hvLive`, `isMoving`, `ready`, `classifyInstant`; `activeFaults`.
- **The machine.** `CarStateMachine.update`.
-/

namespace Lhre.CarStatus

/-! ## Values -/

/-- A value of a decoded frame. -/
inductive Value
  | null
  | bool (b : Bool)
  | num (x : Option ℚ)
  | str (s : String)
  | other

/-- A value of the frame itself: a table, or anything else. -/
inductive Entry
  | table (t : Dict String Value)
  | other

abbrev Frame := Dict String Entry

/-- `STATES`. -/
inductive CarState
  | off
  | onIdle
  | ready
  | moving
deriving DecidableEq, Repr

/-- `Thresholds`; `max_gap_ms` is reserved. -/
structure Thresholds where
  hvLiveV : ℚ := 50
  moveRpm : ℚ := 50
  moveWheel : ℚ := 1
  moveMps : ℚ := 4 / 5
  minStateMs : ℚ := 500

/-- `_table`. -/
def table (frame : Frame) (name : String) : Dict String Value :=
  match Dict.get? frame name with
  | some (.table t) => t
  | _ => []

variable (parse : String → Option (Option ℚ))

/-- `float(v)`, where it is finite. -/
def Value.finite : Value → Option ℚ
  | .num x => x
  | .str s => (parse s).join
  | _ => none

/-- `_num`. -/
def num (values : List Value) : Option ℚ := values.findSome? (Value.finite parse)

/-- `_truthy`. -/
def truthy (values : List Value) : Bool :=
  values.any fun v =>
    match v with
    | .bool b => b
    | v => decide ((num parse [v]).getD 0 ≠ 0)

/-- `_pick`. -/
def pick (frame : Frame) (name : String) (names : List String) : Value :=
  (names.findSome? fun n =>
    match Dict.get? (table frame name) n with
    | none | some .null => none
    | some v => some v).getD .null

/-! ## One frame -/

/-- `hv_live`. -/
def hvLive (frame : Frame) (th : Thresholds) : Bool :=
  ((num parse [pick frame "pack" ["hv_pack_v"]]).any fun packV => decide (th.hvLiveV ≤ packV)) ||
    (truthy parse [pick frame "diagnostics_high" ["pos_hv_contactor"]] &&
      truthy parse [pick frame "diagnostics_high" ["neg_hv_contactor"]]) ||
    (num parse [pick frame "pack" ["contactor_state"]]).any fun contactorState => decide (2 ≤ contactorState)

/-- The wheel speeds that a frame has. -/
def wheels (frame : Frame) : List ℚ :=
  [["fl_wheel_speed", "flw_speed"], ["fr_wheel_speed", "frw_speed"], ["bl_wheel_speed", "blw_speed"],
    ["br_wheel_speed", "brw_speed"]].filterMap fun names => num parse [pick frame "dynamics" names]

/-- `is_moving`. -/
def isMoving (frame : Frame) (th : Thresholds) : Bool :=
  ((num parse [pick frame "controls" ["motor_speed"], pick frame "dynamics" ["inverter_rpm"]]).any fun motor =>
      decide (th.moveRpm ≤ |motor|)) ||
    (!(wheels parse frame).isEmpty &&
      decide (th.moveWheel ≤ ((wheels parse frame).map (|·|)).sum / (wheels parse frame).length)) ||
    ((num parse [pick frame "dynamics" ["wheel_speed"]]).any fun combined => decide (th.moveWheel ≤ |combined|)) ||
    (num parse [pick frame "dynamics" ["gps_speed"], pick frame "dynamics" ["gps_velocity"]]).any fun gps =>
      decide (th.moveMps ≤ |gps|)

/-- The shutdown legs that a frame has. -/
def legs (frame : Frame) : List Value :=
  ((List.range 12).map fun i => pick frame "diagnostics_low" [s!"shutdown_leg{i + 1}"]).filter fun v =>
    match v with
    | .null => false
    | _ => true

/-- `ready`. -/
def ready (frame : Frame) : Bool :=
  truthy parse [pick frame "diagnostics_low" ["r2d_status"], pick frame "diagnostics_low" ["r2d_authorized"]] &&
    (legs frame).all fun v => truthy parse [v]

/-- `fault_reasons`. -/
def faultReasons (frame : Frame) : List String :=
  (if (num parse [pick frame "diagnostics_high" ["run_faults"]]).getD 0 ≠ 0 then ["run_faults"] else []) ++
    (if (num parse [pick frame "diagnostics_high" ["post_faults"]]).getD 0 ≠ 0 then ["post_faults"] else []) ++
    (if truthy parse [pick frame "diagnostics_low" ["imd_gnd_isolation_error"]] then ["imd_isolation"] else []) ++
    if truthy parse [pick frame "diagnostics_low" ["bmb_comm_error"]] then ["bmb_comm_error"] else []

/-- `shutdown_open_while_live`. -/
def shutdownOpenWhileLive (frame : Frame) (th : Thresholds) : Bool :=
  hvLive parse frame th && !(legs frame).isEmpty && !(legs frame).all fun v => truthy parse [v]

/-- `active_faults`. -/
def activeFaults (frame : Frame) (th : Thresholds) : List String :=
  faultReasons parse frame ++ if shutdownOpenWhileLive parse frame th then ["shutdown_open"] else []

/-- `classify_instant`. -/
def classifyInstant (frame : Frame) (th : Thresholds) : CarState × List String :=
  if isMoving parse frame th then (.moving, ["motion"])
  else if !hvLive parse frame th then (.off, ["hv_off"])
  else if ready parse frame then (.ready, ["r2d", "hv_live"])
  else (.onIdle, ["hv_live"])

/-! ## The machine -/

/-- `_Pending`. -/
structure Pending where
  state : CarState
  sinceMs : ℚ
deriving DecidableEq, Repr

/-- `CarStateMachine`. -/
structure CarStateMachine where
  thresholds : Thresholds := {}
  committed : Option CarState := none
  committedSinceMs : Option ℚ := none
  lastReasons : List String := []
  pending : Option Pending := none

/-- What `update` returns, without the values it copies from the frame. -/
structure Status where
  state : Option CarState
  transition : Bool
  reasons : List String
  activeFaults : List String
  timeInStateMs : ℚ
  tMs : ℚ

/-- `set_thresholds`. -/
def CarStateMachine.setThresholds (m : CarStateMachine) (thresholds : Thresholds) : CarStateMachine :=
  { m with thresholds := thresholds }

/-- `_snapshot`. -/
def CarStateMachine.snapshot (m : CarStateMachine) (frame : Frame) (tMs : ℚ) (transition : Bool) : Status where
  state := m.committed
  transition := transition
  reasons := m.lastReasons
  activeFaults := activeFaults parse frame m.thresholds
  timeInStateMs := (m.committedSinceMs.map (tMs - ·)).getD 0
  tMs := tMs

/-- The machine after it has committed a state. -/
def CarStateMachine.commit (m : CarStateMachine) (instant : CarState) (tMs : ℚ) : CarStateMachine :=
  { m with committed := some instant, committedSinceMs := some tMs, pending := none }

/-- The part of `update` behind the classification: the machine, and whether a state was committed. -/
def CarStateMachine.debounce (m : CarStateMachine) (instant : CarState) (tMs : ℚ) : CarStateMachine × Bool :=
  match m.committed with
  | none => (m.commit instant tMs, true)
  | some committed =>
      if instant = committed then ({ m with pending := none }, false)
      else
        match m.pending with
        | none => ({ m with pending := some ⟨instant, tMs⟩ }, false)
        | some pending =>
            if pending.state ≠ instant then ({ m with pending := some ⟨instant, tMs⟩ }, false)
            else if m.thresholds.minStateMs ≤ tMs - pending.sinceMs then (m.commit instant tMs, true)
            else (m, false)

/-- `update`. -/
def CarStateMachine.update (m : CarStateMachine) (frame : Frame) (tMs : ℚ) : CarStateMachine × Status :=
  let (instant, reasons) := classifyInstant parse frame m.thresholds
  let (m', transition) := CarStateMachine.debounce { m with lastReasons := reasons } instant tMs
  (m', m'.snapshot parse frame tMs transition)

end Lhre.CarStatus
