import Mathlib.Tactic

/-!
# `Autonomy.Safety` — the safety node

`autonomy/ros2/src/lhr_safety`: the checks of `monitors.py`, the latch of `latch.py`, and the node, which feeds messages
in and publishes what the latch decides. A double is a rational or, where it is not finite, `none`; `hypot`, `sqrt` and
`tan` are parameters. Times are exact seconds, and a callback or a tick reads the clock once. Log lines are left out.

## Contents
- **Faults.** `Fault`, `SafetyConfig`, `SafetyMath`.
- **The monitor.** `SafetyMonitor`, its callbacks and `check`.
- **The latch.** `SafetyLatch`, `Decision`.
- **The node.** `SafetyNode`, its tick and `SafetyNode.step`.
-/

namespace Lhre.Autonomy

/-! ## Faults -/

/-- `Fault`. -/
inductive Fault
  | none
  | odomStale
  | ekfDiverged
  | lidarStale
  | geofence
  | steerTracking
  | cmdStale
  | cmdInvalid
deriving DecidableEq, Repr

/-- The value of a `Fault`, the status code of the heartbeat. -/
def Fault.code : Fault → ℕ
  | .none => 0
  | .odomStale => 1
  | .ekfDiverged => 2
  | .lidarStale => 3
  | .geofence => 4
  | .steerTracking => 5
  | .cmdStale => 6
  | .cmdInvalid => 7

/-- `SafetyConfig`. -/
structure SafetyConfig where
  wheelbaseM : ℚ
  maxSpeedMps : ℚ
  monitorLidar : Bool := true
  lidarTimeoutS : ℚ := 3 / 10
  odomTimeoutS : ℚ := 1 / 4
  cmdTimeoutS : ℚ := 1 / 4
  maxPositionStdM : ℚ := 0
  maxSpeedFactor : ℚ := 3 / 2
  geofenceRadiusM : ℚ := 150
  steerMinSpeedMps : ℚ := 2
  steerYawRateTol : ℚ := 3 / 20
  steerRelTol : ℚ := 1 / 2
  steerWindowS : ℚ := 1

/-- The functions of `math` the checks use. -/
structure SafetyMath where
  hypot : ℚ → ℚ → ℚ
  sqrt : ℚ → ℚ
  tan : ℚ → ℚ

/-- What the node reads of an `Odometry` message; a field that is not finite is `none`. -/
structure OdomMsg where
  x : Option ℚ
  y : Option ℚ
  vx : Option ℚ
  vy : Option ℚ
  yawRate : Option ℚ
  varX : Option ℚ
  varY : Option ℚ
deriving DecidableEq

/-- An odometry sample with finite fields. -/
structure Sample where
  x : ℚ
  y : ℚ
  vx : ℚ
  vy : ℚ
  yawRate : ℚ
  varX : ℚ
  varY : ℚ
deriving DecidableEq

/-- `all(math.isfinite(v) for v in values)`, with the values. -/
def OdomMsg.finite (m : OdomMsg) : Option Sample :=
  match m.x, m.y, m.vx, m.vy, m.yawRate, m.varX, m.varY with
  | some x, some y, some vx, some vy, some yawRate, some varX, some varY => some ⟨x, y, vx, vy, yawRate, varX, varY⟩
  | _, _, _, _, _, _, _ => none

/-- The sample is too fast or, when that is enabled, too uncertain. -/
def Sample.diverged (cfg : SafetyConfig) (fn : SafetyMath) (s : Sample) : Bool :=
  let std := fn.sqrt (max (max s.varX s.varY) 0)
  decide (0 < cfg.maxPositionStdM ∧ cfg.maxPositionStdM < std) ||
    decide (cfg.maxSpeedFactor * cfg.maxSpeedMps < fn.hypot s.vx s.vy)

/-- The sample is outside the fence around a point. -/
def Sample.outside (cfg : SafetyConfig) (fn : SafetyMath) (origin : ℚ × ℚ) (s : Sample) : Bool :=
  decide (cfg.geofenceRadiusM < fn.hypot (s.x - origin.1) (s.y - origin.2))

/-- The yaw rate of the sample is not that of the command, where the comparison is made at all. -/
def Sample.mismatch (cfg : SafetyConfig) (fn : SafetyMath) (steerCmd : Option ℚ) (s : Sample) : Bool :=
  match steerCmd with
  | none => false
  | some angle =>
      if |s.vx| < cfg.steerMinSpeedMps then false
      else
        let expected := s.vx * fn.tan angle / cfg.wheelbaseM
        let tol := max cfg.steerYawRateTol (cfg.steerRelTol * |expected|)
        ¬ |s.yawRate - expected| ≤ tol

/-! ## The monitor -/

/-- `SafetyMonitor`. -/
structure SafetyMonitor where
  start : ℚ
  lastLidar : Option ℚ := none
  lastOdom : Option ℚ := none
  lastCmd : Option ℚ := none
  pose : Option (ℚ × ℚ) := none
  origin : Option (ℚ × ℚ) := none
  diverged : Bool := false
  divergedSeen : Bool := false
  outside : Bool := false
  outsideSeen : Bool := false
  cmdInvalid : Bool := false
  cmdInvalidSeen : Bool := false
  steerCmd : Option ℚ := none
  mismatchSince : Option ℚ := none
  steerFault : Bool := false

namespace SafetyMonitor

variable (cfg : SafetyConfig) (fn : SafetyMath) (m : SafetyMonitor)

/-- `on_lidar`. -/
def onLidar (now : ℚ) : SafetyMonitor := { m with lastLidar := some now }

/-- `on_command`; an angle that is not finite is `none`. -/
def onCommand (now : ℚ) (steeringAngle : Option ℚ) : SafetyMonitor :=
  { m with
    lastCmd := some now
    cmdInvalid := steeringAngle.isNone
    cmdInvalidSeen := m.cmdInvalidSeen || steeringAngle.isNone
    steerCmd := steeringAngle }

/-- `anchor_geofence`. -/
def anchorGeofence : SafetyMonitor := { m with origin := m.pose, outside := false }

/-- `_check_steering`. -/
def checkSteering (now : ℚ) (s : Sample) : SafetyMonitor :=
  if s.mismatch cfg fn m.steerCmd then
    let since := match m.mismatchSince with
      | none => now
      | some since => if since > now then now else since
    { m with mismatchSince := some since, steerFault := decide (cfg.steerWindowS ≤ now - since) }
  else { m with mismatchSince := none, steerFault := false }

/-- The part of `on_odom` behind the check for finite fields. -/
def onSample (now : ℚ) (s : Sample) : SafetyMonitor :=
  let diverged := s.diverged cfg fn
  let m := { m with diverged := diverged, divergedSeen := m.divergedSeen || diverged, pose := some (s.x, s.y) }
  let m := match m.origin with
    | none => m
    | some origin =>
        let outside := s.outside cfg fn origin
        { m with outside := outside, outsideSeen := m.outsideSeen || outside }
  m.checkSteering cfg fn now s

/-- `on_odom`. -/
def onOdom (now : ℚ) (msg : OdomMsg) : SafetyMonitor :=
  let m := { m with lastOdom := some now }
  match msg.finite with
  | none => { m with diverged := true, divergedSeen := true }
  | some s => m.onSample cfg fn now s

/-- `_age(last, now) > timeout`; a time in the future is infinitely old. -/
def stale (last : Option ℚ) (now timeout : ℚ) : Bool :=
  let age := now - last.getD m.start
  decide (age < 0 ∨ timeout < age)

/-- `check`: the fault, and the monitor with what was held for the check forgotten. -/
def check (now : ℚ) : Fault × SafetyMonitor :=
  let fault :=
    if m.stale m.lastOdom now cfg.odomTimeoutS then .odomStale
    else if m.diverged || m.divergedSeen then .ekfDiverged
    else if m.stale m.lastCmd now cfg.cmdTimeoutS then .cmdStale
    else if m.cmdInvalid || m.cmdInvalidSeen then .cmdInvalid
    else if cfg.monitorLidar && m.stale m.lastLidar now cfg.lidarTimeoutS then .lidarStale
    else if m.outside || m.outsideSeen then .geofence
    else if m.steerFault then .steerTracking
    else .none
  (fault, { m with divergedSeen := false, outsideSeen := false, cmdInvalidSeen := false })

end SafetyMonitor

/-! ## The latch -/

/-- `Decision`. -/
structure Decision where
  emergency : Bool
  heartbeat : Option ℕ
  shown : Fault
  newlyTripped : Bool
  newlyArmed : Bool
deriving DecidableEq

/-- `SafetyLatch`. -/
structure SafetyLatch where
  tripped : Fault := .none
  counter : ℕ := 0
  armed : Bool := false
deriving DecidableEq

/-- `mission_state in ARMED_STATES`. -/
def isArmed (missionState : String) : Bool := decide (missionState = "READY" ∨ missionState = "DRIVING")

namespace SafetyLatch

variable (l : SafetyLatch)

/-- `step`. -/
def step (fault : Fault) (missionState : String) : SafetyLatch × Decision :=
  let armed := isArmed missionState
  let newlyTripped := decide (armed = true ∧ fault ≠ .none ∧ l.tripped = .none)
  let tripped := if newlyTripped then fault else l.tripped
  let beats := decide (tripped = .none ∧ fault = .none)
  let counter := if beats then l.counter + 1 else l.counter
  (⟨tripped, counter, armed⟩,
    { emergency := decide (tripped ≠ .none)
      heartbeat := if beats then some counter else none
      shown := if tripped ≠ .none then tripped else fault
      newlyTripped := newlyTripped
      newlyArmed := armed && !l.armed })

/-- `reset`. -/
def reset : Fault × SafetyLatch := (l.tripped, { l with tripped := .none })

end SafetyLatch

/-! ## The node -/

/-- `SafetyNode`. -/
structure SafetyNode where
  monitor : SafetyMonitor
  latch : SafetyLatch := {}
  missionState : String := ""

/-- The node after `__init__` at a time. -/
def SafetyNode.init (now : ℚ) : SafetyNode := { monitor := { start := now } }

/-- What `_status` fills into a `DiagnosticStatus`. -/
structure SafetyStatus where
  ok : Bool
  message : Fault
  code : ℕ
  latched : Bool
  live : Fault
  heartbeat : ℕ
  missionState : String
deriving DecidableEq

/-- What a tick publishes: `true` on the emergency topic or nothing, a heartbeat or nothing, and the status. -/
structure SafetyOutput where
  emergency : Bool
  heartbeat : Option ℕ
  status : SafetyStatus
deriving DecidableEq

/-- A callback or a tick. -/
inductive SafetyEvent
  | lidar
  | command (steeringAngle : Option ℚ)
  | odom (msg : OdomMsg)
  | status (missionState : String)
  | reset (data : Bool)
  | tick
deriving DecidableEq

namespace SafetyNode

variable (cfg : SafetyConfig) (fn : SafetyMath) (node : SafetyNode)

/-- `_tick`. -/
def tick (now : ℚ) : SafetyNode × SafetyOutput :=
  let (fault, monitor) := node.monitor.check cfg now
  let (latch, decision) := node.latch.step fault node.missionState
  let monitor := if decision.newlyArmed then monitor.anchorGeofence else monitor
  ({ node with monitor := monitor, latch := latch },
    { emergency := decision.emergency
      heartbeat := decision.heartbeat
      status :=
        { ok := decide (decision.shown = .none)
          message := decision.shown
          code := decision.shown.code
          latched := decision.emergency
          live := fault
          heartbeat := latch.counter
          missionState := node.missionState } })

/-- A step at a time. Without `monitor_lidar` nothing listens to the lidar. -/
def step (e : ℚ × SafetyEvent) : SafetyNode :=
  match e.2 with
  | .lidar => if cfg.monitorLidar then { node with monitor := node.monitor.onLidar e.1 } else node
  | .command steeringAngle => { node with monitor := node.monitor.onCommand e.1 steeringAngle }
  | .odom msg => { node with monitor := node.monitor.onOdom cfg fn e.1 msg }
  | .status missionState => { node with missionState := missionState }
  | .reset data => if data then { node with latch := node.latch.reset.2 } else node
  | .tick => (node.tick cfg e.1).1

end SafetyNode

end Lhre.Autonomy
