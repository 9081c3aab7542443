import Mathlib.Tactic

/-!
# `Autonomy.MissionManager` — the driverless mission state machine

`autonomy/ros2/src/lhr_mission_manager`: the callbacks of the node, which note what was received, and its tick, which
acts on it and publishes. The doubles of the odometry are kept abstract, so that whatever a message carries is covered;
times are exact seconds, and a callback or a tick reads the clock once. Log lines are left out.

## Contents
- **States.** `MissionState`, `Mission`, `MissionConfig`.
- **Doubles.** `Doubles`, the arithmetic of the odometry.
- **The node.** `MissionManager` and its callbacks.
- **The tick.** One definition for each state, and `MissionManager.tick`.
- **Steps.** `MissionEvent`, `MissionManager.step`.
-/

namespace Lhre.Autonomy

/-! ## States -/

/-- `STATE_OFF` to `STATE_EMERGENCY`. -/
inductive MissionState
  | off
  | ready
  | driving
  | finished
  | emergency
deriving DecidableEq, Repr

/-- The state as it is published. -/
def MissionState.text : MissionState → String
  | .off => "OFF"
  | .ready => "READY"
  | .driving => "DRIVING"
  | .finished => "FINISHED"
  | .emergency => "EMERGENCY"

/-- `STATE_NUM`. -/
def MissionState.num : MissionState → ℚ
  | .off => 0
  | .ready => 1
  | .driving => 2
  | .finished => 3
  | .emergency => 4

/-- `MISSIONS`; any other text is `unknown`. -/
inductive Mission
  | inspection
  | manual
  | ebsTest
  | acceleration
  | skidpad
  | autocross
  | unknown
deriving DecidableEq, Repr

/-- The parameters of the node, but for `status_hz`. -/
structure MissionConfig where
  mission : Mission := .autocross
  autoGo : Bool := true
  readyHoldSec : ℚ := 5
  requireSafetyHeartbeat : Bool := false
  safetySettleS : ℚ := 2
deriving DecidableEq, Repr

/-- `ACCEL_FINISH_M`. -/
def accelFinishM : ℚ := 75 + 3 / 10

/-- `HEARTBEAT_GAP_S`. -/
def heartbeatGapS : ℚ := 1 / 4

/-! ## Doubles -/

/-- The arithmetic of doubles, infinities and NaN among them. -/
structure Doubles (F : Type) where
  ofRat : ℚ → F
  add : F → F → F
  sub : F → F → F
  mul : F → F → F
  hypot : F → F → F
  atan2 : F → F → F
  cos : F → F
  sin : F → F
  lt : F → F → Bool
  le : F → F → Bool

/-- What the mission manager reads of an `Odometry` message. -/
structure MissionOdom (F : Type) where
  vx : F
  vy : F
  px : F
  py : F
  qw : F
  qx : F
  qy : F
  qz : F

/-- A pose from odometry. -/
structure Pose (F : Type) where
  x : F
  y : F
  yaw : F

variable {F : Type} (ops : Doubles F)

/-- The yaw of the orientation in `_odom_cb`. -/
def MissionOdom.yaw (m : MissionOdom F) : F :=
  ops.atan2 (ops.mul (ops.ofRat 2) (ops.add (ops.mul m.qw m.qz) (ops.mul m.qx m.qy)))
    (ops.sub (ops.ofRat 1) (ops.mul (ops.ofRat 2) (ops.add (ops.mul m.qy m.qy) (ops.mul m.qz m.qz))))

/-! ## The node -/

/-- `_last_heartbeat` and `_healthy_since`, which are set together. -/
structure Beats where
  lastHeartbeat : ℚ
  healthySince : ℚ
deriving DecidableEq, Repr

/-- The state of the node. -/
structure MissionManager (F : Type) where
  state : MissionState := .off
  readyEnterTime : Option ℚ := none
  drivingEnterTime : Option ℚ := none
  pathAvailable : Bool := false
  goReceived : Bool := false
  emergencyReceived : Bool := false
  resetReceived : Bool := false
  lapComplete : Bool := false
  complete : Bool := false
  currentSpeed : F
  pose : Option (Pose F) := none
  startPose : Option (Pose F) := none
  beats : Option Beats := none
  waitingLogged : Bool := false

/-- The node after `__init__`. -/
def MissionManager.init : MissionManager F := { currentSpeed := ops.ofRat 0 }

namespace MissionManager

variable (s : MissionManager F)

/-- `_go_cb`. -/
def goCb (data : Bool) : MissionManager F := if data then { s with goReceived := true } else s

/-- `_emergency_cb`. -/
def emergencyCb (data : Bool) : MissionManager F := if data then { s with emergencyReceived := true } else s

/-- `_reset_cb`. -/
def resetCb (data : Bool) : MissionManager F :=
  if data ∧ s.state = .emergency then { s with resetReceived := true } else s

/-- `_centerline_cb`, for a path of so many poses. -/
def centerlineCb (poses : ℕ) : MissionManager F := { s with pathAvailable := decide (0 < poses) }

/-- `_odom_cb`. -/
def odomCb (m : MissionOdom F) : MissionManager F :=
  { s with currentSpeed := ops.hypot m.vx m.vy, pose := some ⟨m.px, m.py, m.yaw ops⟩ }

/-- `_lap_complete_cb`. -/
def lapCompleteCb (data : Bool) : MissionManager F := if data then { s with lapComplete := true } else s

/-- `_heartbeat_cb`. -/
def heartbeatCb (now : ℚ) : MissionManager F :=
  match s.beats with
  | none => { s with beats := some ⟨now, now⟩ }
  | some b =>
      if now - b.lastHeartbeat > heartbeatGapS then { s with beats := some ⟨now, now⟩ }
      else { s with beats := some ⟨now, b.healthySince⟩ }

/-- `_safety_settled`. -/
def safetySettled (cfg : MissionConfig) (now : ℚ) : Bool :=
  if cfg.requireSafetyHeartbeat then
    match s.beats with
    | none => false
    | some b => decide (now - b.lastHeartbeat ≤ heartbeatGapS ∧ cfg.safetySettleS ≤ now - b.healthySince)
  else true

/-! ## The tick -/

/-- `_tick_off`. -/
def tickOff (cfg : MissionConfig) (now : ℚ) : MissionManager F :=
  -- an e-stop that arrived before READY is stale
  let s := { s with emergencyReceived := false }
  if ¬ s.pathAvailable then s
  else if ¬ s.safetySettled cfg now then { s with waitingLogged := true }
  else { s with waitingLogged := false, state := .ready, readyEnterTime := some now }

/-- `_start_driving`. -/
def startDriving (now : ℚ) : MissionManager F :=
  { s with state := .driving, drivingEnterTime := some now, startPose := s.startPose.or s.pose }

/-- `_tick_ready`. -/
def tickReady (cfg : MissionConfig) (now : ℚ) : MissionManager F :=
  if s.emergencyReceived then { s with emergencyReceived := false, state := .emergency }
  else if s.goReceived then { s with goReceived := false }.startDriving now
  else match s.readyEnterTime with
  | none => s
  | some entered => if cfg.autoGo ∧ cfg.readyHoldSec ≤ now - entered then s.startDriving now else s

/-- `_distance_driven`. -/
def distanceDriven : F :=
  match s.startPose, s.pose with
  | some p₀, some p =>
      ops.add (ops.mul (ops.sub p.x p₀.x) (ops.cos p₀.yaw)) (ops.mul (ops.sub p.y p₀.y) (ops.sin p₀.yaw))
  | _, _ => ops.ofRat 0

/-- `_check_mission_complete`. -/
def checkMissionComplete (cfg : MissionConfig) (now : ℚ) : Bool :=
  match cfg.mission with
  | .autocross => s.lapComplete
  | .inspection =>
      match s.drivingEnterTime with
      | none => false
      | some entered => decide (28 ≤ now - entered)
  | .acceleration => ops.le (ops.ofRat accelFinishM) (s.distanceDriven ops)
  | _ => false

/-- `_tick_driving`. -/
def tickDriving (cfg : MissionConfig) (now : ℚ) : MissionManager F :=
  if s.emergencyReceived then { s with emergencyReceived := false, state := .emergency }
  else
    let s := { s with startPose := s.startPose.or s.pose }
    let s := { s with complete := s.complete || s.checkMissionComplete ops cfg now }
    if s.complete ∧ ops.lt s.currentSpeed (ops.ofRat (1 / 2)) then { s with state := .finished } else s

/-- `_tick_emergency`. -/
def tickEmergency : MissionManager F :=
  if s.resetReceived then
    { s with
      resetReceived := false
      emergencyReceived := false
      lapComplete := false
      complete := false
      pathAvailable := false
      state := .off }
  else s

/-- What a tick publishes. -/
structure Published where
  status : MissionState
  complete : Bool
  stateNum : ℚ
deriving DecidableEq

/-- The transitions of `_tick`. -/
def transition (cfg : MissionConfig) (now : ℚ) : MissionManager F :=
  match s.state with
  | .off => s.tickOff cfg now
  | .ready => s.tickReady cfg now
  | .driving => s.tickDriving ops cfg now
  | .emergency => s.tickEmergency
  | .finished => s

/-- `_tick`. -/
def tick (cfg : MissionConfig) (now : ℚ) : MissionManager F × Published :=
  let s := s.transition ops cfg now
  (s, ⟨s.state, s.complete, s.state.num⟩)

end MissionManager

/-! ## Steps -/

/-- A callback or a tick. -/
inductive MissionEvent (F : Type)
  | go (data : Bool)
  | emergency (data : Bool)
  | reset (data : Bool)
  | centerline (poses : ℕ)
  | odom (m : MissionOdom F)
  | lapComplete (data : Bool)
  | heartbeat
  | tick

/-- A step at a time. Without `require_safety_heartbeat` nothing listens to the heartbeat. -/
def MissionManager.step (cfg : MissionConfig) (s : MissionManager F) (e : ℚ × MissionEvent F) : MissionManager F :=
  match e.2 with
  | .go data => s.goCb data
  | .emergency data => s.emergencyCb data
  | .reset data => s.resetCb data
  | .centerline poses => s.centerlineCb poses
  | .odom m => s.odomCb ops m
  | .lapComplete data => s.lapCompleteCb data
  | .heartbeat => if cfg.requireSafetyHeartbeat then s.heartbeatCb e.1 else s
  | .tick => (s.tick ops cfg e.1).1

end Lhre.Autonomy
