import Lhre.Autonomy.Pursuit
import Mathlib.LinearAlgebra.Matrix.Notation

/-!
# `Autonomy.Ekf` — the state estimator

`lhr_state_estimation`: `ekf.py`, `wheel_odometry.py` and `ekf_node.py`. The filter is over any ordered field, with the
trigonometric functions as a parameter; the node is over the real numbers. A callback that raises ends the node. The transform
that repeats the pose of an odometry message, the frame names and the log are left out.

## Contents
- **The filter.** `Trig`, `wrapAngle`, `VehicleEkf`, `reset`, `predict`, `updateScalar`.
- **The node.** `EkfConfig`, `EkfNode`, `Odometry`, the callbacks, `tick`.
- **Runs.** `EkfEvent`, `EkfNode.step`, `runFrom`, `run`.
-/

namespace Lhre.Autonomy.Ekf

open Matrix

/-! ## The filter -/

section Filter
variable {K : Type*}

/-- What the filter takes from `math`. -/
structure Trig (K : Type*) where
  cos : K → K
  sin : K → K
  pi : K

abbrev idxX : Fin 5 := 0
abbrev idxY : Fin 5 := 1
abbrev idxYaw : Fin 5 := 2
abbrev idxV : Fin 5 := 3
abbrev idxYawRate : Fin 5 := 4

/-- `VehicleEkf`. -/
structure VehicleEkf (K : Type*) where
  sigmaAccel : K
  sigmaYawAccel : K
  x : Fin 5 → K
  P : Matrix (Fin 5) (Fin 5) K

variable [Field K] [LinearOrder K] [FloorRing K] (trig : Trig K)

/-- `wrap_angle`. -/
def wrapAngle (angle : K) : K :=
  let turn := (2 : ℕ) * trig.pi
  angle + trig.pi - turn * ⌊(angle + trig.pi) / turn⌋ - trig.pi

/-- `_initial_covariance`. -/
def initialCovariance : Matrix (Fin 5) (Fin 5) K := diagonal ![1, 1, 1 / (10 : ℕ), 1 / (10 : ℕ), 1 / (10 : ℕ)]

/-- `__init__`. -/
def VehicleEkf.init (sigmaAccel sigmaYawAccel : K) : VehicleEkf K :=
  { sigmaAccel := sigmaAccel, sigmaYawAccel := sigmaYawAccel, x := 0, P := initialCovariance }

/-- `reset`. -/
def VehicleEkf.reset (self : VehicleEkf K) (x y yaw : K) : VehicleEkf K :=
  { self with x := ![x, y, wrapAngle trig yaw, 0, 0], P := initialCovariance }

/-- `F` of `predict`. -/
def transition (yaw v dt : K) : Matrix (Fin 5) (Fin 5) K :=
  !![1, 0, -v * trig.sin yaw * dt, trig.cos yaw * dt, 0;
     0, 1, v * trig.cos yaw * dt, trig.sin yaw * dt, 0;
     0, 0, 1, 0, dt;
     0, 0, 0, 1, 0;
     0, 0, 0, 0, 1]

/-- `G` of `predict`. -/
def noiseInput (yaw dt : K) : Matrix (Fin 5) (Fin 2) K :=
  !![1 / (2 : ℕ) * trig.cos yaw * dt * dt, 0;
     1 / (2 : ℕ) * trig.sin yaw * dt * dt, 0;
     0, 1 / (2 : ℕ) * dt * dt;
     dt, 0;
     0, dt]

/-- `noise` of `predict`. -/
def VehicleEkf.noise (self : VehicleEkf K) : Matrix (Fin 2) (Fin 2) K :=
  diagonal ![self.sigmaAccel ^ (2 : ℕ), self.sigmaYawAccel ^ (2 : ℕ)]

/-- `predict`. -/
def VehicleEkf.predict (self : VehicleEkf K) (dt accelX : K) : VehicleEkf K :=
  if dt ≤ 0 then self
  else
    let yaw := self.x idxYaw
    let v := self.x idxV
    let yawRate := self.x idxYawRate
    let F := transition trig yaw v dt
    let G := noiseInput trig yaw dt
    { self with
      x := ![self.x idxX + v * trig.cos yaw * dt, self.x idxY + v * trig.sin yaw * dt,
        wrapAngle trig (yaw + yawRate * dt), v + accelX * dt, yawRate]
      P := F * self.P * Fᵀ + G * self.noise * Gᵀ }

/-- `H` of `_update_scalar`. -/
def measured (index : Fin 5) : Matrix (Fin 1) (Fin 5) K := of fun _ j => if j = index then 1 else 0

/-- `S` of `_update_scalar`. -/
def VehicleEkf.innovationVariance (self : VehicleEkf K) (index : Fin 5) (variance : K) : K :=
  let H : Matrix (Fin 1) (Fin 5) K := measured index
  (H * self.P * Hᵀ) 0 0 + variance

/-- `K` of `_update_scalar`. -/
def VehicleEkf.gain (self : VehicleEkf K) (index : Fin 5) (variance : K) : Matrix (Fin 5) (Fin 1) K :=
  let H : Matrix (Fin 1) (Fin 5) K := measured index
  of fun i j => (self.P * Hᵀ) i j / self.innovationVariance index variance

/-- The covariance that a gain leaves, in Joseph's form. -/
def VehicleEkf.josephForm (self : VehicleEkf K) (index : Fin 5) (variance : K) (gain : Matrix (Fin 5) (Fin 1) K) :
    Matrix (Fin 5) (Fin 5) K :=
  let H : Matrix (Fin 1) (Fin 5) K := measured index
  let I_KH := 1 - gain * H
  let P := I_KH * self.P * I_KHᵀ + of fun i j => (gain * gainᵀ) i j * variance
  of fun i j => 1 / (2 : ℕ) * (P i j + P j i)

/-- `_update_scalar`. -/
def VehicleEkf.updateScalar (self : VehicleEkf K) (index : Fin 5) (measurement variance : K) : VehicleEkf K :=
  let innovation := measurement - self.x index
  let gain := self.gain index variance
  let x := fun i => self.x i + gain i 0 * innovation
  { self with
    x := Function.update x idxYaw (wrapAngle trig (x idxYaw))
    P := self.josephForm index variance gain }

/-- `update_speed`. -/
def VehicleEkf.updateSpeed (self : VehicleEkf K) (speed variance : K) : VehicleEkf K :=
  self.updateScalar trig idxV speed variance

/-- `update_yaw_rate`. -/
def VehicleEkf.updateYawRate (self : VehicleEkf K) (yawRate variance : K) : VehicleEkf K :=
  self.updateScalar trig idxYawRate yawRate variance

/-- `body_speed`. -/
def bodySpeed (rearLeftRadS rearRightRadS wheelRadiusM : K) : K :=
  1 / (2 : ℕ) * (rearLeftRadS + rearRightRadS) * wheelRadiusM

end Filter

/-! ## The node -/

/-- The functions of `math`. -/
noncomputable def realTrig : Trig ℝ := ⟨Real.cos, Real.sin, Real.pi⟩

/-- The parameters. -/
structure EkfConfig where
  wheelRadius : ℝ
  rearWheelNames : List String
  initX : ℝ
  initY : ℝ
  initYaw : ℝ
  initPoseTopic : String
  sigmaAccel : ℝ
  sigmaYawAccel : ℝ
  speedVariance : ℝ
  yawRateVariance : ℝ

/-- The state of `EkfNode`; times are nanoseconds. -/
structure EkfNode where
  ekf : VehicleEkf ℝ
  accelX : ℝ
  lastPredict : ℤ
  awaitingInit : Bool

/-- The state after `__init__`. -/
noncomputable def EkfNode.init (cfg : EkfConfig) (now : ℤ) : EkfNode :=
  { ekf := (VehicleEkf.init cfg.sigmaAccel cfg.sigmaYawAccel).reset realTrig cfg.initX cfg.initY cfg.initYaw
    accelX := 0
    lastPredict := now
    awaitingInit := cfg.initPoseTopic ≠ "" }

/-- What is published of an estimate: the pose, the twist and the diagonal of their covariances. -/
structure Odometry where
  stamp : ℤ
  x : ℝ
  y : ℝ
  orientation : PurePursuit.Quaternion
  v : ℝ
  yawRate : ℝ
  covariance : Fin 5 → ℝ

/-- `yaw_to_quat`. -/
noncomputable def yawToQuat (yaw : ℝ) : PurePursuit.Quaternion :=
  { w := Real.cos (yaw / (2 : ℕ)), x := 0, y := 0, z := Real.sin (yaw / (2 : ℕ)) }

/-- `_init_pose_cb`; its own `quat_to_yaw` is that of the controller. -/
noncomputable def EkfNode.initPoseCb (self : EkfNode) (x y : ℝ) (orientation : PurePursuit.Quaternion) : EkfNode :=
  if self.awaitingInit then
    { self with ekf := self.ekf.reset realTrig x y (PurePursuit.quatToYaw orientation), awaitingInit := false }
  else self

/-- `_imu_cb`. -/
noncomputable def EkfNode.imuCb (cfg : EkfConfig) (self : EkfNode) (linearAccelerationX angularVelocityZ : ℝ) : EkfNode :=
  { self with
    accelX := linearAccelerationX
    ekf := self.ekf.updateYawRate realTrig angularVelocityZ cfg.yawRateVariance }

/-- The loop of `_wheel_cb`: `some none` where a joint is missing, `none` where its velocity is. -/
def wheelSpeeds (names : List String) (velocity : List ℝ) : List String → Option (Option (List ℝ))
  | [] => some (some [])
  | name :: rest =>
      if name ∉ names then some none
      else
        match velocity[names.idxOf name]? with
        | none => none
        | some speed => (wheelSpeeds names velocity rest).map (Option.map (speed :: ·))

/-- `_wheel_cb`. -/
noncomputable def EkfNode.wheelCb (cfg : EkfConfig) (self : EkfNode) (names : List String) (velocity : List ℝ) :
    Option EkfNode :=
  match wheelSpeeds names velocity cfg.rearWheelNames with
  | none => none
  | some none => some self
  | some (some (left :: right :: _)) =>
      some { self with
        ekf := self.ekf.updateSpeed realTrig (bodySpeed left right cfg.wheelRadius) cfg.speedVariance }
  | some (some _) => none

/-- The message that `_step` makes of the filter. -/
noncomputable def odometry (now : ℤ) (ekf : VehicleEkf ℝ) : Odometry :=
  { stamp := now
    x := ekf.x idxX
    y := ekf.x idxY
    orientation := yawToQuat (ekf.x idxYaw)
    v := ekf.x idxV
    yawRate := ekf.x idxYawRate
    covariance := fun i => ekf.P i i }

/-- `_step`. -/
noncomputable def EkfNode.tick (self : EkfNode) (now : ℤ) : EkfNode × List Odometry :=
  let dt := ((now - self.lastPredict : ℤ) : ℝ) / (1000000000 : ℕ)
  if self.awaitingInit then ({ self with lastPredict := now }, [])
  else
    let ekf := self.ekf.predict realTrig dt self.accelX
    ({ self with lastPredict := now, ekf := ekf }, [odometry now ekf])

/-! ## Runs -/

/-- What the node reacts to. -/
inductive EkfEvent where
  | initPose (x y : ℝ) (orientation : PurePursuit.Quaternion)
  | imu (linearAccelerationX angularVelocityZ : ℝ)
  | wheel (names : List String) (velocity : List ℝ)
  | tick (now : ℤ)

/-- One event, with the messages it publishes. -/
noncomputable def EkfNode.step (cfg : EkfConfig) (self : EkfNode) : EkfEvent → Option (EkfNode × List Odometry)
  | .initPose x y orientation => some (self.initPoseCb x y orientation, [])
  | .imu a w => some (self.imuCb cfg a w, [])
  | .wheel names velocity => (self.wheelCb cfg names velocity).map (·, [])
  | .tick now => some (self.tick now)

/-- Some events after others, with all messages published. -/
noncomputable def runFrom (cfg : EkfConfig) (st : EkfNode × List Odometry) (events : List EkfEvent) :
    Option (EkfNode × List Odometry) :=
  events.foldlM (fun st e => (st.1.step cfg e).map fun next => (next.1, st.2 ++ next.2)) st

/-- The node after some events, and the messages published. -/
noncomputable def run (cfg : EkfConfig) (start : ℤ) (events : List EkfEvent) : Option (EkfNode × List Odometry) :=
  runFrom cfg (EkfNode.init cfg start, []) events

end Lhre.Autonomy.Ekf
