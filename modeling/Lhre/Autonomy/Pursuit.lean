import Lhre.Autonomy.Chaining
import Mathlib.Analysis.SpecialFunctions.Trigonometric.Arctan

/-!
# `Autonomy.Pursuit` — the pure-pursuit controller

`lhr_control/pursuit_node.py` over the real numbers: the callbacks, the helpers and `_control_loop`. What raises in the source is
an error: a division by zero, the root of a negative number, an index out of range. Times are nanoseconds. The constants are
natural numbers, cast. The marker and the
two debug values that follow each command are left out.

## Contents
- **The node.** `PursuitConfig`, `Pursuit`, `Cmd`.
- **Python arithmetic.** `divide`, `sqrtOf`, `itemAt`.
- **Callbacks.** `pathCb`, `odomCb`, `statusCb`, `completeCb`.
- **Helpers.** `findClosestIdx`, `findLookahead`, `estimateCurvature`.
- **The control loop.** `stop`, `planSpeed`, `commandedSpeed`, `follow`, `controlLoop`.
- **Runs.** `PursuitEvent`, `Pursuit.step`, `run`.
-/

namespace Lhre.Autonomy.PurePursuit

open Real

/-! ## The node -/

abbrev Point := ℝ × ℝ

/-- The parameters. -/
structure PursuitConfig where
  ldMax : ℝ
  ldMin : ℝ
  ldCurvGain : ℝ
  maxSteer : ℝ
  wheelbase : ℝ
  controlHz : ℝ
  aLatMax : ℝ
  vMin : ℝ
  vMax : ℝ
  kappaEps : ℝ
  curvWin : ℤ
  maxAccel : ℝ
  maxDecel : ℝ
  closedPath : Bool
  pathTimeout : ℝ
  waitForMission : Bool

/-- `_dt`. -/
noncomputable def PursuitConfig.dt (cfg : PursuitConfig) : ℝ := 1 / cfg.controlHz

/-- The state of the node. -/
structure Pursuit where
  path : List Point
  x : ℝ
  y : ℝ
  yaw : ℝ
  haveOdom : Bool
  ld : ℝ
  vPrev : ℝ
  missionStatus : String
  missionComplete : Bool
  pathReceivedAt : Option ℤ

/-- The state after `__init__`. -/
def Pursuit.init (cfg : PursuitConfig) : Pursuit where
  path := []
  x := 0
  y := 0
  yaw := 0
  haveOdom := false
  ld := cfg.ldMax
  vPrev := 0
  missionStatus := ""
  missionComplete := false
  pathReceivedAt := none

/-- The speed and the steering angle of a command. -/
structure Cmd where
  speed : ℝ
  steering : ℝ

/-! ## Python arithmetic -/

/-- `/`. -/
noncomputable def divide (a b : ℝ) : Except String ℝ := if b = 0 then .error "ZeroDivisionError" else .ok (a / b)

/-- `math.sqrt`. -/
noncomputable def sqrtOf (a : ℝ) : Except String ℝ := if a < 0 then .error "ValueError" else .ok √a

/-- `self._path[i]`: a negative index counts from the end. -/
def itemAt (path : List Point) (i : ℤ) : Except String Point :=
  let j := if i < 0 then i + path.length else i
  match path[j.toNat]? with
  | some q => if j < 0 then .error "IndexError" else .ok q
  | none => .error "IndexError"

/-! ## Callbacks -/

/-- An orientation. -/
structure Quaternion where
  w : ℝ
  x : ℝ
  y : ℝ
  z : ℝ

/-- `quat_to_yaw`. -/
noncomputable def quatToYaw (q : Quaternion) : ℝ :=
  Chaining.atan2 ((2 : ℕ) * (q.w * q.z + q.x * q.y)) (1 - (2 : ℕ) * (q.y * q.y + q.z * q.z))

/-- `_path_cb`. -/
def pathCb (now : ℤ) (poses : List Point) (st : Pursuit) : Pursuit := { st with pathReceivedAt := some now, path := poses }

/-- `_odom_cb`. -/
noncomputable def odomCb (position : Point) (orientation : Quaternion) (st : Pursuit) : Pursuit :=
  { st with x := position.1, y := position.2, yaw := quatToYaw orientation, haveOdom := true }

/-- `_status_cb`. -/
def statusCb (data : String) (st : Pursuit) : Pursuit := { st with missionStatus := data }

/-- `_complete_cb`. -/
def completeCb (data : Bool) (st : Pursuit) : Pursuit := { st with missionComplete := data }

/-! ## Helpers -/

/-- `d2`. -/
def Pursuit.distanceSq (st : Pursuit) (q : Point) : ℝ := (q.1 - st.x) ^ 2 + (q.2 - st.y) ^ 2

/-- The loop of `_find_closest_idx`, with `best_idx` and `best_d2`. -/
noncomputable def closestLoop (st : Pursuit) : List (Point × ℕ) → ℕ → Option ℝ → ℕ
  | [], bestIdx, _ => bestIdx
  | (q, i) :: rest, bestIdx, bestD2 =>
    if bestD2.all fun best => decide (st.distanceSq q < best) then closestLoop st rest i (some (st.distanceSq q))
    else closestLoop st rest bestIdx bestD2

/-- `_find_closest_idx`. Nothing is closer than infinity. -/
noncomputable def findClosestIdx (st : Pursuit) : ℕ := closestLoop st st.path.zipIdx 0 none

/-- How far a point lies ahead of the car. -/
noncomputable def Pursuit.forward (st : Pursuit) (q : Point) : ℝ := (q.1 - st.x) * cos st.yaw + (q.2 - st.y) * sin st.yaw

/-- `self._path[idx]` for an index of the path. -/
def Pursuit.pointAt (st : Pursuit) (idx : ℕ) : Point := st.path.getD idx (0, 0)

/-- The loop of `_find_lookahead`: a point that is returned, or `last_forward`. -/
noncomputable def lookaheadLoop (cfg : PursuitConfig) (st : Pursuit) : List ℕ → Option ℕ → Option ℕ × Option ℕ
  | [], lastForward => (none, lastForward)
  | idx :: rest, lastForward =>
    if cfg.closedPath = false ∧ st.forward (st.pointAt idx) ≤ 1 / (10 : ℕ) then lookaheadLoop cfg st rest lastForward
    else if st.ld * st.ld ≤ st.distanceSq (st.pointAt idx) then (some idx, some idx)
    else lookaheadLoop cfg st rest (some idx)

/-- The indices that `_find_lookahead` visits. -/
def lookaheadIndices (cfg : PursuitConfig) (bestIdx n : ℕ) : List ℕ :=
  if cfg.closedPath then (List.range n).map fun j => (bestIdx + j) % n else List.range' bestIdx (n - bestIdx)

/-- `_find_lookahead`: the index of a point. -/
noncomputable def findLookahead (cfg : PursuitConfig) (st : Pursuit) : Option ℕ :=
  let n := st.path.length
  if n = 0 then none
  else
    let bestIdx := findClosestIdx st
    match lookaheadLoop cfg st (lookaheadIndices cfg bestIdx n) none with
    | (some idx, _) => some idx
    | (none, lastForward) => if cfg.closedPath then some ((bestIdx + n / 2) % n) else lastForward

/-- `math.hypot`. -/
noncomputable def hypot (x y : ℝ) : ℝ := √(x ^ 2 + y ^ 2)

/-- The three indices of `_estimate_curvature`. -/
def curvatureIndices (cfg : PursuitConfig) (n idx : ℤ) : ℤ × ℤ × ℤ :=
  if cfg.closedPath then ((idx - cfg.curvWin) % n, idx, (idx + cfg.curvWin) % n)
  else
    let a := max 0 (min (idx - cfg.curvWin) (n - 3))
    let c := min (n - 1) (max (idx + cfg.curvWin) (a + 2))
    (a, max (a + 1) (min idx (c - 1)), c)

/-- `_estimate_curvature`. -/
noncomputable def estimateCurvature (cfg : PursuitConfig) (path : List Point) (idx : ℕ) : Except String ℝ :=
  if path.length < 3 then .ok 0
  else do
    let (i, j, k) := curvatureIndices cfg path.length idx
    let a ← itemAt path i
    let b ← itemAt path j
    let c ← itemAt path k
    let ab := hypot (b.1 - a.1) (b.2 - a.2)
    let bc := hypot (c.1 - b.1) (c.2 - b.2)
    let ca := hypot (a.1 - c.1) (a.2 - c.2)
    let cross := (b.1 - a.1) * (c.2 - a.2) - (b.2 - a.2) * (c.1 - a.1)
    let denom := ab * bc * ca
    if denom < 1 / (10 : ℕ) ^ 12 then .ok 0 else divide ((2 : ℕ) * cross) denom

/-! ## The control loop -/

/-- The command of `_stop`. -/
def stopCmd : Cmd := ⟨0, 0⟩

/-- `_stop`. -/
def stop (st : Pursuit) : Pursuit × List Cmd := ({ st with vPrev := 0 }, [stopCmd])

/-- A way out of the loop that stops the car under a condition and is silent otherwise. -/
def stopIf (condition : Bool) (st : Pursuit) : Pursuit × List Cmd := if condition then stop st else (st, [])

/-- `remaining`: the way to the closest point and from there to the end of the path. -/
noncomputable def remaining (st : Pursuit) (closestIdx : ℕ) : ℝ :=
  hypot ((st.pointAt closestIdx).1 - st.x) ((st.pointAt closestIdx).2 - st.y) +
    (((st.path.drop closestIdx).zip (st.path.drop (closestIdx + 1))).map fun (a, b) => Chaining.dist a b).sum

/-- The limit of a speed that still stops at the end of an open path. -/
noncomputable def stoppingLimit (cfg : PursuitConfig) (st : Pursuit) (closestIdx : ℕ) (vDes : ℝ) : Except String ℝ :=
  if cfg.closedPath then .ok vDes
  else do
    let stopping ← sqrtOf ((2 : ℕ) * cfg.maxDecel * remaining st closestIdx)
    .ok (min vDes stopping)

/-- The planned speed, and its limits. -/
noncomputable def planSpeed (cfg : PursuitConfig) (st : Pursuit) (closestIdx : ℕ) (kappa : ℝ) : Except String ℝ := do
  let ratio ← divide cfg.aLatMax (max |kappa| cfg.kappaEps)
  let lateral ← sqrtOf ratio
  let vDes ← stoppingLimit cfg st closestIdx (max cfg.vMin (min cfg.vMax lateral))
  let dv := max (-cfg.maxDecel * cfg.dt) (min (cfg.maxAccel * cfg.dt) (vDes - st.vPrev))
  let floor := if cfg.closedPath then cfg.vMin else 0
  .ok (max floor (min cfg.vMax (st.vPrev + dv)))

/-- `v_cmd`: zero while braking. -/
noncomputable def commandedSpeed (cfg : PursuitConfig) (st : Pursuit) (closestIdx : ℕ) (kappa : ℝ) : Except String ℝ :=
  if st.missionComplete then .ok 0 else planSpeed cfg st closestIdx kappa

/-- `local_x` and `local_y`. -/
noncomputable def Pursuit.toLocal (st : Pursuit) (q : Point) : Point :=
  (cos (-st.yaw) * (q.1 - st.x) - sin (-st.yaw) * (q.2 - st.y), sin (-st.yaw) * (q.1 - st.x) + cos (-st.yaw) * (q.2 - st.y))

/-- `ld_sq`. -/
noncomputable def Pursuit.lookaheadSq (st : Pursuit) (q : Point) : ℝ :=
  (st.toLocal q).1 * (st.toLocal q).1 + (st.toLocal q).2 * (st.toLocal q).2

/-- The rest of `_control_loop` once there is a lookahead point. -/
noncomputable def follow (cfg : PursuitConfig) (st : Pursuit) (closestIdx laIdx : ℕ) : Except String (Pursuit × List Cmd) :=
  let q := st.pointAt laIdx
  if st.lookaheadSq q < 1 / (10 : ℕ) ^ 6 then .ok (stopIf st.missionComplete st)
  else do
    let curvaturePp ← divide ((2 : ℕ) * (st.toLocal q).2) (st.lookaheadSq q)
    let steer := max (-cfg.maxSteer) (min cfg.maxSteer (arctan (curvaturePp * cfg.wheelbase)))
    let kappa ← estimateCurvature cfg st.path laIdx
    let vCmd ← commandedSpeed cfg st closestIdx kappa
    .ok ({ st with vPrev := vCmd }, [⟨vCmd, steer⟩])

/-- The age of the path is over the limit. -/
noncomputable def expired (cfg : PursuitConfig) (now : ℤ) (st : Pursuit) : Bool :=
  st.pathReceivedAt.any fun received => decide (cfg.pathTimeout < ((now - received : ℤ) : ℝ) * (1 / (10 : ℕ) ^ 9))

/-- The lookahead distance for a curvature near the car. -/
noncomputable def adaptLookahead (cfg : PursuitConfig) (kappaNear : ℝ) (st : Pursuit) : Pursuit :=
  { st with ld := max cfg.ldMin (min cfg.ldMax (cfg.ldMax - cfg.ldCurvGain * kappaNear)) }

/-- `_control_loop`. -/
noncomputable def controlLoop (cfg : PursuitConfig) (now : ℤ) (st : Pursuit) : Except String (Pursuit × List Cmd) :=
  if (st.missionStatus ≠ "" ∨ cfg.waitForMission = true) ∧ st.missionStatus ≠ "DRIVING" then .ok (stop st)
  else if st.path = [] ∨ st.haveOdom = false then .ok (stopIf (st.missionComplete || !cfg.closedPath) st)
  else if cfg.closedPath = false ∧ expired cfg now st = true then .ok (stop st)
  else do
    let closestIdx := findClosestIdx st
    let near ← estimateCurvature cfg st.path closestIdx
    let st := adaptLookahead cfg |near| st
    match findLookahead cfg st with
    | none => .ok (stopIf (st.missionComplete || !cfg.closedPath) st)
    | some laIdx => follow cfg st closestIdx laIdx

/-! ## Runs -/

/-- What the node reacts to. -/
inductive PursuitEvent where
  | path (poses : List Point)
  | odom (position : Point) (orientation : Quaternion)
  | status (data : String)
  | complete (data : Bool)
  | tick

/-- One event at a time, with the commands it publishes. -/
noncomputable def Pursuit.step (cfg : PursuitConfig) (st : Pursuit) : ℤ × PursuitEvent → Except String (Pursuit × List Cmd)
  | (now, .path poses) => .ok (pathCb now poses st, [])
  | (_, .odom position orientation) => .ok (odomCb position orientation st, [])
  | (_, .status data) => .ok (statusCb data st, [])
  | (_, .complete data) => .ok (completeCb data st, [])
  | (now, .tick) => controlLoop cfg now st

/-- The state after some events, and the commands published. -/
noncomputable def run (cfg : PursuitConfig) (events : List (ℤ × PursuitEvent)) : Except String (Pursuit × List Cmd) :=
  events.foldlM
    (fun st e => do
      let (next, cmds) ← st.1.step cfg e
      .ok (next, st.2 ++ cmds))
    (Pursuit.init cfg, [])

end Lhre.Autonomy.PurePursuit
