import Mathlib.Tactic

/-!
# `Autonomy.CircuitProgress` — the scoring of a lap

`autonomy/ros2/src/lhr_metrics/lhr_metrics/reference.py`: `ReferenceTrack`, a polyline to project onto, and
`CircuitProgress`, which scores one lap along it. A double is a rational or, where it is not finite, `none`; `hypot` is a
parameter. The hash of the reference, which only labels a result, is left out.

## Contents
- **The reference.** `ReferenceTrack`, its constructor `build`, and `project`.
- **The parameters.** `LapParams` and what the constructor of `CircuitProgress` accepts.
- **The lap.** `CircuitProgress.observe`.
-/

namespace Lhre.Autonomy

variable (hypot : ℚ → ℚ → ℚ)

/-! ## The reference -/

/-- An entry of `segments`. -/
structure Segment where
  start : ℚ × ℚ
  dx : ℚ
  dy : ℚ
  length : ℚ
  arc : ℚ
deriving DecidableEq

/-- `ReferenceTrack`. -/
structure ReferenceTrack where
  points : List (ℚ × ℚ)
  closed : Bool
  segments : List Segment
  length : ℚ
  segments_ne : segments ≠ []

/-- The finite coordinates of a point, when there are two. -/
def xyPair : List (Option ℚ) → Option (ℚ × ℚ)
  | [some x, some y] => some (x, y)
  | _ => none

/-- `cleaned` after the points so far, newest first. -/
def cleanStep (cleaned : List (ℚ × ℚ)) (point : ℚ × ℚ) : List (ℚ × ℚ) :=
  if cleaned.head? = some point then cleaned else point :: cleaned

/-- `cleaned`: no point twice in a row, nor the first one again at the end. -/
def cleanPoints (points : List (ℚ × ℚ)) : List (ℚ × ℚ) :=
  let cleaned := (points.foldl cleanStep []).reverse
  if 1 < cleaned.length ∧ cleaned.head? = cleaned.getLast? then cleaned.dropLast else cleaned

/-- `twice_area`. -/
def twiceArea (cleaned : List (ℚ × ℚ)) : ℚ :=
  (List.zipWith (fun a b => a.1 * b.2 - b.1 * a.2) cleaned (cleaned.tail ++ cleaned.take 1)).sum

/-- The segments from one point to the next, each with the arc before it. -/
def segmentsFrom (arc : ℚ) : List ((ℚ × ℚ) × (ℚ × ℚ)) → List Segment
  | [] => []
  | (a, b) :: rest =>
      let length := hypot (b.1 - a.1) (b.2 - a.2)
      ⟨a, b.1 - a.1, b.2 - a.2, length, arc⟩ :: segmentsFrom (arc + length) rest

/-- The constructor of `ReferenceTrack`, with its errors. -/
def ReferenceTrack.build (points : List (List (Option ℚ))) (closed : Bool) : Except String ReferenceTrack :=
  match points.mapM xyPair with
  | none => .error "reference coordinates must be finite XY pairs"
  | some points =>
      let cleaned := cleanPoints points
      if cleaned.length < (if closed then 3 else 2) then .error "reference has too few distinct vertices"
      else if closed ∧ |twiceArea cleaned| < 1 / 1000000000 then
        .error "a closed reference must enclose nonzero area"
      else
        let ends := cleaned.tail ++ (if closed then cleaned.take 1 else [])
        let segments := segmentsFrom hypot 0 (cleaned.zip ends)
        if h : segments ≠ [] then
          .ok ⟨cleaned, closed, segments, (segments.map (·.length)).sum, h⟩
        else  -- not reached: two points make a segment
          .error "reference has too few distinct vertices"

/-- What `project` returns. -/
structure Projection where
  distance : ℚ
  arc : ℚ
  point : ℚ × ℚ
  tangent : ℚ × ℚ
deriving DecidableEq

namespace ReferenceTrack

variable (track : ReferenceTrack)

/-- The segment that shares the vertex a projection falls on. -/
def neighbor (fraction : ℚ) (index : ℕ) : Option Segment :=
  if fraction < 1 / 1000000000 ∧ (0 < index ∨ track.closed = true) then
    if index = 0 then track.segments.getLast? else track.segments[index - 1]?
  else if 1 - 1 / 1000000000 < fraction ∧ (index + 1 < track.segments.length ∨ track.closed = true) then
    track.segments[(index + 1) % track.segments.length]?
  else none

/-- The projection onto one segment. -/
def projectOnto (x y : ℚ) (seg : Segment) (index : ℕ) : Projection :=
  let fraction := min 1 (max 0 (((x - seg.start.1) * seg.dx + (y - seg.start.2) * seg.dy) / (seg.length * seg.length)))
  let q := (seg.start.1 + fraction * seg.dx, seg.start.2 + fraction * seg.dy)
  let t := (seg.dx / seg.length, seg.dy / seg.length)
  let tangent := match track.neighbor fraction index with
    | none => t
    | some other =>
        let sum := (t.1 + other.dx / other.length, t.2 + other.dy / other.length)
        let norm := hypot sum.1 sum.2
        if 1 / 1000000000 < norm then (sum.1 / norm, sum.2 / norm) else t
  ⟨hypot (x - q.1) (y - q.2), seg.arc + fraction * seg.length, q, tangent⟩

/-- The nearer of the best projection so far and the next one. -/
def nearer (best : Option Projection) (next : Projection) : Option Projection :=
  match best with
  | none => some next
  | some best => if next.distance < best.distance then some next else some best

/-- The loop of `project`. -/
def projectFrom (x y : ℚ) : List Segment → ℕ → Option Projection → Option Projection
  | [], _, best => best
  | seg :: rest, index, best =>
      projectFrom x y rest (index + 1) (nearer best (track.projectOnto hypot x y seg index))

theorem projectFrom_isSome (x y : ℚ) (segs : List Segment) (index : ℕ) (best : Option Projection)
    (h : segs ≠ [] ∨ best.isSome = true) : (track.projectFrom hypot x y segs index best).isSome = true := by
  induction segs generalizing index best with
  | nil => exact h.elim (fun hne => absurd rfl hne) id
  | cons seg rest ih =>
      refine ih (index + 1) _ (Or.inr ?_)
      cases best with
      | none => rfl
      | some best =>
          unfold nearer
          dsimp only
          split <;> rfl

/-- `project`. -/
def project (x y : ℚ) : Projection :=
  (track.projectFrom hypot x y track.segments 0 none).get
    (track.projectFrom_isSome hypot x y track.segments 0 none (Or.inl track.segments_ne))

end ReferenceTrack

/-! ## The parameters -/

/-- The parameters of `CircuitProgress`. -/
structure LapParams where
  minFraction : ℚ := 98 / 100
  gateHalfWidth : ℚ := 2
  minLapTime : ℚ := 5
  startSpeed : ℚ := 1 / 10
  maxGap : ℚ := 1
  corridor : ℚ := 2
  /-- `on_course`, where it is given. -/
  onCourse : Option (ℚ → ℚ → Bool) := none

/-- What the constructor of `CircuitProgress` checks. -/
def LapParams.check (p : LapParams) : Except String Unit :=
  if p.gateHalfWidth ≤ 0 ∨ p.maxGap ≤ 0 ∨ p.corridor ≤ 0 then
    .error "gate width, observation gap and corridor must be positive"
  else if ¬ (0 < p.minFraction ∧ p.minFraction ≤ 1) ∨ p.minLapTime < 0 ∨ p.startSpeed < 0 then
    .error "invalid lap progress or timing limits"
  else .ok ()

/-! ## The lap -/

/-- `invalid_reason`. -/
inductive InvalidReason
  | nonfiniteOdometry
  | backwardOdometryTime
  | leftDrivingState
  | odometryGap
  | discontinuousProgress
  | offCourse
deriving DecidableEq, Repr

/-- The text of an `invalid_reason`. -/
def InvalidReason.text : InvalidReason → String
  | .nonfiniteOdometry => "nonfinite_odometry"
  | .backwardOdometryTime => "backward_odometry_time"
  | .leftDrivingState => "left_driving_state"
  | .odometryGap => "odometry_gap"
  | .discontinuousProgress => "discontinuous_progress"
  | .offCourse => "off_course"

/-- The arguments of `observe`. -/
structure Observation where
  x : Option ℚ
  y : Option ℚ
  now : Option ℚ
  speed : Option ℚ
  driving : Bool := true
deriving DecidableEq

/-- An observation with finite arguments. -/
structure Stamped where
  x : ℚ
  y : ℚ
  now : ℚ
  speed : ℚ
  driving : Bool
deriving DecidableEq

/-- `all(map(math.isfinite, (x, y, now, speed)))`, with the values. -/
def Observation.finite (o : Observation) : Option Stamped :=
  match o.x, o.y, o.now, o.speed with
  | some x, some y, some now, some speed => some ⟨x, y, now, speed, o.driving⟩
  | _, _, _, _ => none

/-- `previous`: a pose, its stamp and its arc. -/
structure Passed where
  x : ℚ
  y : ℚ
  now : ℚ
  arc : ℚ
deriving DecidableEq

/-- `CircuitProgress`. -/
structure CircuitProgress where
  previous : Option Passed := none
  gate : Option ((ℚ × ℚ) × (ℚ × ℚ)) := none
  startedAt : Option ℚ := none
  completedAt : Option ℚ := none
  progress : ℚ := 0
  invalidReason : Option InvalidReason := none
deriving DecidableEq

/-- `a % b` of doubles, for a positive `b`: the result has the sign of `b`. -/
def floorMod (a b : ℚ) : ℚ := a - b * ⌊a / b⌋

variable (track : ReferenceTrack) (params : LapParams)

/-- `on_course`, by default within the corridor. -/
def isOnCourse (x y : ℚ) : Bool :=
  match params.onCourse with
  | some onCourse => onCourse x y
  | none => decide ((track.project hypot x y).distance ≤ params.corridor)

/-- The difference of two arcs, the short way round on a closed track. -/
def arcStep (arc prevArc : ℚ) : ℚ :=
  let delta := arc - prevArc
  if track.closed then floorMod (delta + track.length / 2) track.length - track.length / 2 else delta

/-- `steps`, the number of points checked on the chord. -/
def chordSteps (ds : ℚ) : ℕ := max 1 ⌈ds / (params.corridor / 2)⌉.toNat

/-- The point `i` of `steps` on a chord. -/
def chordPoint (px py x y : ℚ) (i steps : ℕ) : ℚ × ℚ := (px + (x - px) * i / steps, py + (y - py) * i / steps)

/-- The end of a chord and the points checked on it are on course. -/
def chordOnCourse (px py x y : ℚ) : Bool :=
  let steps := chordSteps params (hypot (x - px) (y - py))
  isOnCourse hypot track params x y &&
    (List.range steps).all fun i =>
      let point := chordPoint px py x y i steps
      isOnCourse hypot track params point.1 point.2

/-- Where a chord is before and after the gate line. -/
def gateSide (gate : (ℚ × ℚ) × (ℚ × ℚ)) (x y : ℚ) : ℚ := (x - gate.1.1) * gate.2.1 + (y - gate.1.2) * gate.2.2

/-- How far the crossing point of a chord is from the gate. -/
def gateLateral (gate : (ℚ × ℚ) × (ℚ × ℚ)) (px py x y fraction : ℚ) : ℚ :=
  |(px + fraction * (x - px) - gate.1.1) * gate.2.2 - (py + fraction * (y - py) - gate.1.2) * gate.2.1|

namespace CircuitProgress

variable (lap : CircuitProgress)

/-- The part of `observe` behind the accumulated progress: the crossing of the gate. -/
def crossGate (previous : Passed) (s : Stamped) (gate : (ℚ × ℚ) × (ℚ × ℚ)) (startedAt delta : ℚ) : CircuitProgress × Bool :=
  let before := gateSide gate previous.x previous.y
  let after := gateSide gate s.x s.y
  if ¬ (before < 0 ∧ 0 ≤ after) then (lap, false)
  else
    let fraction := -before / (after - before)
    let lateral := gateLateral gate previous.x previous.y s.x s.y fraction
    let crossedAt := previous.now + fraction * (s.now - previous.now)
    let crossedProgress := lap.progress - (1 - fraction) * delta
    if lateral ≤ params.gateHalfWidth ∧ params.minFraction * track.length ≤ crossedProgress ∧
        params.minLapTime ≤ crossedAt - startedAt then
      ({ lap with completedAt := some crossedAt }, true)
    else (lap, false)

/-- The part of `observe` behind the start of the lap. -/
def advance (previous : Passed) (s : Stamped) (arc startedAt : ℚ) (gate : (ℚ × ℚ) × (ℚ × ℚ)) : CircuitProgress × Bool :=
  if params.maxGap < s.now - previous.now then ({ lap with invalidReason := some .odometryGap }, false)
  else
    let ds := hypot (s.x - previous.x) (s.y - previous.y)
    let delta := arcStep track arc previous.arc
    let onCourse := chordOnCourse hypot track params previous.x previous.y s.x s.y
    if 2 * (ds + params.corridor) + 1 / 1000000 < |delta| then
      ({ lap with invalidReason := some .discontinuousProgress }, false)
    else if !onCourse then ({ lap with invalidReason := some .offCourse }, false)
    else
      let lap := { lap with progress := lap.progress + delta }
      if !track.closed then (lap, false) else lap.crossGate track params previous s gate startedAt delta

/-- `observe`. -/
def observe (o : Observation) : CircuitProgress × Bool :=
  match o.finite with
  | none => ({ lap with invalidReason := some .nonfiniteOdometry }, false)
  | some s =>
      let projection := track.project hypot s.x s.y
      match lap.previous.filter fun previous => decide (s.now ≤ previous.now) with
      | some previous =>
          if s.now < previous.now then ({ lap with invalidReason := some .backwardOdometryTime }, false) else (lap, false)
      | none =>
          let gate := lap.gate.getD (projection.point, projection.tangent)
          let previous := lap.previous
          let lap := { lap with gate := some gate, previous := some ⟨s.x, s.y, s.now, projection.arc⟩ }
          match lap.startedAt with
          | none =>
              if !s.driving || decide (s.speed < params.startSpeed) then (lap, false)
              else ({ lap with startedAt := some s.now }, false)
          | some startedAt =>
              let lap := if !s.driving then { lap with invalidReason := some .leftDrivingState } else lap
              match previous with
              | none => (lap, false)
              | some previous =>
                  if lap.completedAt.isSome || lap.invalidReason.isSome then (lap, false)
                  else lap.advance hypot track params previous s projection.arc startedAt gate

end CircuitProgress

end Lhre.Autonomy
