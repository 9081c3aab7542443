import Mathlib.Analysis.SpecialFunctions.Trigonometric.Bounds

/-!
# `Autonomy.CourseEnvelope` — the swept footprint of the vehicle

`lhr_metrics/course.py` over the real numbers: the two intersection tests, the checks of one pose, and the sweep between two
observations. Of `CONE_SPECS` only the base widths are read; what only labels a course, its hash, is left out.

## Contents
- **Geometry.** `Pose`, `Box`, `rectangle`, `bounds`, `overlap`, `inside`.
- **Intersection tests.** `SegmentHitsRectangle`, `RectanglesTouch`.
- **The course.** `Vehicle`, `footprint`, `coneBase`, `Course`, `Contains`.
- **Observations.** `poseOutside`, `poseHits`, `observe`.
-/

namespace Lhre.Autonomy.Envelope

open Real

/-! ## Geometry -/

abbrev Point := ℝ × ℝ

structure Pose where
  x : ℝ
  y : ℝ
  yaw : ℝ

/-- A rectangle in the frame of a pose. -/
structure Box where
  rear : ℝ
  front : ℝ
  halfWidth : ℝ

/-- A padded box. -/
def Box.pad (b : Box) (padding : ℝ) : Box := ⟨b.rear - padding, b.front + padding, b.halfWidth + padding⟩

/-- A point of the frame of a pose, in the map. -/
noncomputable def Pose.toMap (p : Pose) (u v : ℝ) : Point :=
  (p.x + cos p.yaw * u - sin p.yaw * v, p.y + sin p.yaw * u + cos p.yaw * v)

/-- `rectangle`. -/
noncomputable def rectangle (p : Pose) (b : Box) : Fin 4 → Point :=
  ![p.toMap b.rear (-b.halfWidth), p.toMap b.front (-b.halfWidth), p.toMap b.front b.halfWidth, p.toMap b.rear b.halfWidth]

/-- `min` and `max` of the four values at the corners. -/
noncomputable def minOf (f : Fin 4 → ℝ) : ℝ := min (min (f 0) (f 1)) (min (f 2) (f 3))
noncomputable def maxOf (f : Fin 4 → ℝ) : ℝ := max (max (f 0) (f 1)) (max (f 2) (f 3))

/-- An axis-aligned box. -/
structure Bounds where
  x0 : ℝ
  y0 : ℝ
  x1 : ℝ
  y1 : ℝ

/-- `bounds` of a polygon. -/
noncomputable def bounds (points : Fin 4 → Point) : Bounds :=
  ⟨minOf fun i => (points i).1, minOf fun i => (points i).2, maxOf fun i => (points i).1, maxOf fun i => (points i).2⟩

/-- `bounds` of an edge. -/
noncomputable def edgeBounds (a b : Point) : Bounds := ⟨min a.1 b.1, min a.2 b.2, max a.1 b.1, max a.2 b.2⟩

/-- `overlap`. -/
def Overlap (a b : Bounds) : Prop := a.x0 ≤ b.x1 ∧ b.x0 ≤ a.x1 ∧ a.y0 ≤ b.y1 ∧ b.y0 ≤ a.y1

/-- An edge of the polygon is crossed by the ray from a point. -/
def RayCrosses (point a b : Point) : Prop :=
  ¬ (a.2 > point.2 ↔ b.2 > point.2) ∧ point.1 < a.1 + (point.2 - a.2) * (b.1 - a.1) / (b.2 - a.2)

/-- `inside`: every crossed edge turns the answer. -/
noncomputable def inside (point : Point) (polygon : Fin 4 → Point) : Bool :=
  open Classical in
  (decide (RayCrosses point (polygon 0) (polygon 1))).xor ((decide (RayCrosses point (polygon 1) (polygon 2))).xor
    ((decide (RayCrosses point (polygon 2) (polygon 3))).xor (decide (RayCrosses point (polygon 3) (polygon 0)))))

/-! ## Intersection tests -/

/-- A point in the frame of a pose. -/
noncomputable def Pose.toLocal (p : Pose) (q : Point) : Point :=
  (cos p.yaw * (q.1 - p.x) + sin p.yaw * (q.2 - p.y), -sin p.yaw * (q.1 - p.x) + cos p.yaw * (q.2 - p.y))

/-- One dimension of the clip: what it leaves of a range, or `none` where it returns. -/
noncomputable def clip (start finish minimum maximum : ℝ) (range : ℝ × ℝ) : Option (ℝ × ℝ) :=
  open Classical in
  let delta := finish - start
  if |delta| < 1e-12 then if minimum ≤ start ∧ start ≤ maximum then some range else none
  else
    let t1 := min ((minimum - start) / delta) ((maximum - start) / delta)
    let t2 := max ((minimum - start) / delta) ((maximum - start) / delta)
    let low := max range.1 t1
    let high := min range.2 t2
    if high < low then none else some (low, high)

/-- `segment_hits_rectangle`. -/
noncomputable def SegmentHitsRectangle (a b : Point) (p : Pose) (box : Box) : Prop :=
  ((clip (p.toLocal a).1 (p.toLocal b).1 box.rear box.front (0, 1)).bind fun range =>
    clip (p.toLocal a).2 (p.toLocal b).2 (-box.halfWidth) box.halfWidth range).isSome

/-- The projections of a polygon on an axis. -/
def project (n : Point) (polygon : Fin 4 → Point) (i : Fin 4) : ℝ := (polygon i).1 * n.1 + (polygon i).2 * n.2

/-- The normal of a side. -/
def normal (p q : Point) : Point := (p.2 - q.2, q.1 - p.1)

/-- An axis separates two polygons. -/
def Separates (n : Point) (a b : Fin 4 → Point) : Prop :=
  maxOf (project n a) < minOf (project n b) ∨ maxOf (project n b) < minOf (project n a)

/-- `rectangles_touch`: no normal of two sides of either separates them. -/
def RectanglesTouch (a b : Fin 4 → Point) : Prop :=
  ¬ Separates (normal (a 0) (a 1)) a b ∧ ¬ Separates (normal (a 1) (a 2)) a b ∧
    ¬ Separates (normal (b 0) (b 1)) a b ∧ ¬ Separates (normal (b 1) (b 2)) a b

/-! ## The course -/

/-- The dimensions of the vehicle. -/
structure Vehicle where
  chassisCenterX : ℝ
  bodyLength : ℝ
  bodyWidth : ℝ
  wheelbase : ℝ
  halfTrack : ℝ
  wheelRadius : ℝ
  wheelWidth : ℝ

noncomputable def hypot (x y : ℝ) : ℝ := √(x ^ 2 + y ^ 2)

/-- The box of the chassis and of the wheels at every steering angle. -/
noncomputable def Vehicle.footprint (v : Vehicle) : Box :=
  let wheelExtent := hypot v.wheelRadius (v.wheelWidth / 2)
  { rear := min (v.chassisCenterX - v.bodyLength / 2) (-wheelExtent)
    front := max (v.chassisCenterX + v.bodyLength / 2) (v.wheelbase + wheelExtent)
    halfWidth := max (v.bodyWidth / 2) (v.halfTrack + wheelExtent) }

/-- `radius`: how far the footprint reaches from `base_link`. -/
noncomputable def Box.radius (b : Box) : ℝ := hypot (max |b.rear| |b.front|) b.halfWidth

/-- A cone: its identity, its pose, and the width of its base. -/
structure Cone where
  identity : String
  pose : Pose
  base : ℝ

noncomputable def Cone.polygon (c : Cone) : Fin 4 → Point := rectangle c.pose ⟨-(c.base / 2), c.base / 2, c.base / 2⟩

/-- The same square as a box. -/
noncomputable def Cone.box (c : Cone) : Box := ⟨-(c.base / 2), c.base / 2, c.base / 2⟩

/-- The base widths of `CONE_SPECS`. -/
noncomputable def coneBase : String → Option ℝ
  | "blue" => some (228 / 1000)
  | "yellow" => some (228 / 1000)
  | "orange_small" => some (228 / 1000)
  | "orange_large" => some (285 / 1000)
  | _ => none

/-- The boundary strips, the boundary edges and the cones of a course, and the footprint that is scored. -/
structure Course where
  quads : List (Fin 4 → Point)
  edges : List (Point × Point)
  cones : List Cone
  box : Box

/-- The constructor. -/
noncomputable def Course.make (left right : List Point) (cones : List (String × Pose × String)) (vehicle : Vehicle)
    (closed : Bool) : Option Course :=
  if left.length ≠ right.length ∨ left.length < 2 then none
  else if ¬ (cones.map Prod.fst).Nodup then none
  else
    let count := if closed then left.length else left.length - 1
    let at' (side : List Point) (i : ℕ) : Point := side.getD (i % left.length) (0, 0)
    let strips := List.range count
    (cones.mapM fun (identity, pose, kind) => (coneBase kind).map fun base => Cone.mk identity pose base).map fun cones =>
      { quads := strips.map fun i => ![at' left i, at' left (i + 1), at' right (i + 1), at' right i]
        edges := (strips.flatMap fun i => [(at' left i, at' left (i + 1)), (at' right i, at' right (i + 1))]) ++
          if closed then [] else [(at' left 0, at' right 0), (at' left (left.length - 1), at' right (left.length - 1))]
        cones := cones
        box := vehicle.footprint }

/-- `contains`. -/
def Course.Contains (course : Course) (point : Point) : Prop :=
  ∃ quad ∈ course.quads, (bounds quad).x0 ≤ point.1 ∧ point.1 ≤ (bounds quad).x1 ∧ (bounds quad).y0 ≤ point.2 ∧
    point.2 ≤ (bounds quad).y1 ∧ inside point quad = true

/-! ## Observations -/

/-- `pose_check`: off the course. -/
def poseOutside (course : Course) (p : Pose) (padding : ℝ) : Prop :=
  (¬ ∀ i, course.Contains (rectangle p (course.box.pad padding) i)) ∨
    ∃ edge ∈ course.edges, Overlap (bounds (rectangle p (course.box.pad padding))) (edgeBounds edge.1 edge.2) ∧
      SegmentHitsRectangle edge.1 edge.2 p (course.box.pad padding)

/-- `pose_check`: the cones that are touched. -/
def poseHits (course : Course) (p : Pose) (padding : ℝ) : Set String :=
  { identity | ∃ cone ∈ course.cones, cone.identity = identity ∧
    Overlap (bounds (rectangle p (course.box.pad padding))) (bounds cone.polygon) ∧
    RectanglesTouch (rectangle p (course.box.pad padding)) cone.polygon }

/-- `SWEEP_STEP_M`. -/
noncomputable def sweepStep : ℝ := 5 / 100

/-- The turn from one angle to another, the short way. -/
noncomputable def shortTurn (angle yaw : ℝ) : ℝ :=
  let x := yaw - angle + π
  x - 2 * π * ⌊x / (2 * π)⌋ - π

/-- The pose at a fraction of the motion between two. -/
noncomputable def between (p q : Pose) (fraction : ℝ) : Pose :=
  ⟨p.x + (q.x - p.x) * fraction, p.y + (q.y - p.y) * fraction, p.yaw + shortTurn p.yaw q.yaw * fraction⟩

/-- `motion`: how far any point of the footprint can move. -/
noncomputable def motion (course : Course) (p q : Pose) : ℝ :=
  hypot (q.x - p.x) (q.y - p.y) + course.box.radius * |shortTurn p.yaw q.yaw|

noncomputable def sweepSteps (course : Course) (p q : Pose) : ℕ := max 1 ⌈motion course p q / sweepStep⌉₊

noncomputable def sweepPadding (course : Course) (p q : Pose) : ℝ := motion course p q / (2 * sweepSteps course p q)

/-- `hit_ids` and `previous`. -/
structure State where
  hitIds : Set String := ∅
  previous : Option Pose := none

/-- What an observation reports. -/
structure Report where
  outside : Prop
  hits : Set String

/-- What `observe` returns. -/
noncomputable def report (course : Course) (st : State) (pose : Pose) (continuous : Bool) : Report :=
  match st.previous, continuous with
  | some previous, true =>
      let sampled (i : ℕ) : Pose := between previous pose (i / sweepSteps course previous pose)
      let padding := sweepPadding course previous pose
      { outside := ∃ i ≤ sweepSteps course previous pose, poseOutside course (sampled i) padding
        hits := { identity | ∃ i ≤ sweepSteps course previous pose, identity ∈ poseHits course (sampled i) padding } }
  | _, _ => { outside := poseOutside course pose 0, hits := poseHits course pose 0 }

/-- `observe`. -/
noncomputable def observe (course : Course) (st : State) (pose : Pose) (continuous : Bool) : State × Report :=
  ({ hitIds := st.hitIds ∪ (report course st pose continuous).hits, previous := some pose }, report course st pose continuous)

/-- A sequence of observations. -/
noncomputable def run (course : Course) (st : State) : List (Pose × Bool) → State
  | [] => st
  | (pose, continuous) :: rest => run course (observe course st pose continuous).1 rest

end Lhre.Autonomy.Envelope
