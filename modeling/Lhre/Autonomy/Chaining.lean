import Mathlib.Analysis.SpecialFunctions.Complex.Arg

/-!
# `Autonomy.Chaining` — ordering points into a centerline

The two sector-based chaining algorithms of `lhr_track_builder/track_builder_node.py`, over the real numbers: the checks of
their parameters, the initial heading, the constrained greedy walk and the beam search. A path is a list of indices, and the
points are read off at the end. The order in which a set of indices is visited is a parameter, `iterate`.

## Contents
- **Parameters.** `ChainParams`, `ChainParams.check`.
- **Geometry.** `dist`, `headingTo`, `headingError`, `TooClose`, `stepCost`, `initialHeading`.
- **The greedy walk.** `Scan`, `scanStep`, `greedyLoop`, `constrainedGreedy`.
- **The beam.** `Partial`, `extensions`, `beamLoop`, `fixedWidthBeamSearch`.
-/

namespace Lhre.Autonomy.Chaining

open Real

/-! ## Parameters -/

/-- The parameters of the chaining algorithms. -/
structure ChainParams where
  minStep : ℝ
  maxStep : ℝ
  maxTurnDeg : ℝ
  distanceWeight : ℝ
  headingWeight : ℝ
  beamWidth : ℤ
  beamDepth : ℤ

/-- The checks of `__init__`. A real number is finite. -/
noncomputable def ChainParams.check (p : ChainParams) : Except String Unit :=
  if ¬ (0 ≤ p.minStep ∧ p.minStep < p.maxStep) then .error "Require 0 <= min_step_m < max_step_m"
  else if ¬ (0 < p.maxTurnDeg ∧ p.maxTurnDeg ≤ 180) then .error "Require 0 < max_turn_deg <= 180"
  else if p.distanceWeight < 0 ∨ p.headingWeight < 0 ∨ max p.distanceWeight p.headingWeight = 0 then
    .error "Chaining weights must be nonnegative with at least one positive"
  else if p.beamWidth ≤ 0 then .error "beam_width must be a positive integer"
  else if p.beamDepth ≤ 0 then .error "beam_depth must be a positive integer"
  else .ok ()

/-- `_max_turn_rad`. -/
noncomputable def ChainParams.maxTurnRad (p : ChainParams) : ℝ := p.maxTurnDeg * π / 180

/-! ## Geometry -/

abbrev PathPoint := ℝ × ℝ

/-- `points[j]`. -/
def pointAt (points : List PathPoint) (j : ℕ) : PathPoint := points.getD j (0, 0)

/-- `math.dist`, and `math.hypot` of a difference. -/
noncomputable def dist (a b : PathPoint) : ℝ := √((b.1 - a.1) ^ 2 + (b.2 - a.2) ^ 2)

/-- `math.atan2`. -/
noncomputable def atan2 (y x : ℝ) : ℝ := Complex.arg ⟨x, y⟩

/-- The heading of a step. -/
noncomputable def headingTo (a b : PathPoint) : ℝ := atan2 (b.2 - a.2) (b.1 - a.1)

/-- `heading_error`. -/
noncomputable def headingError (candidateHeading heading : ℝ) : ℝ :=
  atan2 (sin (candidateHeading - heading)) (cos (candidateHeading - heading))

/-- A point that is suppressed at another one. -/
def TooClose (p : ChainParams) (a b : PathPoint) : Prop := dist a b = 0 ∨ dist a b < p.minStep

noncomputable instance (p : ChainParams) (a b : PathPoint) : Decidable (TooClose p a b) :=
  inferInstanceAs (Decidable (_ ∨ _))

/-- `score`, and `step_cost`. -/
noncomputable def stepCost (p : ChainParams) (here next : PathPoint) (heading : ℝ) : ℝ :=
  p.distanceWeight * dist here next / p.maxStep
    + p.headingWeight * (headingError (headingTo here next) heading / p.maxTurnRad) ^ 2

/-- `_initial_heading`: the yaw of the vehicle where there is odometry. -/
noncomputable def initialHeading (p : ChainParams) (odom : Option ℝ) (points : List PathPoint) (start : ℕ) : Option ℝ :=
  match odom with
  | some yaw => some yaw
  | none =>
    let here := pointAt points start
    let neighbors := (List.range points.length).filter fun j =>
      j ≠ start ∧ 0 < dist here (pointAt points j) ∧ p.minStep ≤ dist here (pointAt points j)
    (neighbors.argmin fun j => toLex (dist here (pointAt points j), j)).map fun nearest =>
      headingTo here (pointAt points nearest)

/-! ## The greedy walk -/

/-- `best_idx`, `best_score`, `best_heading`, and `redundant`. -/
structure Scan where
  best : Option (ℕ × ℝ × ℝ)
  redundant : Finset ℕ

/-- The body of the loop over the remaining points. -/
noncomputable def scanStep (p : ChainParams) (points : List PathPoint) (here : PathPoint) (heading : ℝ) (st : Scan)
    (j : ℕ) : Scan :=
  let next := pointAt points j
  if TooClose p here next then { st with redundant := insert j st.redundant }
  else if p.maxStep < dist here next then st
  else if p.maxTurnRad < |headingError (headingTo here next) heading| then st
  else
    let score := stepCost p here next heading
    match st.best with
    | none => { st with best := some (j, score, headingTo here next) }
    | some (bestIdx, bestScore, _) =>
      if score < bestScore ∨ score = bestScore ∧ j < bestIdx then { st with best := some (j, score, headingTo here next) }
      else st

variable (iterate : Finset ℕ → List ℕ)

/-- The outer loop. Each round takes a point out of `remaining`. -/
noncomputable def greedyLoop (p : ChainParams) (points : List PathPoint) : ℕ → List ℕ → Finset ℕ → ℝ → List ℕ
  | 0, ordered, _, _ => ordered
  | fuel + 1, ordered, remaining, heading =>
    if remaining = ∅ then ordered
    else
      let scan := (iterate remaining).foldl (scanStep p points (pointAt points (ordered.getLastD 0)) heading) ⟨none, ∅⟩
      match scan.best with
      | none => ordered
      | some (bestIdx, _, bestHeading) =>
        greedyLoop p points fuel (ordered ++ [bestIdx]) ((remaining \ scan.redundant).erase bestIdx) bestHeading

/-- `remaining` at the start. -/
def others (points : List PathPoint) (start : ℕ) : Finset ℕ := (Finset.range points.length).erase start

/-- The indices of `_constrained_greedy`. -/
noncomputable def greedyPath (p : ChainParams) (odom : Option ℝ) (points : List PathPoint) (start : ℕ) : List ℕ :=
  if points = [] then []
  else
    match initialHeading p odom points start with
    | none => [start]
    | some heading => greedyLoop iterate p points points.length [start] (others points start) heading

/-- `_constrained_greedy`. -/
noncomputable def constrainedGreedy (p : ChainParams) (odom : Option ℝ) (points : List PathPoint) (start : ℕ) :
    List PathPoint :=
  (greedyPath iterate p odom points start).map (pointAt points)

/-! ## The beam -/

/-- A state of the beam. -/
structure Partial where
  path : List ℕ
  remaining : Finset ℕ
  heading : ℝ
  cost : ℝ

/-- The extensions of one state. -/
noncomputable def extensions (p : ChainParams) (points : List PathPoint) (state : Partial) : List Partial :=
  let here := pointAt points (state.path.getLastD 0)
  let remaining := state.remaining \ state.remaining.filter fun j => TooClose p here (pointAt points j)
  (iterate remaining).filterMap fun j =>
    let next := pointAt points j
    if p.maxStep < dist here next then none
    else if p.maxTurnRad < |headingError (headingTo here next) state.heading| then none
    else
      some
        { path := state.path ++ [j]
          remaining := remaining.erase j
          heading := headingTo here next
          cost := state.cost + stepCost p here next state.heading }

/-- The order of `sort`: by cost, then by path. -/
noncomputable def partialLe (a b : Partial) : Bool := decide (a.cost < b.cost ∨ a.cost = b.cost ∧ a.path ≤ b.path)

/-- The loop over the depths. -/
noncomputable def beamLoop (p : ChainParams) (points : List PathPoint) : ℕ → List Partial → List Partial
  | 0, beam => beam
  | depth + 1, beam =>
    match beam.flatMap (extensions iterate p points) with
    | [] => beam
    | e :: es => beamLoop p points depth (((e :: es).mergeSort partialLe).take p.beamWidth.toNat)

/-- The indices of `_fixed_width_beam_search`. -/
noncomputable def beamPath (p : ChainParams) (odom : Option ℝ) (points : List PathPoint) (start : ℕ) : List ℕ :=
  if points = [] then []
  else
    match initialHeading p odom points start with
    | none => [start]
    | some heading =>
      ((beamLoop iterate p points p.beamDepth.toNat [⟨[start], others points start, heading, 0⟩]).headD ⟨[], ∅, 0, 0⟩).path

/-- `_fixed_width_beam_search`. -/
noncomputable def fixedWidthBeamSearch (p : ChainParams) (odom : Option ℝ) (points : List PathPoint) (start : ℕ) :
    List PathPoint :=
  (beamPath iterate p odom points start).map (pointAt points)

end Lhre.Autonomy.Chaining
