import Lhre.Bevo.Dashd
import Lhre.Motec.Split
import Lhre.Theory.Crossing

/-!
# `Bevo.Correctness.GatePassage` — a passage of the gate and the steps that cross it

Both the dashboard and the viewer look at one step between two fixes at a time, and count it where it goes strictly from one
side of the gate line to the other between the ends of the gate. A passage in one such step counts once. A fix that lies
exactly on the line splits the passage into two steps that only touch it, and neither counts.

## Contents
- **Sides.** `side`, `Inside`; what `segments_cross` decides (`segmentsCross_iff`).
- **Paths.** `crossingCount`, the count of a path; `closings_frames`, that of the dashboard.
- **Passages.** `Passage`, `Touch`.
- **The viewer.** `crossed_eq`, `length_gateCrossingTimes`.
- **`gate_passage`**, and a passage with a fix on the line.
-/

namespace Lhre.Bevo

open Crossing

/-! ## Sides -/

/-- A fix in the plane, by longitude and latitude. -/
def planar (p : ℚ × ℚ) : ℚ × ℚ := (p.2, p.1)

/-- On which side of the gate line a fix lies; zero is on the line. -/
def side (gate : SfGate) (p : ℚ × ℚ) : ℚ := orient (gate.lon1, gate.lat1) (gate.lon2, gate.lat2) (planar p)

/-- A fix strictly between the ends of the gate. -/
def Inside (gate : SfGate) (p : ℚ × ℚ) : Prop :=
  ∃ t, 0 < t ∧ t < 1 ∧ p = (gate.lat1 + t * (gate.lat2 - gate.lat1), gate.lon1 + t * (gate.lon2 - gate.lon1))

/-- The step from one fix to another passes strictly between the ends of the gate. -/
def ThroughGate (gate : SfGate) (a b : ℚ × ℚ) : Prop :=
  ∃ u, Inside gate (a.1 + u * (b.1 - a.1), a.2 + u * (b.2 - a.2))

section Sides

variable {gate : SfGate} {a b : ℚ × ℚ}

theorem opposite_iff {x y : ℚ} : ((x > 0 ∧ y < 0) ∨ (x < 0 ∧ y > 0)) ↔ x * y < 0 :=
  mul_neg_iff.symm

/-- A step that crosses goes strictly from one side to the other. -/
theorem isStrict_segmentsCross : IsStrict (side gate) fun p q => segmentsCross p q gate := by
  intro p q h
  unfold segmentsCross at h
  rw [Bool.and_eq_true, decide_eq_true_eq, decide_eq_true_eq, opposite_iff] at h
  exact h.1

/-- **A step through the gate** from one side to the other crosses. -/
theorem segmentsCross_of_through (hsides : side gate a * side gate b < 0) (hthrough : ThroughGate gate a b) :
    segmentsCross a b gate = true := by
  obtain ⟨u, t, ht, ht', hpoint⟩ := hthrough
  obtain ⟨hlat, hlon⟩ := Prod.mk.inj hpoint
  obtain ⟨alat, alon⟩ := a
  obtain ⟨blat, blon⟩ := b
  dsimp only at hlat hlon
  -- how the step and the gate line turn; it is what the two sides differ by
  have hdiff : side gate (blat, blon) - side gate (alat, alon) =
      (gate.lon2 - gate.lon1) * (blat - alat) - (gate.lat2 - gate.lat1) * (blon - alon) := by
    unfold side orient planar
    ring
  have hne : (gate.lon2 - gate.lon1) * (blat - alat) - (gate.lat2 - gate.lat1) * (blon - alon) ≠ 0 := by
    rw [← hdiff]
    intro heq
    rw [sub_eq_zero.mp heq] at hsides
    exact absurd hsides (not_lt.mpr (mul_self_nonneg _))
  have hc : orient (alon, alat) (blon, blat) (gate.lon1, gate.lat1) =
      t * ((gate.lon2 - gate.lon1) * (blat - alat) - (gate.lat2 - gate.lat1) * (blon - alon)) := by
    unfold orient
    linear_combination (blat - alat) * hlon - (blon - alon) * hlat
  have hd : orient (alon, alat) (blon, blat) (gate.lon2, gate.lat2) =
      (t - 1) * ((gate.lon2 - gate.lon1) * (blat - alat) - (gate.lat2 - gate.lat1) * (blon - alon)) := by
    unfold orient
    linear_combination (blat - alat) * hlon - (blon - alon) * hlat
  unfold segmentsCross
  rw [Bool.and_eq_true, decide_eq_true_eq, decide_eq_true_eq, opposite_iff, opposite_iff]
  refine ⟨hsides, ?_⟩
  show orient (alon, alat) (blon, blat) (gate.lon1, gate.lat1) * orient (alon, alat) (blon, blat) (gate.lon2, gate.lat2) < 0
  rw [hc, hd, mul_mul_mul_comm]
  exact mul_neg_of_neg_of_pos (mul_neg_of_pos_of_neg ht (by linarith)) (mul_self_pos.mpr hne)

end Sides

/-! ## Paths -/

/-- How many steps of a path cross the gate. -/
def crossingCount (gate : SfGate) (path : List (ℚ × ℚ)) : ℕ := steps (fun p q => segmentsCross p q gate) path

/-- The fixes of some frames. -/
def fixesOf (frames : List CandFrame) : List (ℚ × ℚ) := frames.filterMap CandFrame.fix

theorem integrate_gate (s : DashState) (frame : CandFrame) :
    (s.integrate frame).sfGate = s.sfGate ∧ (s.integrate frame).lastGps = s.lastGps := by
  unfold DashState.integrate
  cases s.lastEnergyUpdate with
  | none => exact ⟨rfl, rfl⟩
  | some prev =>
      dsimp only
      split
      · cases frame.power <;> exact ⟨rfl, rfl⟩
      · exact ⟨rfl, rfl⟩

/-- What a frame makes of the gate and the last fix, and whether it closes a lap. -/
theorem onFrame_gate {s : DashState} {gate : SfGate} (hgate : s.sfGate = some gate) (frame : CandFrame) :
    (s.onFrame frame).1.sfGate = some gate ∧ (s.onFrame frame).1.lastGps = frame.fix.or s.lastGps ∧
      (s.onFrame frame).2 = crossingCount gate (s.lastGps.toList ++ frame.fix.toList) := by
  obtain ⟨hkeep, hlast⟩ := integrate_gate s frame
  unfold DashState.onFrame
  dsimp only
  cases hfix : frame.fix with
  | none =>
      refine ⟨hkeep.trans hgate, hlast, ?_⟩
      cases s.lastGps <;> rfl
  | some cur =>
      dsimp only
      -- the first fix has no step before it; from then on a fix ends a step
      have hcrosses : s.crosses frame = match s.lastGps with
          | some prev => segmentsCross prev cur gate
          | none => false := by
        unfold DashState.crosses
        rw [hfix, hgate]
        cases s.lastGps <;> rfl
      rw [hcrosses]
      cases hprev : s.lastGps with
      | none => exact ⟨hkeep.trans hgate, rfl, rfl⟩
      | some prev =>
          dsimp only
          have hcount : crossingCount gate ((some prev).toList ++ (some cur).toList) =
              if segmentsCross prev cur gate = true then 1 else 0 := Nat.add_zero _
          rw [hcount]
          split
          · exact ⟨hkeep.trans hgate, rfl, rfl⟩
          · exact ⟨hkeep.trans hgate, rfl, rfl⟩

/-- **The dashboard counts the steps** of the path of its fixes. -/
theorem closings_frames (f32 : ℚ → ℚ) {s : DashState} {gate : SfGate} (hgate : s.sfGate = some gate)
    (frames : List CandFrame) :
    s.closings f32 (frames.map DashEvent.frame) = crossingCount gate (s.lastGps.toList ++ fixesOf frames) := by
  induction frames generalizing s with
  | nil =>
      rw [List.map_nil, DashState.closings, fixesOf, List.filterMap_nil, List.append_nil]
      cases s.lastGps <;> rfl
  | cons frame frames ih =>
      obtain ⟨hkeep, hlast, hcount⟩ := onFrame_gate hgate frame
      show (s.onFrame frame).2 + (s.onFrame frame).1.closings f32 (frames.map DashEvent.frame) = _
      rw [ih hkeep, hlast, hcount]
      cases hfix : frame.fix with
      | none =>
          rw [fixesOf, fixesOf, List.filterMap_cons_none hfix]
          cases s.lastGps <;> exact Nat.zero_add _
      | some cur =>
          rw [fixesOf, fixesOf, List.filterMap_cons_some hfix]
          exact (steps_append s.lastGps.toList cur _).symm

/-! ## Passages -/

/-- A path through the gate: on one side up to the fix `a`, then exactly on the line with the fixes `on`, and on the other side
from the fix `b` on. It is through the gate where the fixes on the line, or the step from `a` to `b`, are strictly between
the ends of the gate. -/
structure Passage (gate : SfGate) (σ : ℚ) (before : List (ℚ × ℚ)) (a : ℚ × ℚ) (on : List (ℚ × ℚ)) (b : ℚ × ℚ)
    (after : List (ℚ × ℚ)) : Prop where
  passes : Passes (side gate) σ before a on b after
  inside : ∀ p ∈ on, Inside gate p
  through : on = [] → ThroughGate gate a b

/-- The path stays on one side of the gate line, and may touch it. -/
def Touch (gate : SfGate) (path : List (ℚ × ℚ)) : Prop := ∃ σ : ℚ, σ ≠ 0 ∧ ∀ p ∈ path, 0 ≤ σ * side gate p

section Count

variable {gate : SfGate} {σ : ℚ} {before on after : List (ℚ × ℚ)} {a b : ℚ × ℚ}

/-- **A passage counts once** without a fix on the line, and not at all with one. -/
theorem crossingCount_passage (h : Passage gate σ before a on b after) :
    crossingCount gate (before ++ a :: (on ++ b :: after)) = if on = [] then 1 else 0 := by
  unfold crossingCount
  by_cases hon : on = []
  · subst hon
    have hsides : side gate a * side gate b < 0 := by
      have hproduct : σ * side gate a * (σ * side gate b) < 0 := mul_neg_of_pos_of_neg h.passes.first h.passes.last
      rw [mul_mul_mul_comm] at hproduct
      by_contra hno
      exact absurd hproduct (not_lt.mpr (mul_nonneg (mul_self_nonneg σ) (not_lt.mp hno)))
    rw [List.nil_append, steps_change isStrict_segmentsCross h.passes, segmentsCross_of_through hsides (h.through rfl),
      if_pos rfl, if_pos rfl]
  · rw [steps_detour isStrict_segmentsCross h.passes hon, if_neg hon]

/-- **A path that touches the line** and returns counts nothing. -/
theorem crossingCount_touch {path : List (ℚ × ℚ)} (h : Touch gate path) : crossingCount gate path = 0 := by
  obtain ⟨σ, hσ, hside⟩ := h
  exact steps_eq_zero isStrict_segmentsCross hσ hside

end Count

/-! ## The viewer -/

/-- The gate of a line of the viewer. -/
def gateOf (gate : Motec.GateLine) : SfGate := ⟨gate.lat1, gate.lon1, gate.lat2, gate.lon2⟩

/-- A point of the viewer as a fix of the dashboard. -/
def fixOf (p : Motec.GpsPoint) : ℚ × ℚ := (p.lat, p.lon)

/-- The two orientations are the same up to their sign. -/
theorem orientation_eq (p q r : ℚ × ℚ) : Motec.orientation p q r = -orient p q r := by
  unfold Motec.orientation orient
  ring

/-- **One step** crosses for the viewer where it does for the dashboard. -/
theorem crossed_eq (gate : Motec.GateLine) (prev cur : Motec.GpsPoint) :
    gate.crossed prev cur = segmentsCross (fixOf prev) (fixOf cur) (gateOf gate) := by
  unfold Motec.GateLine.crossed Motec.segmentsCross segmentsCross
  dsimp only
  simp only [orientation_eq, neg_mul_neg, opposite_iff]
  exact Bool.and_comm _ _

theorem length_crossingLoop {gates : List Motec.GateLine} {gate : Motec.GateLine}
    (hown : gates.filter (fun g => g.id = gate.id) = [gate]) {points : List Motec.GpsPoint}
    {crossings : Dict String (List ℚ)} {times : List ℚ} (h : Dict.get? crossings gate.id = some times) :
    ∃ times', Dict.get? (Motec.crossingLoop gates points crossings) gate.id = some times' ∧
      times'.length = times.length + crossingCount (gateOf gate) (points.map fixOf) := by
  induction points generalizing crossings times with
  | nil => exact ⟨times, h, rfl⟩
  | cons prev points ih =>
      cases points with
      | nil => exact ⟨times, h, rfl⟩
      | cons cur rest =>
          -- the gate is the only one with its id, so a crossed step adds one time to its list
          have hpush := @Motec.get?_pushCrossings gates gate.id _ _ prev cur h
          rw [hown, List.filter_singleton, crossed_eq] at hpush
          obtain ⟨times', hget, hlength⟩ := ih hpush
          refine ⟨times', hget, ?_⟩
          rw [hlength, List.length_append, List.length_map, Nat.add_assoc]
          show _ = times.length + ((if segmentsCross (fixOf prev) (fixOf cur) (gateOf gate) = true then 1 else 0) +
            crossingCount (gateOf gate) ((cur :: rest).map fixOf))
          cases segmentsCross (fixOf prev) (fixOf cur) (gateOf gate) <;> rfl

/-- **The viewer counts the steps** of the path of its points. -/
theorem length_gateCrossingTimes {gates : List Motec.GateLine} {gate : Motec.GateLine}
    (hown : gates.filter (fun g => g.id = gate.id) = [gate]) (points : List Motec.GpsPoint) :
    ∃ times, Dict.get? (Motec.gateCrossingTimes points gates) gate.id = some times ∧
      times.length = crossingCount (gateOf gate) (points.map fixOf) := by
  have hmem : gate ∈ gates := List.mem_of_mem_filter (hown ▸ List.mem_singleton_self gate)
  have hstart := @Motec.get?_initial gates [] gate (Or.inl hmem)
  unfold Motec.gateCrossingTimes
  dsimp only
  split
  · rename_i hshort
    refine ⟨[], hstart, ?_⟩
    cases points with
    | nil => rfl
    | cons p points =>
        cases points with
        | nil => rfl
        | cons q rest =>
            simp only [List.length_cons] at hshort
            omega
  · obtain ⟨times, hget, hlength⟩ := @length_crossingLoop gates gate hown points _ _ hstart
    exact ⟨times, hget, by rw [hlength, List.length_nil, Nat.zero_add]⟩

/-! ## The claim -/

/-- **A passage of the gate is one crossing**, unless a fix lies exactly on the line: then it is none. A path that touches the
line is none, and the viewer counts the same on the same fixes. -/
theorem gate_passage (f32 : ℚ → ℚ) {s : DashState} {gate : SfGate} (hgate : s.sfGate = some gate) (frames : List CandFrame) :
    (∀ σ before a on b after, s.lastGps.toList ++ fixesOf frames = before ++ a :: (on ++ b :: after) →
        Passage gate σ before a on b after →
        s.closings f32 (frames.map DashEvent.frame) = if on = [] then 1 else 0) ∧
      (Touch gate (s.lastGps.toList ++ fixesOf frames) → s.closings f32 (frames.map DashEvent.frame) = 0) ∧
      ∀ gates line points, gates.filter (fun g => g.id = line.id) = [line] → gateOf line = gate →
        points.map fixOf = s.lastGps.toList ++ fixesOf frames →
        ∃ times, Dict.get? (Motec.gateCrossingTimes points gates) line.id = some times ∧
          times.length = s.closings f32 (frames.map DashEvent.frame) := by
  rw [closings_frames f32 hgate]
  refine ⟨?_, crossingCount_touch, ?_⟩
  · intro σ before a on b after hpath hpassage
    rw [hpath]
    exact crossingCount_passage hpassage
  · rintro gates line points hown rfl hpoints
    rw [← hpoints]
    exact length_gateCrossingTimes hown points

/-- A gate along a parallel. -/
def parallelGate : SfGate := ⟨1, 1, 1, 3⟩

def northOf : ℚ × ℚ := (2, 2)

def southOf : ℚ × ℚ := (1 / 2, 2)

def onLine : ℚ × ℚ := (1, 2)

def frameAt (p : ℚ × ℚ) : CandFrame := { now := 0, gps := some [p.1, p.2] }

theorem inside_onLine : Inside parallelGate onLine := ⟨1 / 2, by norm_num, by norm_num, by norm_num [onLine, parallelGate]⟩

/-- From north to south, with some fixes on the line or none. -/
theorem southward {on : List (ℚ × ℚ)} (h : ∀ p ∈ on, p = onLine) : Passage parallelGate 1 [] northOf on southOf [] where
  passes :=
    { ne := one_ne_zero
      before := fun _ hp => absurd hp List.not_mem_nil
      first := by norm_num [side, orient, planar, parallelGate, northOf]
      on := fun p hp => by rw [h p hp]; norm_num [side, orient, planar, parallelGate, onLine]
      last := by norm_num [side, orient, planar, parallelGate, southOf]
      after := fun _ hp => absurd hp List.not_mem_nil }
  inside := fun p hp => h p hp ▸ inside_onLine
  through := fun _ => ⟨2 / 3, 1 / 2, by norm_num, by norm_num, by norm_num [parallelGate, northOf, southOf]⟩

/-- A step over the line closes a lap. -/
theorem gate_passage_southward :
    ({ sfGate := some parallelGate } : DashState).closings id ([frameAt northOf, frameAt southOf].map DashEvent.frame) = 1 :=
  (gate_passage id rfl [frameAt northOf, frameAt southOf]).1 1 [] northOf [] southOf [] (by decide +kernel)
    (southward fun _ hp => absurd hp List.not_mem_nil)

/-- **A fix on the line loses the lap.** -/
theorem not_gate_passage : ¬ ∀ (f32 : ℚ → ℚ) (s : DashState) (gate : SfGate) (frames : List CandFrame) (σ : ℚ)
    (before : List (ℚ × ℚ)) (a : ℚ × ℚ) (on : List (ℚ × ℚ)) (b : ℚ × ℚ) (after : List (ℚ × ℚ)), s.sfGate = some gate →
    s.lastGps.toList ++ fixesOf frames = before ++ a :: (on ++ b :: after) → Passage gate σ before a on b after →
    s.closings f32 (frames.map DashEvent.frame) = 1 := by
  intro hall
  have hone := hall id { sfGate := some parallelGate } parallelGate [frameAt northOf, frameAt onLine, frameAt southOf] 1 []
    northOf [onLine] southOf [] rfl (by decide +kernel) (southward fun p hp => List.mem_singleton.mp hp)
  exact absurd hone (by decide +kernel)

end Lhre.Bevo
