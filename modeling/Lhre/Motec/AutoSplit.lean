import Lhre.Motec.Ld

/-!
# `Motec.AutoSplit` — the ranges of an automatic split

`viewer_tool/src/lib/motec/split.ts`: `detectSplitRanges` with the functions it calls. A value that is no number is `none`, and
every comparison with it is false; `toLowerCase` is a parameter.

## Contents
- **Motion.** `SplitMode`, `motionThreshold`, `moving`.
- **The active range.** `detectActiveRange`.
- **Ranges.** `normalizeRanges`, `SplitState.step`, `detectSplitRanges`.
-/

namespace Lhre.Motec

variable (lower : String → String)

/-! ## Motion -/

inductive SplitMode
  | rpm
  | state
  | speed
  | generic
deriving DecidableEq, Repr

/-- `includes`. -/
def includes (s part : String) : Bool := decide (part.toList <:+: s.toList)

/-- `splitMode`. -/
def splitMode (c : Channel) : SplitMode :=
  let name := lower c.name
  let unit := lower c.unit
  if includes name "rpm" || unit == "rpm" then .rpm
  else if includes name "state" || ["bool", "boolean", "state", "status"].contains unit then .state
  else if includes name "speed" || ["m/s", "mph", "kph", "km/h", "rad/s"].contains unit then .speed
  else .generic

/-- `Math.max` of the magnitudes. -/
def peak : List Sample → Option ℚ
  | [] => some 0
  | s :: rest => s.value.bind fun x => (peak rest).map (max |x|)

/-- `motionThreshold`. -/
def motionThreshold (c : Channel) : Option ℚ :=
  if c.samples = [] then some 0
  else
    let unit := lower c.unit
    match splitMode lower c with
    | .state => some (1 / 2)
    | .rpm => (peak c.samples).map fun peak => max 1200 (peak * (8 / 100))
    | _ => (peak c.samples).map fun peak => max (if unit = "mph" then 3 else 1) (peak * (3 / 100))

/-- A sample at which the channel moves. -/
def moving (c : Channel) (s : Sample) : Bool :=
  match motionThreshold lower c, s.value with
  | some threshold, some value =>
      if splitMode lower c = .state then decide (threshold < |value|) else decide (threshold ≤ |value|)
  | _, _ => false

/-! ## The active range -/

/-- `detectActiveRange`. -/
def detectActiveRange (c : Channel) : Option (ℚ × ℚ) :=
  match c.samples.head?, c.samples.getLast? with
  | some start, some finish =>
      let active := c.samples.filter (moving lower c)
      match active.head?, active.getLast? with
      | some first, some last => some (first.t, last.t)
      | _, _ => some (start.t, finish.t)
  | _, _ => none

/-! ## Ranges -/

/-- The loop of `normalizeRanges`; the ranges that are merged so far, the last one first. -/
def mergeRanges (merged : List (ℚ × ℚ)) : List (ℚ × ℚ) → List (ℚ × ℚ)
  | [] => merged
  | (start, finish) :: rest =>
      match merged with
      | (a, b) :: before =>
          if start ≤ b then mergeRanges ((a, max b finish) :: before) rest
          else mergeRanges ((start, finish) :: (a, b) :: before) rest
      | [] => mergeRanges [(start, finish)] rest

/-- `normalizeRanges`. -/
def normalizeRanges (ranges : List (ℚ × ℚ)) : List (ℚ × ℚ) :=
  let clean := (ranges.filter fun r => decide (r.1 < r.2)).mergeSort fun x y => decide (x.1 ≤ y.1)
  (mergeRanges [] clean).reverse

/-- What the loop of `detectSplitRanges` carries. -/
structure SplitState where
  ranges : List (ℚ × ℚ) := []
  segmentStart : ℚ
  gapStart : Option ℚ := none
  previousT : Option ℚ := none

variable (minimumGapS minimumSegmentS : ℚ) (still : Sample → Bool)

/-- The loop body, for a sample in the active range. -/
def SplitState.step (st : SplitState) (sample : Sample) : SplitState :=
  let st' :=
    match st.gapStart with
    | none => if still sample then { st with gapStart := some (st.previousT.getD sample.t) } else st
    | some gapStart =>
        if still sample then st
        else
          let gapEnd := st.previousT.getD sample.t
          if minimumGapS ≤ gapEnd - gapStart ∧ minimumSegmentS ≤ gapStart - st.segmentStart then
            { st with
              ranges := st.ranges ++ [(st.segmentStart, gapStart)]
              segmentStart := sample.t
              gapStart := none }
          else { st with gapStart := none }
  { st' with previousT := some sample.t }

/-- The loop: samples before the active range are skipped, and it ends behind it. -/
def splitLoop (activeStart activeEnd : ℚ) : List Sample → SplitState → SplitState
  | [], st => st
  | sample :: rest, st =>
      if sample.t < activeStart then splitLoop activeStart activeEnd rest st
      else if activeEnd < sample.t then st
      else splitLoop activeStart activeEnd rest (st.step minimumGapS minimumSegmentS still sample)

/-- What follows the loop: the ranges, and whether the last segment is open. -/
def SplitState.close (st : SplitState) : List (ℚ × ℚ) × Bool :=
  match st.gapStart, st.previousT with
  | some gapStart, some previousT =>
      if minimumGapS ≤ previousT - gapStart ∧ minimumSegmentS ≤ gapStart - st.segmentStart then
        (st.ranges ++ [(st.segmentStart, gapStart)], false)
      else (st.ranges, true)
  | _, _ => (st.ranges, true)

/-- The ranges that are pushed. -/
def SplitState.pushed (st : SplitState) (activeEnd : ℚ) : List (ℚ × ℚ) :=
  let (ranges, segmentOpen) := st.close minimumGapS minimumSegmentS
  if segmentOpen ∧ minimumSegmentS ≤ activeEnd - st.segmentStart then ranges ++ [(st.segmentStart, activeEnd)] else ranges

/-- `detectSplitRanges`. -/
def detectSplitRanges (c : Channel) : List (ℚ × ℚ) :=
  match detectActiveRange lower c with
  | none => []
  | some (activeStart, activeEnd) =>
      let still := fun s => !moving lower c s
      let st := splitLoop minimumGapS minimumSegmentS still activeStart activeEnd c.samples { segmentStart := activeStart }
      let ranges := st.pushed minimumGapS minimumSegmentS activeEnd
      if ranges = [] ∧ activeStart < activeEnd then [(activeStart, activeEnd)] else normalizeRanges ranges

end Lhre.Motec
