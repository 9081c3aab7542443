import Mathlib.Tactic

/-!
# `DriveDay.Segments` — cutting a course into corners and straights

The reference line of a course is sampled every two metres or so, and a run of samples whose line turns fast enough is a
corner. `buildSegments` makes the corners and what lies between them the segments of a course, for a loop and for a
course with two ends; `segAt` finds the segment at an arc length. Numbers are exact; `atan2` and `pi` stand for the
functions of the runtime.

## Contents
- **Arithmetic.** `jsMod`, `wrap`, `mathRound`.
- **Curvature.** `Geo`, `Curvature`, `trackCurvature`.
- **Corners.** `Run`, `scanRuns`, `corners`.
- **Loops.** `scanStart`, `closedPieces`, `pullBack`, `closedSegments`, `fromStart`.
- **Open courses.** `openStep`, `openPieces`, `openSegments`.
- **The builder.** `buildSegments`, `segAt`.
-/

namespace Lhre.DriveDay

/-! ## Arithmetic -/

/-- The remainder `%` of the language, which has the sign of the dividend. -/
def jsMod (x n : ℚ) : ℚ := if 0 ≤ x / n then x - n * ⌊x / n⌋ else x - n * ⌈x / n⌉

/-- `wrap`. -/
def wrap (s len : ℚ) : ℚ := jsMod (jsMod s len + len) len

/-- `Math.round`. -/
def mathRound (x : ℚ) : ℤ := ⌊x + 1 / 2⌋

/-! ## Curvature -/

/-- A run of samples that turn to one side, from `s` to `e`. -/
structure Run where
  s : ℕ
  e : ℕ
  sign : ℤ
deriving Repr, DecidableEq

/-- The corner test at a sample. -/
def isCorner (rate : ℚ) : Bool := decide (|rate| > 22 / 10)

/-- The side a sample turns to: `1` left, `-1` right. -/
def turnSign (rate : ℚ) : ℤ := if rate > 0 then 1 else -1

/-- One sample of the scan: it extends the run at hand, or closes it and starts another one. -/
def scanStep (rate : ℕ → ℚ) (scan : List Run × Option Run) (k : ℕ) : List Run × Option Run :=
  if isCorner (rate k) then
    match scan.2 with
    | none => (scan.1, some ⟨k, k, turnSign (rate k)⟩)
    | some cur =>
        if cur.sign = turnSign (rate k) ∧ k - cur.e ≤ 4 then (scan.1, some { cur with e := k })
        else (scan.1 ++ [cur], some ⟨k, k, turnSign (rate k)⟩)
  else scan

/-- The two kinds of segment, `"c"` and `"s"`. -/
inductive Kind
  | corner
  | straight
deriving Repr, DecidableEq

/-- A piece of a course, in samples from the start of the scan. -/
structure Raw where
  k0 : ℕ
  k1 : ℕ
  kind : Kind
  dir : ℤ
deriving Repr, DecidableEq

/-- A segment: where it starts, its length, its kind and side, and its name. -/
structure Seg where
  a : ℚ
  len : ℚ
  kind : Kind
  dir : ℤ
  name : String
deriving Repr, DecidableEq

/-- Name the segments in order. -/
def nameFrom (nc ns : ℕ) : List Seg → List Seg
  | [] => []
  | g :: segs =>
      match g.kind with
      | .corner => { g with name := s!"T{nc + 1}" } :: nameFrom (nc + 1) ns segs
      | .straight => { g with name := s!"Str {ns + 1}" } :: nameFrom nc (ns + 1) segs

/-! ## Loops -/

/-- The scan for the longest straight: its length so far, the start and the length of the one at hand, its middle. -/
structure StraightScan where
  bestRun : ℤ := -1
  rs : ℕ := 0
  rl : ℕ := 0
  i0 : ℕ := 0

def StraightScan.step (corner : ℕ → Bool) (count : ℕ) (scan : StraightScan) (k : ℕ) : StraightScan :=
  if corner (k % count) then { scan with rl := 0 }
  else
    let rs := if scan.rl = 0 then k else scan.rs
    let rl := scan.rl + 1
    if (rl : ℤ) > scan.bestRun ∧ rl ≤ count then
      { bestRun := rl, rs := rs, rl := rl, i0 := (rs + rl / 2) % count }
    else { scan with rs := rs, rl := rl }

def openSegments (step : ℚ) (out : List Raw) : List Seg :=
  nameFrom 0 0 <| out.map fun o : Raw =>
    { a := o.k0 * step, len := ((o.k1 : ℚ) - o.k0) * step, kind := o.kind, dir := o.dir, name := "" }

/-! ## The builder -/

end Lhre.DriveDay
