import Lhre.DriveDay.Sectors

/-!
# `DriveDay.Rebuild` — laps that end where the next one begins

`viewer_tool/src/lib/driveday/rebuild.ts`. The samples of all laps make one stream; every lap of a loop is cut from it anew,
with an interpolated sample exactly on its start and on its end. Numbers are exact, rounding is the source's, and `hypot` is a
parameter.

## Contents
- **The stream.** `StreamSample`, `stream`, `unroll`, `lowerBound`, `mix`.
- **A lap.** `lapSamples`, `lapPositions`, `mkLap`.
- **The run.** `rebuildRun`.
-/

namespace Lhre.DriveDay

variable (hypot : ℚ → ℚ → ℚ)

/-- `round`. -/
def roundTo (v : ℚ) (d : ℕ) : ℚ := mathRound (v * 10 ^ d) / 10 ^ d

/-! ## The stream -/

/-- `Sample`: `s` is the arc length of its fix, `U` the way along the run. -/
structure StreamSample where
  t : ℚ
  x : ℚ
  y : ℚ
  spd : ℚ
  dev : ℚ
  s : ℚ
  v : ChKey → ℚ
  cells : List ℚ
  U : ℚ

/-- One point of a lap joins the stream, where it comes after all that is there. -/
def pushSample (t0 : ℚ) (ST : List StreamSample) (p : Point) : List StreamSample :=
  let sample : StreamSample :=
    { t := t0 + p.t, x := p.x, y := p.y, spd := p.spd, dev := p.dev, s := p.s, v := p.v, cells := p.cells, U := 0 }
  match ST.getLast? with
  | some last => if sample.t ≤ last.t then ST else ST ++ [sample]
  | none => [sample]

/-- The stream of the laps, in the order of their starts. -/
def stream (L0 : List RawLap) : List StreamSample := L0.foldl (fun ST l => l.points.foldl (pushSample l.t0) ST) []

/-- A step of the arc length, the short way round the loop. -/
def shortStep (RL d : ℚ) : ℚ := if d < -RL / 2 then d + RL else if RL / 2 < d then d - RL else d

def unrollFrom (RL : ℚ) (previous : StreamSample) : List StreamSample → List StreamSample
  | [] => []
  | s :: rest =>
      let s := { s with U := previous.U + shortStep RL (s.s - previous.s) }
      s :: unrollFrom RL s rest

/-- The way along the run at every sample. -/
def unroll (RL : ℚ) : List StreamSample → List StreamSample
  | [] => []
  | first :: rest =>
      let first := { first with U := first.s }
      first :: unrollFrom RL first rest

/-- The bisection of `lowerBound`. -/
def lowerSearch (ST : List StreamSample) (t : ℚ) (lo hi : ℕ) : ℕ :=
  if lo < hi then
    let m := (lo + hi) / 2
    match ST[m]? with
    | some s => if s.t < t then lowerSearch ST t (m + 1) hi else lowerSearch ST t lo m
    | none => lo
  else lo
termination_by hi - lo
decreasing_by all_goals omega

/-- `lowerBound`. -/
def lowerBound (ST : List StreamSample) (t : ℚ) : ℕ := lowerSearch ST t 0 ST.length

/-- `mix`. -/
def mix (a b : StreamSample) (f t : ℚ) : StreamSample :=
  let channel (key : StreamSample → ℚ) : ℚ := key a + (key b - key a) * f
  { t := t
    x := channel StreamSample.x
    y := channel StreamSample.y
    spd := channel StreamSample.spd
    dev := channel StreamSample.dev
    s := a.s
    v := fun k => channel fun s => s.v k
    cells := if a.cells.length = b.cells.length then List.zipWith (fun c d => c + (d - c) * f) a.cells b.cells else a.cells
    U := channel StreamSample.U }

/-! ## A lap -/

/-- The sample at a time between two. -/
def mixAt (a b : StreamSample) (t : ℚ) : StreamSample := mix a b ((t - a.t) / (b.t - a.t)) t

/-- The interpolated sample before an index. -/
def mixBefore (ST : List StreamSample) (i : ℕ) (t : ℚ) : List StreamSample :=
  match ST[i - 1]?, ST[i]? with
  | some a, some b => [mixAt a b t]
  | _, _ => []

/-- `sm`: the samples of a lap, with one on its start and one on its end. -/
def lapSamples (ST : List StreamSample) (t0 t1 : ℚ) : List StreamSample :=
  let i0 := lowerBound ST t0
  let i1 := lowerBound ST t1
  let start := if 0 < i0 ∧ i0 < ST.length ∧ (ST[i0]?.any fun s => decide (t0 < s.t)) then mixBefore ST i0 t0 else []
  let sm := start ++ (ST.drop i0).take (i1 - i0)
  if i1 < ST.length ∧ i0 < i1 ∧ (sm.getLast?.any fun s => decide (s.t < t1)) then sm ++ mixBefore ST i1 t1 else sm

/-- The positions of a lap: they never go back. -/
def lapPositions (first : StreamSample) (previous : ℚ) (v0 : ℚ) : List StreamSample → List ℚ
  | [] => []
  | s :: rest =>
      let u := max previous (v0 + (s.U - first.U))
      u :: lapPositions first u v0 rest

/-- A sample as a point of a lap. -/
def lapPoint (RL t0 : ℚ) (s : StreamSample) (u : ℚ) : Point :=
  { t := roundTo (s.t - t0) 0
    u := roundTo u 1
    v := s.v
    cells := s.cells
    x := roundTo s.x 2
    y := roundTo s.y 2
    spd := roundTo s.spd 2
    s := roundTo (wrap s.U RL) 1
    dev := roundTo s.dev 2 }

/-- `mkLap`. -/
def mkLap (RL : ℚ) (ST : List StreamSample) (src : RawLap) : Option RawLap :=
  let sm := lapSamples ST src.t0 src.t1
  match sm with
  | [] => none
  | first :: rest =>
      if sm.length < 4 then none
      else
        let tt := sm.map fun s => s.t - src.t0
        let q0 := wrap first.U RL
        let v0 := if RL / 2 < q0 then q0 - RL else q0
        let u := v0 :: lapPositions first v0 v0 rest
        let dist := ((sm.zip sm.tail).map fun (a, b) => hypot (b.x - a.x) (b.y - a.y)).sum
        some
          { src with
            points := List.zipWith (lapPoint RL src.t0) sm u
            sec := sectorTimes u tt src.dur src.kind (RL / 3) (2 * RL / 3)
            dist := dist
            vmax := (sm.map StreamSample.spd).foldl max 0
            vavg := if 0 < src.dur then dist / (src.dur / 1000) else 0
            dev := (sm.map StreamSample.dev).sum / sm.length }

/-! ## The run -/

/-- `rank`. -/
def LapKind.rank : LapKind → ℕ
  | .out => 0
  | .unfinished => 1
  | .lap => 2
  | .theo => 3

/-- The laps in the order of their starts. -/
def byStart (laps : List RawLap) : List RawLap := laps.mergeSort fun a b => decide (a.t0 ≤ b.t0)

/-- The stream of a run, with the way along it. -/
def RunData.stream (D0 : RunData) : List StreamSample := unroll D0.RL (DriveDay.stream (byStart D0.laps))

/-- The laps that are long enough. -/
def RunData.kept (D0 : RunData) : List RawLap := (byStart D0.laps).filterMap (mkLap hypot D0.RL D0.stream)

/-- `rebuildRun`. -/
def rebuildRun (D0 : RunData) : RunData :=
  if D0.laps = [] ∨ D0.isOpen then D0
  else if D0.stream.length < 8 then D0
  else
    let timed := (D0.kept hypot).filter fun l => l.kind = .lap
    let others := (D0.kept hypot).filter fun l => l.kind ≠ .lap
    if timed = [] then D0
    else { D0 with laps := timed ++ others.mergeSort fun a b => decide (a.kind.rank ≤ b.kind.rank) }

end Lhre.DriveDay
