import Lhre.DriveDay.Laps

/-!
# `DriveDay.Sectors` — sector times, best sectors and the stitched lap

`viewer_tool/src/lib/driveday`: `validGates` and `sectorTimes` of `sectors.ts`, `Session.setGates` of `session.ts`, and of
`analysis.ts` the best sectors of `recompute` and `theoLap`, before `prepareLap` adds its drawing channels. A value that is
`NaN` is `none`; which laps count, `valid`, is a parameter.

## Contents
- **Sector times.** `cross`, `sectorTimes`, `setGates`.
- **Bests.** `best`, `bestLap`, `theo`, `fastest`.
- **The stitched lap.** `timeAverage`, `pieceTimes`, `piece`, `theoLap`.
-/

namespace Lhre.DriveDay

/-- The times of a lap. -/
def RawLap.times (l : RawLap) : List ℚ := l.points.map Point.t

/-- The course positions of a lap. -/
def RawLap.positions (l : RawLap) : List ℚ := l.points.map Point.u

/-! ## Sector times -/

/-- `validGates`. -/
def validGates (g0 g1 length : ℚ) : Bool := decide (0 < g0) && decide (g0 < g1) && decide (g1 < length)

/-- `cross`: where the position first goes up through a gate. -/
def cross (u t : List ℚ) (gate : ℚ) : Option ℚ :=
  ((List.range (u.length - 1)).find? fun i =>
      decide (u.getD i 0 ≤ gate) && decide (gate ≤ u.getD (i + 1) 0) && decide (u.getD i 0 < u.getD (i + 1) 0)).map fun i =>
    t.getD i 0 + (t.getD (i + 1) 0 - t.getD i 0) * (gate - u.getD i 0) / (u.getD (i + 1) 0 - u.getD i 0)

/-- `sectorTimes`. -/
def sectorTimes (u t : List ℚ) (dur : ℚ) (kind : LapKind) (g0 g1 : ℚ) : Fin 3 → Option ℚ :=
  let a := cross u t g0
  let b := cross u t g1
  ![a, a.bind fun a => b.map fun b => b - a, b.bind fun b => if kind ≠ .unfinished then some (dur - b) else none]

/-- `setGates` on a lap. -/
def RawLap.withGates (g0 g1 : ℚ) (l : RawLap) : RawLap :=
  { l with sec := sectorTimes l.positions l.times l.dur l.kind g0 g1 }

/-- `setGates`: the sector times of every lap, where the gates are valid. -/
def setGates (g0 g1 RL : ℚ) (laps : List RawLap) : List RawLap :=
  if validGates g0 g1 RL then laps.map (RawLap.withGates g0 g1) else laps

/-! ## Bests -/

variable (valid : RawLap → Bool)

/-- The laps that count: `runs.filter(valid)`. -/
def pool (laps : List RawLap) : List RawLap := (laps.filter fun l => l.kind = .lap).filter valid

/-- `best` of a sector. -/
def best (vr : List RawLap) (k : Fin 3) : Option ℚ := (vr.filterMap fun l => l.sec k).min?

/-- `bestLap`. -/
def bestLap (vr : List RawLap) : Option ℚ := (vr.map RawLap.dur).min?

/-- `theo`. -/
def theo (vr : List RawLap) : Option ℚ := (best vr 0).bind fun a => (best vr 1).bind fun b => (best vr 2).map fun c => a + b + c

/-- The reduction of `theoLap`: the first lap with the least time of a sector, among those that have it. -/
def fastest (vr : List RawLap) (k : Fin 3) : Option RawLap :=
  match vr.filter fun l => (l.sec k).isSome with
  | [] => none
  | first :: rest => some (rest.foldl (fun a l => if (l.sec k).getD 0 < (a.sec k).getD 0 then l else a) first)

/-! ## The stitched lap -/

/-- `timeAverage`: the average of the line through the values over a window around each time. -/
def timeAverage (times values : List ℚ) (halfWindowMs : ℚ) : List ℚ :=
  if times.length < 2 then values
  else
    let at' (l : List ℚ) (i : ℕ) : ℚ := l.getD i 0
    let area := ((List.range (times.length - 1)).map fun i =>
      (at' times (i + 1) - at' times i) * (at' values i + at' values (i + 1)) / 2).scanl (· + ·) 0
    let integral (t : ℚ) : ℚ :=
      let (lo, hi) := interpSearch times t 0 (times.length - 1)
      let dt := at' times hi - at' times lo
      let elapsed := t - at' times lo
      at' area lo + at' values lo * elapsed +
        if 0 < dt then (at' values hi - at' values lo) * elapsed ^ 2 / (2 * dt) else 0
    times.mapIdx fun i t =>
      let a := max (at' times 0) (t - halfWindowMs)
      let b := min (at' times (times.length - 1)) (t + halfWindowMs)
      if a < b then (integral b - integral a) / (b - a) else at' values i

/-- `MPH`. -/
def MPH : ℚ := 223694 / 100000

/-- `ch.spd` of `prepareLap`. -/
def RawLap.spd (l : RawLap) : List ℚ := (timeAverage l.times (l.points.map Point.spd) 250).map (· * MPH)

/-- The times of a piece: its ends, and the fixes more than a millisecond inside. -/
def pieceTimes (l : RawLap) (tA tB : ℚ) : List ℚ :=
  tA :: (l.times.filter fun t => decide (tA + 1 < t) && decide (t < tB - 1)) ++ [tB]

/-- One point of the stitched lap. -/
def stitchPoint (RL : ℚ) (l : RawLap) (from_ to_ off tA tt : ℚ) : Point :=
  let channel (f : Point → ℚ) : ℚ := interp l.times (l.points.map f) tt
  let uu := max from_ (min to_ (interp l.times l.positions tt))
  { t := off + (tt - tA)
    u := uu
    v := fun key => channel fun p => p.v key
    cells := []
    x := channel Point.x
    y := channel Point.y
    spd := interp l.times l.spd tt / MPH
    s := jsMod uu RL
    dev := 0 }

/-- The piece of a sector: a lap from one gate to the next, and how long it takes. -/
def piece (RL g0 g1 : ℚ) (k : Fin 3) (l : RawLap) (off : ℚ) : List Point × ℚ :=
  let g : Fin 4 → ℚ := ![0, g0, g1, RL]
  let tA := if k = 0 then 0 else interp l.positions l.times (g k.castSucc)
  let tB := if k = 2 then l.dur else interp l.positions l.times (g k.succ)
  -- the first point of a later piece is the last one of the piece before
  let times := if k = 0 then pieceTimes l tA tB else (pieceTimes l tA tB).tail
  (times.map (stitchPoint RL l (g k.castSucc) (g k.succ) off tA), off + (tB - tA))

/-- `theoLap`. -/
def theoLap (RL g0 g1 : ℚ) (laps : List RawLap) : Option RawLap :=
  let vr := pool valid laps
  if vr.length < 2 then none
  else
    match theo vr, fastest vr 0, fastest vr 1, fastest vr 2 with
    | some _, some a, some b, some c =>
        let (first, off) := piece RL g0 g1 0 a 0
        let (second, off) := piece RL g0 g1 1 b off
        let (third, _) := piece RL g0 g1 2 c off
        let points := first ++ second ++ third
        let dur := (points.map Point.t).getLastD 0
        some
          { points := points, name := "Best sectors", kind := .theo, t0 := 0, t1 := dur, dur := dur
            sec := ![a.sec 0, b.sec 1, c.sec 2]
            dist := RL
            vmax := (points.map Point.spd).max?.getD 0
            vavg := RL / (dur / 1000)
            dev := 0, wh := none, whOut := none, whIn := none }
    | _, _, _, _ => none

end Lhre.DriveDay
