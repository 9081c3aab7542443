import Mathlib.Tactic
import Lhre.Theory.Dict

/-!
# `DriveDay.Convert` — from a session export to the runs the viewer draws

A session export is a list of laps and of samples. `convertSession` keeps the laps with a usable route, sorts them into
courses, and makes a run of each course. Numbers are exact; `Runtime` holds the functions of the runtime, and the track
a course is matched to, or that is made of it, is a parameter.

## Contents
- **Geometry.** `Runtime`, `frame`, `segDist`, `nearOn`.
- **The export.** `LiveSample`, `SessionExport`, `mergeSamples`, `interpolate`.
- **Lap selection.** `timedLaps`, `usableRoute`.
- **Courses.** `Leg`, `legOf`, `planCourses`.
- **Runs.** `buildSpan`, `convertLap`, `convertCourse`.
- **The conversion.** `convertSession`.
-/

namespace Lhre.DriveDay.Convert

/-! ## Geometry -/

abbrev XY := ℚ × ℚ

/-- The functions of the runtime: of `Math`, of strings, and the texts of numbers. -/
structure Runtime where
  hypot : ℚ → ℚ → ℚ
  sqrt : ℚ → ℚ
  cos : ℚ → ℚ
  pi : ℚ
  trim : String → String
  /-- `toFixed(1)`, and the text of a number. -/
  fixed1 : ℚ → String
  text : ℚ → String

variable (rt : Runtime)

structure Frame where
  lat0 : ℚ
  lon0 : ℚ
  KY : ℚ
  KX : ℚ

def frame (lat0 lon0 : ℚ) : Frame :=
  let KY := 6378137 * rt.pi / 180
  { lat0 := lat0, lon0 := lon0, KY := KY, KX := KY * rt.cos (lat0 * rt.pi / 180) }

/-- A sample with a position. -/
structure Fix where
  t : ℚ
  lat : ℚ
  lon : ℚ
deriving Repr, DecidableEq

def projWith (f : Frame) (s : Fix) : XY := ((s.lon - f.lon0) * f.KX, (s.lat - f.lat0) * f.KY)

def dist2d (a b : XY) : ℚ := rt.hypot (a.1 - b.1) (a.2 - b.2)

def dirOf (a b : XY) : XY :=
  let d := if dist2d rt a b = 0 then 1 else dist2d rt a b
  ((b.1 - a.1) / d, (b.2 - a.2) / d)

/-- Each point with the one before it. -/
def steps {α : Type*} (l : List α) : List (α × α) := l.zip l.tail

/-- `+1` counter-clockwise, `-1` clockwise. -/
def turnSign (P : List XY) : ℤ :=
  if 0 ≤ ((steps P).map fun (a, b) => a.1 * b.2 - b.1 * a.2).sum then 1 else -1

/-- Where the foot of a point falls on a segment, from 0 to 1. -/
def footOn (a b p : XY) : ℚ :=
  let dx := b.1 - a.1
  let dy := b.2 - a.2
  let l2 := dx * dx + dy * dy
  if l2 = 0 then 0 else max 0 (min 1 (((p.1 - a.1) * dx + (p.2 - a.2) * dy) / l2))

def segDist (a b p : XY) : ℚ :=
  let t := footOn a b p
  rt.hypot (p.1 - a.1 - t * (b.1 - a.1)) (p.2 - a.2 - t * (b.2 - a.2))

/-- The arc length of the nearest point of a line. -/
def nearOn (poly : List XY) (cum : List ℚ) (p : XY) : ℚ :=
  (((steps poly).zip cum).foldl
    (fun (best : ℚ × ℚ) ((a, b), c) =>
      let d := segDist rt a b p
      let l2 := (b.1 - a.1) * (b.1 - a.1) + (b.2 - a.2) * (b.2 - a.2)
      if d < best.1 then (d, c + footOn a b p * rt.sqrt l2) else best)
    (1000000000, 0)).2

/-- The length of a line. -/
def lengthOf (P : List XY) : ℚ := ((steps P).map fun (a, b) => dist2d rt b a).sum

/-! ## The export -/

/-- A sample: its time and position, where they are finite numbers. -/
structure LiveSample where
  t : Option ℚ
  lat : Option ℚ
  lon : Option ℚ
deriving Repr, DecidableEq

/-- A lap: its times, where they are numbers, its label, and its samples. -/
structure LiveLap where
  startMs : Option ℚ
  endMs : Option ℚ
  durationMs : ℚ
  label : String := ""
  samples : List LiveSample := []
deriving Repr, DecidableEq

structure SessionExport where
  laps : List LiveLap
  currentLap : List LiveSample := []
  sampleTail : List LiveSample := []

/-- `hasGps`. -/
def hasGps (s : LiveSample) : Bool :=
  match s.lat, s.lon with
  | some lat, some lon => decide (|lat| ≤ 90) && decide (|lon| ≤ 180) && (decide (lat ≠ 0) || decide (lon ≠ 0))
  | _, _ => false

/-- A sample of the merged session: its time is a number. -/
def fixAt (t : ℚ) (s : LiveSample) : Option Fix :=
  match hasGps s, s.lat, s.lon with
  | true, some lat, some lon => some { t := t, lat := lat, lon := lon }
  | _, _, _ => none

/-- The samples of a session by their time; a position is kept where a later sample of the same time has none. -/
def mergeSamples (J : SessionExport) : List (ℚ × LiveSample) :=
  let all := J.laps.flatMap LiveLap.samples ++ J.currentLap ++ J.sampleTail
  let byTime : Dict ℚ LiveSample := all.foldl (fun (d : Dict ℚ LiveSample) s =>
    match s.t with
    | none => d
    | some t =>
        match Dict.get? d t with
        | none => Dict.set t s d
        | some old =>
            Dict.set t
              { s with lat := if hasGps s then s.lat else old.lat, lon := if hasGps s then s.lon else old.lon } d) []
  byTime.insertionSort fun a b => a.1 ≤ b.1

/-- Advance to the fix before a time. -/
def advance (fixes : List Fix) (t : ℚ) : ℕ → ℕ → ℕ
  | 0, i => i
  | fuel + 1, i =>
      match fixes[i + 1]? with
      | some next => if i + 2 < fixes.length ∧ next.t < t then advance fixes t fuel (i + 1) else i
      | none => i

/-- Positions between two fixes that are at most three seconds apart. -/
def interpolate (fixes : List Fix) (st : List (ℚ × LiveSample)) : List (ℚ × LiveSample) :=
  let outside (t : ℚ) : Bool :=
    match fixes.head?, fixes.getLast? with
    | some first, some last => decide (t < first.t) || decide (last.t < t)
    | _, _ => true
  (st.foldl
    (fun (acc : List (ℚ × LiveSample) × ℕ) (t, s) =>
      if hasGps s || outside t then (acc.1 ++ [(t, s)], acc.2)
      else
        let i := advance fixes t fixes.length acc.2
        match fixes[i]?, fixes[i + 1]? with
        | some a, some b =>
            if 3000 < b.t - a.t then (acc.1 ++ [(t, s)], i)
            else
              let f := (t - a.t) / (b.t - a.t)
              let s := { s with lat := some (a.lat + f * (b.lat - a.lat)), lon := some (a.lon + f * (b.lon - a.lon)) }
              (acc.1 ++ [(t, s)], i)
        | _, _ => (acc.1 ++ [(t, s)], i))
    ([], 0)).1

def fixesOf (st : List (ℚ × LiveSample)) : List Fix := st.filterMap fun (t, s) => fixAt t s

/-! ## Lap selection -/

/-- A lap of the export with numeric times, and its place in it. -/
structure Timed where
  i : ℕ
  startMs : ℚ
  endMs : ℚ
  durationMs : ℚ
  label : String
deriving Repr, DecidableEq

def timedLap (l : LiveLap) (i : ℕ) : Option Timed :=
  match l.startMs, l.endMs with
  | some startMs, some endMs =>
      if startMs < endMs then
        some { i := i, startMs := startMs, endMs := endMs, durationMs := l.durationMs, label := l.label }
      else none
  | _, _ => none

/-- The timed laps by their start. -/
def timedLaps (J : SessionExport) : List Timed :=
  (J.laps.zipIdx.filterMap fun (l, i) => timedLap l i).insertionSort fun a b => a.startMs ≤ b.startMs

/-- `slice`, of the samples with a position. -/
def slice (fixes : List Fix) (t0 t1 : ℚ) : List Fix := fixes.filter fun s => decide (t0 ≤ s.t) && decide (s.t ≤ t1)

/-- How far a list of numbers spreads. -/
def spread : List ℚ → ℚ
  | [] => 0
  | x :: xs => xs.foldl max x - xs.foldl min x

/-- `Prepared`: a timed lap and its samples. -/
structure Prepared where
  o : Timed
  sm : List Fix
deriving Repr, DecidableEq

/-- The route of a lap can be drawn: enough recorded fixes that move, cover the lap and leave no long gap. -/
def usableRoute (fixes : List Fix) (x : Prepared) : Bool :=
  let recorded := slice fixes x.o.startMs x.o.endMs
  if x.sm.length < 12 then false
  else if recorded.length < 12 then false
  else
    match recorded.head?, recorded.getLast? with
    | some first, some last =>
        let P := recorded.map (projWith (frame rt first.lat first.lon))
        let extent := rt.hypot (spread (P.map Prod.fst)) (spread (P.map Prod.snd))
        let duration := x.o.endMs - x.o.startMs
        let coverage := last.t - first.t
        let maxGap := (steps recorded).foldl (fun gap (a, b) => max gap (b.t - a.t)) 0
        decide (10 ≤ extent) && decide (duration * (8 / 10) ≤ coverage) &&
          decide (maxGap ≤ max 3000 (duration * (1 / 10)))
    | _, _ => false

/-! ## Courses -/

structure Leg where
  x : Prepared
  P : List XY
  len : ℚ
  start : XY
  finish : XY
  speed : ℚ
  loop : Bool
  returning : Bool
deriving DecidableEq

structure Course where
  legs : List Leg
  isOpen : Bool
  label : String

/-- A lap as a line on the ground. -/
def legOf (pr : Fix → XY) (x : Prepared) : Leg :=
  let P := x.sm.map pr
  let len := lengthOf rt P
  let start := P.headD (0, 0)
  let finish := P.getLastD (0, 0)
  let gap := dist2d rt start finish
  let sec := max 1 (x.o.durationMs / 1000)
  let n := P.length
  let before := P.getD (n - 5) (0, 0)
  let passed := ((steps P).zipIdx.any fun ((a, b), k) =>
    decide ((6 : ℚ) / 10 * n < (k + 1 : ℕ)) && decide (segDist rt a b start < 6))
  let returning := decide (gap < dist2d rt before start) || passed
  { x := x, P := P, len := len, start := start, finish := finish, speed := len / sec, returning := returning,
    loop := decide (gap < 15) || (decide (gap < 8 / 100 * len) && returning) }

/-- The upper quartile. -/
def upper (v : List ℚ) : ℚ := (v.insertionSort (· ≤ ·)).getD (3 * (v.length - 1) / 4) 0

/-- A leg that is long and fast enough to be a run. -/
def runLike (legs : List Leg) (l : Leg) : Bool :=
  decide (6 / 10 * upper (legs.map Leg.len) ≤ l.len) && decide (4 / 10 * upper (legs.map Leg.speed) ≤ l.speed)

/-- A point in the middle of a leg. -/
def passes (leg : Leg) (point : XY) : Bool :=
  let margin := min 20 (max 8 (leg.len * (5 / 100)))
  ((steps leg.P).foldl
    (fun (st : Bool × ℚ) (a, b) =>
      let length := rt.hypot (b.1 - a.1) (b.2 - a.2)
      let f := if length = 0 then 0 else
        max 0 (min 1 (((point.1 - a.1) * (b.1 - a.1) + (point.2 - a.2) * (b.2 - a.2)) / (length * length)))
      let along := st.2 + f * length
      (st.1 || (decide (margin < along) && decide (along < leg.len - margin) &&
        decide (rt.hypot (point.1 - a.1 - f * (b.1 - a.1)) (point.2 - a.2 - f * (b.2 - a.2)) < 3)), st.2 + length))
    (false, 0)).1

/-- A returning run is a loop where another comparable run passes its start or finish. -/
def closeLoops (runs : List Leg) : List Leg :=
  runs.zipIdx.map fun (leg, i) =>
    { leg with
      loop := leg.loop || (leg.returning && runs.zipIdx.any fun (other, j) =>
        decide (j ≠ i) && decide (leg.len * (75 / 100) < other.len) && decide (other.len < leg.len * (135 / 100)) &&
          (passes rt other leg.start || passes rt other leg.finish)) }

/-- Two runs on one course. -/
def sameCourse (isOpen : Bool) (a b : Leg) : Bool :=
  if isOpen then
    let R := max 25 (1 / 10 * max a.len b.len)
    let da := dirOf rt a.start a.finish
    let db := dirOf rt b.start b.finish
    decide (dist2d rt a.start b.start < R) && decide (dist2d rt a.finish b.finish < R) &&
      decide (1 / 2 < da.1 * db.1 + da.2 * db.2)
  else decide (turnSign a.P = turnSign b.P)

/-- Put a run into the first group whose first run is on the same course, or into a new one. -/
def insertRun (same : Leg → Leg → Bool) : List (List Leg) → Leg → List (List Leg)
  | [], l => [[l]]
  | g :: groups, l =>
      if (g.head?.map fun first => same first l).getD false then (g ++ [l]) :: groups
      else g :: insertRun same groups l

/-- The course that a later one is driven the other way round of. -/
def reverseOf (isOpen : Bool) (groups : List (List Leg)) (g : List Leg) (k : ℕ) : Option ℕ :=
  (groups.take k).findIdx? fun earlier =>
    match earlier.head?, g.head? with
    | some a, some b =>
        if isOpen then
          let R := max 25 (1 / 10 * max a.len b.len)
          decide (dist2d rt a.start b.finish < R) && decide (dist2d rt a.finish b.start < R)
        else decide (turnSign a.P ≠ turnSign b.P)
    | _, _ => false

def courseLabel (isOpen : Bool) (groups : List (List Leg)) (g : List Leg) (k : ℕ) : String :=
  if groups.length = 1 then ""
  else
    match reverseOf rt isOpen groups g k with
    | some j => s!"Course {k + 1} (reverse of {j + 1})"
    | none => s!"Course {k + 1}"

/-- `planCourses`: the courses, and the legs that are no runs. -/
def planCourses (prep : List Prepared) (pr : Fix → XY) : List Course × List Leg :=
  let legs := prep.map (legOf rt pr)
  let runs := if legs.any (runLike legs) then legs.filter (runLike legs) else legs
  let left := if legs.any (runLike legs) then legs.filter fun l => !runLike legs l else []
  let runs := closeLoops rt runs
  let isOpen := decide (2 * (runs.filter Leg.loop).length < runs.length)
  let groups := runs.foldl (insertRun (sameCourse rt isOpen)) []
  (groups.zipIdx.map fun (g, k) => { legs := g, isOpen := isOpen, label := courseLabel rt isOpen groups g k }, left)

/-! ## Runs -/

/-- What is returned to the user with the runs. -/
inductive Warning
  | unavailable (laps : List Timed)
  | courses (courses : List (String × List Timed))
  | leftOut (laps : List Timed)
  | fewFixes (lap : Timed) (count : ℕ)
  | missedPress (lap : Timed) (circuits : ℚ) (noun : String) (dur : ℚ)
  | partly (lap : Timed) (share : ℚ) (noun : String)
  | oddStart (names : List String)
  | skippedCourse (label : String) (noun : String)
deriving Repr, DecidableEq

def lapNo (o : Timed) : String := s!"Lap {o.i + 1}"

/-- The texts. -/
def Warning.text : Warning → String
  | .unavailable laps =>
      String.intercalate ", " (laps.map fun o => if o.label = "" then lapNo o else o.label) ++
        " have missing, frozen/stationary or incomplete GPS coverage and were not mapped. Their logged times are " ++
        "unchanged in the original export."
  | .courses planned =>
      s!"{planned.length} courses in this session: " ++
        String.intercalate "; " (planned.map fun c =>
          (if c.1 = "" then "Course" else c.1) ++ " (" ++ String.intercalate ", " (c.2.map lapNo) ++ ")") ++
        ". Each is opened as its own run, because laps on different start and finish lines are not comparable."
  | .leftOut laps =>
      String.intercalate ", " (laps.map lapNo) ++ (if laps.length = 1 then " is" else " are") ++
        " too short or slow to be a timed run (a drive back or a reposition), so " ++
        (if laps.length = 1 then "it was" else "they were") ++ " left out."
  | .fewFixes lap count => lapNo lap ++ s!" skipped: only {count} GPS fixes"
  | .missedPress lap circuits noun dur =>
      lapNo lap ++ " skipped: it covers " ++ rt.fixed1 circuits ++ " " ++ noun ++ "s of the track (" ++
        rt.text (dur / 1000) ++ " s), probably a missed lap press"
  | .partly lap share noun =>
      lapNo lap ++ s!" only covers {⌊share * 100 + 1 / 2⌋}% of the {noun}, check its GPS"
  | .oddStart names =>
      String.intercalate ", " names ++
        ": did not pass both initial sector gates; missing sector times are unavailable"
  | .skippedCourse label noun =>
      (if label = "" then "A course" else label) ++ s!" was left out: none of its laps was a clean single {noun}."

/-- The track of a course: its frame, its line with the arc lengths, its length, and its gates. -/
structure Track where
  lat0 : ℚ
  lon0 : ℚ
  ref : List XY
  cum : List ℚ
  RL : ℚ
  gates : List ℚ := [1 / 3, 2 / 3]

inductive LapKind
  | lap
  | out
  | part
deriving Repr, DecidableEq

structure RawLap where
  name : String
  kind : LapKind
  t0 : ℚ
  t1 : ℚ
  vavg : ℚ
deriving Repr, DecidableEq

structure Run where
  laps : List RawLap
  warnings : List Warning
  label : String
deriving Repr, DecidableEq

/-- `Math.round`. -/
def mathRound (x : ℚ) : ℤ := ⌊x + 1 / 2⌋

/-- The progress along the track: it never goes back, and on a loop it counts on from lap to lap. -/
def progress (isOpen : Bool) (RL : ℚ) : Option ℚ → List ℚ → List ℚ
  | _, [] => []
  | prev, q :: qs =>
      let u :=
        match prev with
        | none => if isOpen then q else if RL / 2 < q then q - RL else q
        | some p => if isOpen then max p q else max p (q + RL * mathRound ((p - q) / RL))
      u :: progress isOpen RL (some u) qs

/-- What `build` makes of a stretch of samples: the lap, how far it goes, and whether it passed the first two gates. -/
structure Built where
  lap : RawLap
  span : ℚ
  gated : Bool

/-- `build`. -/
def build (tk : Track) (isOpen : Bool) (samples : List Fix) (name : String) (kind : LapKind) (t0 t1 : ℚ) : Built :=
  let P := samples.map (projWith (frame rt tk.lat0 tk.lon0))
  let u := progress isOpen tk.RL none (P.map (nearOn rt tk.ref tk.cum))
  let crosses (g : ℚ) : Bool := (steps u).any fun (a, b) => decide (a < g * tk.RL) && decide (g * tk.RL ≤ b)
  let dur := t1 - t0
  { lap :=
      { name := name, kind := kind, t0 := t0, t1 := t1,
        vavg := if 0 < dur then lengthOf rt P / (dur / 1000) else 0 }
    span := u.getLastD 0 - u.headD 0
    gated := crosses (tk.gates.getD 0 0) && crosses (tk.gates.getD 1 0) }

/-- `noun`. -/
def noun (isOpen : Bool) : String := if isOpen then "course" else "circuit"

/-- What the loop over the laps of a course has collected: its laps, its warnings, and the laps off the gates. -/
structure Laps where
  laps : List RawLap := []
  cw : List Warning := []
  oddStart : List String := []

/-- One lap of a course. -/
def convertLap (tk : Track) (isOpen : Bool) (fixes : List Fix) (acc : Laps) (o : Timed) : Laps :=
  let sm := slice fixes o.startMs o.endMs
  let label := if rt.trim o.label = "" then lapNo o else rt.trim o.label
  if sm.length < 4 then { acc with cw := acc.cw ++ [.fewFixes o sm.length] }
  else
    let L := build rt tk isOpen sm label .lap o.startMs o.endMs
    let oddStart := if L.gated then acc.oddStart else acc.oddStart ++ [label]
    if 3 / 2 * tk.RL < L.span then
      { acc with
        cw := acc.cw ++ [.missedPress o (L.span / tk.RL) (noun isOpen) (o.endMs - o.startMs)]
        oddStart := oddStart }
    else
      { laps := acc.laps ++ [L.lap]
        cw := if L.span < 6 / 10 * tk.RL then acc.cw ++ [.partly o (L.span / tk.RL) (noun isOpen)] else acc.cw
        oddStart := oddStart }

/-- `spdAt`. -/
def spdAt (tk : Track) (arr : List Fix) (k : ℕ) : ℚ :=
  match arr[k - 1]?, (arr[k + 1]?).or arr.getLast? with
  | some a, some b =>
      let pa := projWith (frame rt tk.lat0 tk.lon0) a
      let pb := projWith (frame rt tk.lat0 tk.lon0) b
      let dt := (b.t - a.t) / 1000
      if 0 < dt then rt.hypot (pb.1 - pa.1) (pb.2 - pa.2) / dt else 0
  | _, _ => 0

/-- Where the last stretch of driving before a time begins. -/
def stretchStart (tk : Track) (t0 : ℚ) (ps : List Fix) : ℕ → ℕ
  | 0 => 0
  | k + 1 =>
      match ps[k + 1]?, ps[k]? with
      | some b, some a =>
          if 3 ≤ spdAt rt tk ps k ∧ b.t - a.t < 8000 ∧ t0 - a.t < 180000 then stretchStart tk t0 ps k else k + 1
      | _, _ => k + 1

/-- Drop the end of a tail that stands still. -/
def dropStanding (tk : Track) (tail : List Fix) : ℕ → List Fix
  | 0 => tail
  | fuel + 1 =>
      if tail ≠ [] ∧ spdAt rt tk tail (tail.length - 1) < 1 then dropStanding tk tail.dropLast fuel else tail

/-- The out lap of a loop, before its first lap. -/
def outLap (tk : Track) (fixes : List Fix) (first : RawLap) : List RawLap :=
  let ps := fixes.filter fun s => decide (s.t ≤ first.t0)
  let out := ps.drop (stretchStart rt tk first.t0 ps (ps.length - 1))
  if out.length < 8 then []
  else
    let L := build rt tk false out "Out lap" .out ((out.head?.map Fix.t).getD 0) first.t0
    if L.span ≤ 3 / 2 * tk.RL then [L.lap] else []

/-- The lap in progress after the last press, unless it is the drive back. -/
def tailLap (tk : Track) (fixes : List Fix) (last : Timed) (laps : List RawLap) : List RawLap :=
  let ps := fixes.filter fun s => decide (last.endMs ≤ s.t)
  let tail := dropStanding rt tk ps ps.length
  if tail.length < 8 then []
  else
    let L := build rt tk false tail "In progress" .part ((tail.head?.map Fix.t).getD 0)
      ((tail.getLast?.map Fix.t).getD 0)
    let fastest := ((laps.filter fun l => l.kind = .lap).map RawLap.vavg).foldl max 0
    if 4 / 10 * fastest ≤ L.lap.vavg then [L.lap] else []

/-- A course as a run; without a clean lap it is skipped. -/
def convertCourse (tk : Track) (fixes : List Fix) (firstT lastT : ℚ) (course : Course) : Option Run :=
  let group := course.legs.map fun l => l.x.o
  let acc := group.foldl (convertLap rt tk course.isOpen fixes) {}
  match acc.laps with
  | [] => none
  | first :: _ =>
      let cw := if acc.oddStart = [] then acc.cw else acc.cw ++ [.oddStart acc.oddStart]
      let out :=
        if course.isOpen || (group.head?.map Timed.startMs) ≠ some firstT then [] else outLap rt tk fixes first
      let tail :=
        match group.getLast? with
        | some last =>
            if course.isOpen || decide (last.endMs ≠ lastT) then [] else tailLap rt tk fixes last (acc.laps ++ out)
        | none => []
      some { laps := acc.laps ++ out ++ tail, warnings := cw, label := course.label }

/-! ## The conversion -/

/-- Put warnings before those of the first run. -/
def unshift (warnings : List Warning) : List Run → List Run
  | [] => []
  | r :: out => { r with warnings := warnings ++ r.warnings } :: out

/-- The warnings about the session as a whole. -/
def sessionWarnings (unavailable : List Prepared) (courses : List Course) (left : List Leg) : List Warning :=
  (if unavailable = [] then [] else [.unavailable (unavailable.map Prepared.o)]) ++
  (if courses.length ≤ 1 then [] else [.courses (courses.map fun c => (c.label, c.legs.map fun l => l.x.o))]) ++
  (if left = [] then [] else [.leftOut (left.map fun l => l.x.o)])

/-- `planCourses` on the ground around the usable laps. -/
def planSession (usable : List Prepared) : List Course × List Leg :=
  let all := usable.flatMap Prepared.sm
  let lat0 := (all.map Fix.lat).sum / all.length
  let lon0 := (all.map Fix.lon).sum / all.length
  planCourses rt usable (projWith (frame rt lat0 lon0))

/-- The runs and the skipped courses. The session fails only when no course has a clean lap. -/
def assemble (warn : List Warning) (runs : List (Course × Option Run)) : Except String (List Run) :=
  let skipped := (runs.filter fun r => r.2.isNone).map fun r => Warning.skippedCourse r.1.label (noun r.1.isOpen)
  match runs.filterMap Prod.snd with
  | [] =>
      .error ("No timed lap was a clean single " ++ noun ((runs.getLast?.map fun r => r.1.isOpen).getD false) ++
        " of the track.")
  | out => .ok (unshift (warn ++ skipped) out)

/-- `convertSession`, with the track of each course. -/
def convertSession (trackOf : ℕ → Course → Track) (J : SessionExport) : Except String (List Run) :=
  let st := mergeSamples J
  let fixes := fixesOf st
  if fixes.length < 30 then
    .error (s!"This session has no usable GPS fixes ({fixes.length} of {st.length} samples), so there is no track " ++
      "to draw.")
  else
    let positions := fixesOf (interpolate fixes st)
    let timed := timedLaps J
    match timed.head?, timed.getLast? with
    | some firstLap, some lastLap =>
        let lapSamples : List Prepared := timed.map fun o => { o := o, sm := slice positions o.startMs o.endMs }
        let usable := lapSamples.filter (usableRoute rt fixes)
        let unavailable := lapSamples.filter fun x => !usableRoute rt fixes x
        if usable = [] then
          .error ("No timed lap has a usable GPS route. Positions are missing, frozen, stationary or cover too " ++
            "little of the lap. Telemetry and lap times may still exist, but this file cannot supply a track map.")
        else
          let (courses, left) := planSession rt usable
          assemble (sessionWarnings unavailable courses left) <| courses.zipIdx.map fun (course, ci) =>
            (course, convertCourse rt (trackOf ci course) positions firstLap.startMs lastLap.endMs course)
    | _, _ => .error "This session has no timed laps."

end Lhre.DriveDay.Convert
