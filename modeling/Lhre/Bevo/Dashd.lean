import Mathlib.Tactic

/-!
# `Bevo.Dashd` — the lap counter of the dashboard

`dashd` counts laps from two sources: the GPS fixes in the frames of `cand`, whose path may cross the start/finish
gate, and the messages of trackside, which carry the count of the website. Both close a lap through `complete_lap`.
Times are in seconds, and the numbers of the protocol are exact; `f32` rounds to the `f32` a payload is parsed to.

## Contents
- **State.** `SfGate`, `DashState`.
- **Closing a lap.** `DashState.completeLap`.
- **The two sources.** `segmentsCross`, `DashState.onFrame`; `DashState.onMessage`.
- **Runs.** `DashEvent`, `DashState.step`, `DashState.run`, `DashState.closings`.
-/

namespace Lhre.Bevo

/-- A start/finish line, as `[lat1, lon1, lat2, lon2]`. -/
structure SfGate where
  lat1 : ℚ
  lon1 : ℚ
  lat2 : ℚ
  lon2 : ℚ
deriving Repr, DecidableEq

/-- What the lap handlers read and write of `DashState`. -/
structure DashState where
  sfGate : Option SfGate := none
  lastGps : Option (ℚ × ℚ) := none
  lapCount : ℕ := 0
  lastOffcarTrigger : Option ℚ := none
  lapEnergyWh : ℚ := 0
  lapBudgetWh : ℚ := 0
  lapStart : ℚ := 0
  lastEnergyUpdate : Option ℚ := none
  lastLap : Option (ℕ × ℚ × ℚ) := none
  targetPower : Option ℚ := none
deriving Repr, DecidableEq

/-- `Instant::duration_since`, which is zero for an instant that lies ahead. -/
def durationSince (now earlier : ℚ) : ℚ := max (now - earlier) 0

/-- A float as `u64`: truncated, and held at the ends of the range. -/
def asU64 (x : ℚ) : ℕ := min ⌊x⌋.toNat 0xFFFFFFFFFFFFFFFF

/-- `f32::round`: halves go away from zero. -/
def roundHalfAway (x : ℚ) : ℚ := if 0 ≤ x then ⌊x + 1 / 2⌋ else -⌊-x + 1 / 2⌋

/-- The count a payload stands for: `val.round().max(0.0) as u64`. -/
def countOf (val : ℚ) : ℕ := asU64 (max (roundHalfAway val) 0)

/-- `complete_lap`: close the lap under `setCount`, or under the next number, and restart the integrators. -/
def DashState.completeLap (s : DashState) (now : ℚ) (setCount : Option ℕ) : DashState :=
  let nextCount := setCount.getD (s.lapCount + 1)
  { s with
    lastLap := some (nextCount % 2 ^ 32, durationSince now s.lapStart, s.lapEnergyWh)
    lapCount := nextCount
    lapEnergyWh := 0
    lapBudgetWh := 0
    lapStart := now }

/-! ## GPS -/

/-- Twice the signed area of a triangle. -/
def orient (p q r : ℚ × ℚ) : ℚ := (q.1 - p.1) * (r.2 - p.2) - (q.2 - p.2) * (r.1 - p.1)

/-- `segments_cross`: the path between two fixes strictly crosses the gate. -/
def segmentsCross (prev cur : ℚ × ℚ) (gate : SfGate) : Bool :=
  let a := (prev.2, prev.1)
  let b := (cur.2, cur.1)
  let c := (gate.lon1, gate.lat1)
  let d := (gate.lon2, gate.lat2)
  let d1 := orient c d a
  let d2 := orient c d b
  let d3 := orient a b c
  let d4 := orient a b d
  decide ((d1 > 0 ∧ d2 < 0) ∨ (d1 < 0 ∧ d2 > 0)) && decide ((d3 > 0 ∧ d4 < 0) ∨ (d3 < 0 ∧ d4 > 0))

/-- A frame of `cand`: its time, the `gps` of its dynamics, and its power. -/
structure CandFrame where
  now : ℚ
  gps : Option (List ℚ) := none
  power : Option ℚ := none
deriving Repr, DecidableEq

/-- The fix of a frame; `(0, 0)` stands for no fix. -/
def CandFrame.fix (frame : CandFrame) : Option (ℚ × ℚ) :=
  match frame.gps with
  | some (lat :: lon :: _) => if lat ≠ 0 ∨ lon ≠ 0 then some (lat, lon) else none
  | _ => none

/-- `MAX_ENERGY_DT_S`. -/
def maxEnergyDtS : ℚ := 1 / 2

/-- Add the energy of a frame to the lap. -/
def DashState.integrate (s : DashState) (frame : CandFrame) : DashState :=
  let s := match s.lastEnergyUpdate with
    | none => s
    | some prev =>
        let dt := min (durationSince frame.now prev) maxEnergyDtS
        if 0 < dt then
          match frame.power with
          | none => s
          | some p =>
              { s with
                lapEnergyWh := s.lapEnergyWh + p * dt / (36 / 10)
                lapBudgetWh := match s.targetPower with
                  | some tp => s.lapBudgetWh + tp * dt / (36 / 10)
                  | none => s.lapBudgetWh }
        else s
  { s with lastEnergyUpdate := some frame.now }

/-- The frame takes the car over the gate. -/
def DashState.crosses (s : DashState) (frame : CandFrame) : Bool :=
  match frame.fix, s.sfGate, s.lastGps with
  | some cur, some gate, some prev => segmentsCross prev cur gate
  | _, _, _ => false

/-- A frame of `ipc_reader_loop`; the number is how often it ran `complete_lap`. -/
def DashState.onFrame (s : DashState) (frame : CandFrame) : DashState × ℕ :=
  let crossing := s.crosses frame
  let s := s.integrate frame
  match frame.fix with
  | none => (s, 0)
  | some cur =>
      if crossing then ({ s.completeLap frame.now none with lastGps := some cur }, 1)
      else ({ s with lastGps := some cur }, 0)

/-! ## Trackside -/

/-- A message of trackside. A payload that does not parse leaves the state alone, as any other subtopic does. -/
inductive Message
  | sfGate (gate : SfGate)
  | targetPower (payload : ℚ)
  | lapTrigger (payload : ℚ)
  | lapCount (payload : ℚ)
  | lapReset
  | other
deriving Repr, DecidableEq

/-- The message handler; the number is how often it ran `complete_lap`. -/
def DashState.onMessage (f32 : ℚ → ℚ) (s : DashState) (now : ℚ) : Message → DashState × ℕ
  | .sfGate gate => ({ s with sfGate := some gate, lastGps := none }, 0)
  | .targetPower payload => ({ s with targetPower := some (f32 payload) }, 0)
  | .lapTrigger payload =>
      let newCount := countOf (f32 payload)
      let s := { s with lastOffcarTrigger := some (f32 payload) }
      if newCount > s.lapCount + 1 then ({ s with lapCount := newCount }, 0)
      else if newCount > s.lapCount then (s.completeLap now (some newCount), 1)
      else (s, 0)
  | .lapCount payload =>
      ({ s with lapCount := countOf (f32 payload), lastOffcarTrigger := some (f32 payload) }, 0)
  | .lapReset =>
      ({ s with
        lastOffcarTrigger := none
        lapCount := 0
        lapEnergyWh := 0
        lapBudgetWh := 0
        lapStart := now
        lastLap := none }, 0)
  | .other => (s, 0)

/-! ## Runs -/

/-- What the two threads handle under the lock of the state. -/
inductive DashEvent
  | frame (frame : CandFrame)
  | message (now : ℚ) (m : Message)
deriving Repr, DecidableEq

def DashState.step (f32 : ℚ → ℚ) (s : DashState) : DashEvent → DashState × ℕ
  | .frame frame => s.onFrame frame
  | .message now m => s.onMessage f32 now m

/-- The state after some events. -/
def DashState.run (f32 : ℚ → ℚ) (s : DashState) (es : List DashEvent) : DashState :=
  es.foldl (fun s e => (s.step f32 e).1) s

/-- How often `complete_lap` runs during some events. -/
def DashState.closings (f32 : ℚ → ℚ) (s : DashState) : List DashEvent → ℕ
  | [] => 0
  | e :: es => (s.step f32 e).2 + DashState.closings f32 (s.step f32 e).1 es

section Runs

variable {f32 : ℚ → ℚ} {s : DashState}

@[simp] theorem DashState.run_nil : s.run f32 [] = s := rfl

@[simp] theorem DashState.run_cons (e : DashEvent) (es : List DashEvent) :
    s.run f32 (e :: es) = (s.step f32 e).1.run f32 es := rfl

theorem DashState.run_append (es es' : List DashEvent) : s.run f32 (es ++ es') = (s.run f32 es).run f32 es' :=
  List.foldl_append

theorem DashState.closings_append (es es' : List DashEvent) :
    s.closings f32 (es ++ es') = s.closings f32 es + (s.run f32 es).closings f32 es' := by
  induction es generalizing s with
  | nil => exact (Nat.zero_add _).symm
  | cons e es ih =>
      rw [List.cons_append, closings, closings, run_cons, ih]
      exact (Nat.add_assoc _ _ _).symm

end Runs

end Lhre.Bevo
