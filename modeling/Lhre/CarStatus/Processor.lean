import Lhre.CarStatus.Correctness.Debounce
import Lhre.Theory.Spells
import Mathlib

/-!
# `CarStatus.Processor` — the segments and the messages of all cars

`apps/telemetry/stack/processors/car_status/main.py`: one process classifies the frames of every car, hands the segments of one
state to the database and tells the topic `car_status` about the state. The thresholds may change between any two frames.
A time or a threshold that is not finite is left out, and so is what the database makes of a row.

What a car gets does not depend on the others: `CarView` is the machine of one car alone, over its own frames and all changes of
the thresholds. The segments are the longest stretches of its frames in one state, each change of state is announced by the frame
that made it, and the last message about a car has the state it is in.

## Contents
- **Records.** `Car`, `normalizeCarName`, `carFromHeaders`, `Decoded`, `frameTimeMs`, `Thresholds.fromOverrides`.
- **Segments.** `Snapshot`, `OpenSegment`, `OpenSegment.accumulate`, `OpenSegment.toRow`.
- **The process.** `Processor`, `applyConfig`, `onSnapshot`, `emit`, `onSensor`, `heartbeat`, `flush`; `Event`, `Processor.run`.
- **One car alone.** `CarView`, `CarView.run`; `segmentRow`.
- **One frame.** `debounce_state`, `observe_state`, `observe_transition`.
- **The invariant.** `Follows`, a lemma for each event, `follows`.
- **The rows.** `accumulate_foldl`, `toRow_summary`; `segments_stored`, `state_announced`.
-/

namespace Lhre.CarStatus

/-! ## Records -/

/-- The values of `CAR_NAME_MAP`. -/
inductive Car
  | angelique
  | orion
  | nightwatch
deriving DecidableEq, Repr

/-- `CAR_NAME_MAP`. -/
def carNameMap : Dict String Car := [("angelique", .angelique), ("orion", .orion), ("nightwatch", .nightwatch)]

/-- `str.isspace`. -/
def isSpace (c : Char) : Bool :=
  decide (0x9 ≤ c.toNat ∧ c.toNat ≤ 0xD) || decide (0x1C ≤ c.toNat ∧ c.toNat ≤ 0x20) ||
    decide (0x2000 ≤ c.toNat ∧ c.toNat ≤ 0x200A) || c.toNat ∈ [0x85, 0xA0, 0x1680, 0x2028, 0x2029, 0x202F, 0x205F, 0x3000]

/-- `str.strip`. -/
def strip (s : String) : String :=
  String.ofList ((s.toList.dropWhile isSpace).reverse.dropWhile isSpace).reverse

/-- `_normalize_car_name`; only letters of ASCII become the letters of a name. -/
def normalizeCarName (raw : String) : Option Car := carNameMap.get? (strip raw).toLower

/-- `_car_from_headers`: the first header of that name decides. -/
def carFromHeaders (headers : List (String × String)) : Option Car :=
  (headers.find? fun header => header.1.toLower = "car_type").bind fun header => normalizeCarName header.2

/-- A decoded message: the frame, its `time`, and its packet id where it has one that is true. -/
structure Decoded (π : Type) where
  frame : Frame
  time : Value := .null
  packet : Option π := none

section Config

variable (parse : String → Option (Option ℚ))

/-- `float(v)`, which also takes a truth value. -/
def Value.float : Value → Option ℚ
  | .bool b => some (if b then 1 else 0)
  | v => v.finite parse

/-- `_frame_time_ms`. -/
def frameTimeMs (time : Value) (fallbackMs : ℚ) : ℚ :=
  match time.float parse with
  | none => fallbackMs
  | some t => if 0 < t then if t < 100000000000 then t * 1000 else t else fallbackMs

/-- The value of a field under the overrides. -/
def override (overrides : Dict String Value) (name : String) (value : ℚ) : ℚ :=
  ((overrides.get? name).bind (Value.float parse)).getD value

/-- `from_overrides`. -/
def Thresholds.fromOverrides (th : Thresholds) (overrides : Dict String Value) : Thresholds where
  hvLiveV := override parse overrides "hv_live_v" th.hvLiveV
  moveRpm := override parse overrides "move_rpm" th.moveRpm
  moveWheel := override parse overrides "move_wheel" th.moveWheel
  moveMps := override parse overrides "move_mps" th.moveMps
  minStateMs := override parse overrides "min_state_ms" th.minStateMs

end Config

deriving instance DecidableEq for Thresholds

/-! ## Segments -/

/-- What `update` returns, with the values it copies. -/
structure Snapshot extends Status where
  hvSoc : Option ℚ
  hvPackV : Option ℚ
  lvV : Option ℚ
  lvC : Option ℚ
  lvT : Option ℚ
  thresholds : Thresholds

/-- `update`, with the values of the frame. -/
def CarStateMachine.observe (parse : String → Option (Option ℚ)) (m : CarStateMachine) (frame : Frame) (tMs : ℚ) :
    CarStateMachine × Snapshot :=
  let (m', status) := m.update parse frame tMs
  (m', { status with
    hvSoc := num parse [pick frame "pack" ["hv_soc"]]
    hvPackV := num parse [pick frame "pack" ["hv_pack_v"]]
    lvV := num parse [pick frame "pack" ["lv_batt_v"], pick frame "pack" ["lv_v"]]
    lvC := num parse [pick frame "pack" ["lv_batt_c"], pick frame "pack" ["lv_c"]]
    lvT := num parse [pick frame "pack" ["lv_batt_t"]]
    thresholds := m'.thresholds })

/-- A sum and the number of its terms. -/
structure Mean where
  sum : ℚ := 0
  n : ℕ := 0
deriving DecidableEq

/-- One more term, where there is one. -/
def Mean.add (mean : Mean) : Option ℚ → Mean
  | none => mean
  | some x => { sum := mean.sum + x, n := mean.n + 1 }

/-- The average. -/
def Mean.avg (mean : Mean) : Option ℚ := if mean.n = 0 then none else some (mean.sum / mean.n)

/-- `_OpenSegment`. -/
structure OpenSegment (π : Type) where
  state : Option CarState
  startTime : ℚ
  startPacket : Option π
  endTime : ℚ
  endPacket : Option π
  hv : Mean := {}
  lv : Mean := {}
  faults : Finset String := ∅

/-- A row of `car_status_segment`. -/
structure Row (π : Type) where
  car : Car
  state : Option CarState
  startTime : ℤ
  endTime : ℤ
  startPacket : Option π
  endPacket : Option π
  hvSocAvg : Option ℚ
  lvVAvg : Option ℚ
  activeFaults : Option String

/-- `int(x)`. -/
def toInt (x : ℚ) : ℤ := x.num.tdiv x.den

/-- `",".join(sorted(faults)) if faults else None`. -/
def faultText (faults : Finset String) : Option String :=
  if faults = ∅ then none else some (String.intercalate "," (faults.sort (· ≤ ·)))

variable {π : Type}

/-- A snapshot and the packet of its frame. -/
structure Seen (π : Type) where
  snapshot : Snapshot
  packet : Option π

/-- `_OpenSegment(car, state, t_ms, packet)`. -/
def OpenSegment.start (s : Seen π) : OpenSegment π where
  state := s.snapshot.state
  startTime := s.snapshot.tMs
  startPacket := s.packet
  endTime := s.snapshot.tMs
  endPacket := s.packet

/-- `accumulate`. -/
def OpenSegment.accumulate (seg : OpenSegment π) (s : Seen π) : OpenSegment π :=
  { seg with
    endTime := s.snapshot.tMs
    endPacket := s.packet <|> seg.endPacket
    hv := seg.hv.add s.snapshot.hvSoc
    lv := seg.lv.add s.snapshot.lvV
    faults := seg.faults ∪ s.snapshot.activeFaults.toFinset }

/-- `to_row`. -/
def OpenSegment.toRow (car : Car) (seg : OpenSegment π) : Row π where
  car := car
  state := seg.state
  startTime := toInt seg.startTime
  endTime := toInt seg.endTime
  startPacket := seg.startPacket
  endPacket := seg.endPacket
  hvSocAvg := seg.hv.avg
  lvVAvg := seg.lv.avg
  activeFaults := faultText seg.faults

/-! ## The process -/

/-- The kind of a message. -/
inductive Kind
  | transition
  | heartbeat
deriving DecidableEq

/-- A message of `car_status`; the flag of its snapshot is not sent. -/
structure Message where
  car : Car
  kind : Kind
  snapshot : Snapshot

/-- The state of the process, with the rows handed to the database and the messages sent. -/
structure Processor (π : Type) where
  thresholds : Thresholds := {}
  machines : Dict Car CarStateMachine := []
  openSegments : Dict Car (OpenSegment π) := []
  lastHeartbeatMs : ℚ := 0
  written : List (Row π) := []
  emitted : List Message := []

/-- What a record of the two topics is. A configuration that is no dictionary and a message that cannot be decoded are absent. -/
inductive Record (π : Type)
  | config (overrides : Option (Dict String Value))
  | sensor (headers : List (String × String)) (decoded : Option (Decoded π))

/-- A record, with the time of its poll, or the end of a poll. -/
inductive Event (π : Type)
  | record (nowMs : ℚ) (r : Record π)
  | polled (nowMs : ℚ)

section Process

variable (parse : String → Option (Option ℚ)) (defaultCar : Car) (heartbeatMs : ℚ)

/-- `_apply_config`. -/
def Processor.applyConfig (p : Processor π) (overrides : Dict String Value) : Processor π :=
  let thresholds := p.thresholds.fromOverrides parse overrides
  if thresholds = p.thresholds then p
  else
    { p with
      thresholds := thresholds
      machines := p.machines.map fun (car, m) => (car, m.setThresholds thresholds) }

/-- `_on_snapshot`. -/
def Processor.onSnapshot (p : Processor π) (car : Car) (s : Seen π) : Processor π :=
  match p.openSegments.get? car with
  | none => { p with openSegments := p.openSegments.set car (OpenSegment.start s) }
  | some seg =>
      if s.snapshot.transition = true ∨ seg.state ≠ s.snapshot.state then
        { p with
          written := p.written ++ [seg.toRow car]
          openSegments := p.openSegments.set car (OpenSegment.start s) }
      else { p with openSegments := p.openSegments.set car (seg.accumulate s) }

/-- `_emit`. -/
def Processor.emit (p : Processor π) (message : Message) : Processor π := { p with emitted := p.emitted ++ [message] }

/-- The car of a record. -/
def carOf (headers : List (String × String)) : Car := (carFromHeaders headers).getD defaultCar

/-- The part of the loop behind the decoding. -/
def Processor.onSensor (p : Processor π) (nowMs : ℚ) (car : Car) (d : Decoded π) : Processor π :=
  let m := (p.machines.get? car).getD { thresholds := p.thresholds }
  let (m', snapshot) := m.observe parse d.frame (frameTimeMs parse d.time nowMs)
  let p := { p with machines := p.machines.set car m' }
  let p := p.onSnapshot car { snapshot := snapshot, packet := d.packet }
  if snapshot.transition then p.emit { car := car, kind := .transition, snapshot := snapshot } else p

/-- The heartbeat of a car, once it has a state. -/
def CarStateMachine.beat (m : CarStateMachine) (car : Car) (nowMs : ℚ) : Option Message :=
  m.committed.map fun state =>
    { car := car
      kind := .heartbeat
      snapshot := {
        state := some state
        transition := false
        reasons := m.lastReasons
        activeFaults := []
        timeInStateMs := (m.committedSinceMs.map fun since => if since = 0 then 0 else nowMs - since).getD 0
        tMs := nowMs
        hvSoc := none
        hvPackV := none
        lvV := none
        lvC := none
        lvT := none
        thresholds := m.thresholds } }

/-- The heartbeat at the end of a poll. -/
def Processor.heartbeat (p : Processor π) (nowMs : ℚ) : Processor π :=
  if heartbeatMs ≤ nowMs - p.lastHeartbeatMs ∧ p.machines ≠ [] then
    { p with
      lastHeartbeatMs := nowMs
      emitted := p.emitted ++ p.machines.filterMap fun (car, m) => m.beat car nowMs }
  else p

/-- One event. -/
def Processor.step (p : Processor π) : Event π → Processor π
  | .record _ (.config overrides) => overrides.elim p (p.applyConfig parse)
  | .record nowMs (.sensor headers decoded) => decoded.elim p (p.onSensor parse nowMs (carOf defaultCar headers))
  | .polled nowMs => p.heartbeat heartbeatMs nowMs

/-- Some events. -/
def Processor.run (events : List (Event π)) : Processor π := events.foldl (Processor.step parse defaultCar heartbeatMs) {}

/-- `_flush_open_segments`. -/
def Processor.flush (p : Processor π) : Processor π :=
  { p with
    written := p.written ++ p.openSegments.map fun (car, seg) => seg.toRow car
    openSegments := [] }

/-! ## One car alone -/

/-- The thresholds, the machine of one car, and what it has seen. -/
structure CarView (π : Type) where
  thresholds : Thresholds := {}
  machine : Option CarStateMachine := none
  seen : List (Seen π) := []

/-- A frame of the car. -/
def CarView.onFrame (v : CarView π) (nowMs : ℚ) (d : Decoded π) : CarView π :=
  let m := v.machine.getD { thresholds := v.thresholds }
  let (m', snapshot) := m.observe parse d.frame (frameTimeMs parse d.time nowMs)
  { v with machine := some m', seen := v.seen ++ [{ snapshot := snapshot, packet := d.packet }] }

/-- One event, for one car: a change of the thresholds, or a frame of that car. -/
def CarView.step (car : Car) (v : CarView π) : Event π → CarView π
  | .record _ (.config overrides) =>
      overrides.elim v fun overrides =>
        let thresholds := v.thresholds.fromOverrides parse overrides
        { v with thresholds := thresholds, machine := v.machine.map (·.setThresholds thresholds) }
  | .record nowMs (.sensor headers decoded) =>
      if carOf defaultCar headers = car then decoded.elim v (v.onFrame parse nowMs) else v
  | .polled _ => v

/-- Some events, for one car. -/
def CarView.run (car : Car) (events : List (Event π)) : CarView π := events.foldl (CarView.step parse defaultCar car) {}

end Process

/-- The state of a snapshot. -/
def Seen.state (s : Seen π) : Option CarState := s.snapshot.state

/-- The average of some values. -/
def average (values : List ℚ) : Option ℚ := if values = [] then none else some (values.sum / values.length)

/-- The row of a stretch of snapshots: the averages and the faults are those of the snapshots after the first. -/
def segmentRow (car : Car) : List (Seen π) → Option (Row π)
  | [] => none
  | s :: rest =>
      some {
        car := car
        state := s.state
        startTime := toInt s.snapshot.tMs
        endTime := toInt ((s :: rest).getLast (by simp)).snapshot.tMs
        startPacket := s.packet
        endPacket := ((s :: rest).filterMap Seen.packet).getLast?
        hvSocAvg := average (rest.filterMap fun s => s.snapshot.hvSoc)
        lvVAvg := average (rest.filterMap fun s => s.snapshot.lvV)
        activeFaults := faultText (rest.flatMap fun s => s.snapshot.activeFaults).toFinset }

/-! ## One frame -/

section Frame

variable {m : CarStateMachine} {i : CarState} {t : ℚ}

/-- After a frame there is a state, and the flag says whether it is another. -/
theorem debounce_state (m : CarStateMachine) (i : CarState) (t : ℚ) :
    (m.debounce i t).1.committed ≠ none ∧ ((m.debounce i t).2 = true ↔ (m.debounce i t).1.committed ≠ m.committed) := by
  cases hm : m.committed with
  | none =>
      rw [debounce_first hm]
      simp [CarStateMachine.commit]
  | some c =>
      cases debounce_cases (i := i) (t := t) hm with
      | same hi hm' hf => rw [hm', hf]; simp [hm]
      | begins hi hp hm' hf => rw [hm', hf]; simp [hm]
      | waits p hi hp hs hshort hm' hf => rw [hm', hf]; simp [hm]
      | commits p hi hp hs hlong hm' hf => rw [hm', hf]; simp [CarStateMachine.commit, hi]

theorem debounce_thresholds (m : CarStateMachine) (i : CarState) (t : ℚ) : (m.debounce i t).1.thresholds = m.thresholds := by
  cases hm : m.committed with
  | none =>
      rw [debounce_first hm]
      rfl
  | some c =>
      cases debounce_cases (i := i) (t := t) hm with
      | same hi hm' hf => rw [hm']
      | begins hi hp hm' hf => rw [hm']
      | waits p hi hp hs hshort hm' hf => rw [hm']
      | commits p hi hp hs hlong hm' hf => rw [hm']; rfl

variable (parse : String → Option (Option ℚ)) (m : CarStateMachine) (frame : Frame) (t : ℚ)

theorem observe_committed : (m.observe parse frame t).1.committed = (m.observe parse frame t).2.state := rfl

theorem observe_state : (m.observe parse frame t).2.state ≠ none := (debounce_state _ _ _).1

theorem observe_transition :
    (m.observe parse frame t).2.transition = true ↔ (m.observe parse frame t).2.state ≠ m.committed := (debounce_state _ _ _).2

theorem observe_thresholds : (m.observe parse frame t).1.thresholds = m.thresholds := debounce_thresholds _ _ _

end Frame

/-! ## The invariant -/

section Invariant

open Spells

variable {parse : String → Option (Option ℚ)} {defaultCar car c : Car} {heartbeatMs nowMs : ℚ} {d : Decoded π}
  {p : Processor π} {v : CarView π}

/-- The rows of a car. -/
def rowsOf (car : Car) (rows : List (Row π)) : List (Row π) := rows.filter fun r => r.car = car

/-- The messages about a car. -/
def messagesOf (car : Car) (messages : List Message) : List Message := messages.filter fun message => message.car = car

/-- The snapshots announced for a car. -/
def announced (car : Car) (messages : List Message) : List Snapshot :=
  ((messagesOf car messages).filter fun message => message.kind = .transition).map Message.snapshot

/-- What the process has of a car is what the car alone makes of it. -/
structure Follows (car : Car) (p : Processor π) (v : CarView π) : Prop where
  thresholds : p.thresholds = v.thresholds
  machine : p.machines.get? car = v.machine
  inUse : ∀ m, v.machine = some m → m.thresholds = v.thresholds
  committed : v.machine.map CarStateMachine.committed = v.seen.getLast?.map Seen.state
  known : ∀ s ∈ v.seen, s.state ≠ none
  nodup : p.machines.keys.Nodup ∧ p.openSegments.keys.Nodup
  closed : rowsOf car p.written = (ended Seen.state .start .accumulate v.seen).map (OpenSegment.toRow car)
  opened : p.openSegments.get? car = current Seen.state .start .accumulate v.seen
  openState : (p.openSegments.get? car).map OpenSegment.state = v.seen.getLast?.map Seen.state
  changes : announced car p.emitted =
    ended Seen.state Seen.snapshot (fun b _ => b) v.seen ++ (current Seen.state Seen.snapshot (fun b _ => b) v.seen).toList
  latest : (messagesOf car p.emitted).getLast?.map (fun message => message.snapshot.state) = v.seen.getLast?.map Seen.state

theorem Follows.nil : Follows car ({} : Processor π) {} where
  thresholds := rfl
  machine := rfl
  inUse m hm := absurd hm (by simp)
  committed := rfl
  known s hs := absurd hs List.not_mem_nil
  nodup := ⟨List.nodup_nil, List.nodup_nil⟩
  closed := rfl
  opened := rfl
  openState := rfl
  changes := rfl
  latest := rfl

/-- A snapshot of another state closes the open segment and opens one. -/
theorem onSnapshot_turn {s : Seen π} (hflag : s.snapshot.transition = true) :
    p.onSnapshot car s = { p with
      written := p.written ++ ((p.openSegments.get? car).map (OpenSegment.toRow car)).toList
      openSegments := p.openSegments.set car (OpenSegment.start s) } := by
  unfold Processor.onSnapshot
  cases p.openSegments.get? car with
  | none => simp
  | some seg => simp [hflag]

/-- A snapshot of the same state grows the open segment. -/
theorem onSnapshot_stay {s : Seen π} {seg : OpenSegment π} (hseg : p.openSegments.get? car = some seg)
    (hflag : s.snapshot.transition = false) (hstate : seg.state = s.snapshot.state) :
    p.onSnapshot car s = { p with openSegments := p.openSegments.set car (seg.accumulate s) } := by
  unfold Processor.onSnapshot
  rw [hseg]
  simp [hflag, hstate]

theorem rowsOf_append (rows rows' : List (Row π)) : rowsOf car (rows ++ rows') = rowsOf car rows ++ rowsOf car rows' :=
  List.filter_append ..

theorem rowsOf_toRow (seg : Option (OpenSegment π)) :
    rowsOf car (seg.map (OpenSegment.toRow car)).toList = (seg.map (OpenSegment.toRow car)).toList := by
  cases seg <;> simp [rowsOf, OpenSegment.toRow]

theorem messagesOf_append (messages messages' : List Message) :
    messagesOf car (messages ++ messages') = messagesOf car messages ++ messagesOf car messages' := List.filter_append ..

theorem announced_append (messages messages' : List Message) :
    announced car (messages ++ messages') = announced car messages ++ announced car messages' := by
  simp [announced, messagesOf_append]

/-- The process after a snapshot of a car. -/
def Processor.observed (p : Processor π) (car : Car) (m : CarStateMachine) (s : Seen π) : Processor π :=
  let q := { p with machines := p.machines.set car m }.onSnapshot car s
  if s.snapshot.transition then q.emit { car := car, kind := .transition, snapshot := s.snapshot } else q

theorem onSensor_eq (p : Processor π) (nowMs : ℚ) (car : Car) (d : Decoded π) :
    p.onSensor parse nowMs car d =
      let r := ((p.machines.get? car).getD { thresholds := p.thresholds }).observe parse d.frame (frameTimeMs parse d.time nowMs)
      p.observed car r.1 { snapshot := r.2, packet := d.packet } := rfl

/-- **A snapshot of the car.** -/
theorem Follows.observed {m : CarStateMachine} {s : Seen π} (h : Follows car p v) (hm : m.committed = s.state)
    (hth : m.thresholds = v.thresholds) (hs : s.state ≠ none)
    (hflag : s.snapshot.transition = true ↔ ∀ b ∈ v.seen.getLast?, b.state ≠ s.state) :
    Follows car (p.observed car m s) { v with machine := some m, seen := v.seen ++ [s] } := by
  have hknown : ∀ b ∈ v.seen ++ [s], b.state ≠ none := by
    intro b hb
    rcases List.mem_append.mp hb with hb | hb
    · exact h.known b hb
    · obtain rfl := List.mem_singleton.mp hb
      exact hs
  have hinUse : ∀ m', some m = some m' → m'.thresholds = v.thresholds := by
    intro m' hm'
    obtain rfl := Option.some.inj hm'
    exact hth
  have hcommitted : (some m).map CarStateMachine.committed = (v.seen ++ [s]).getLast?.map Seen.state := by
    rw [List.getLast?_concat, Option.map_some, Option.map_some, hm]
  unfold Processor.observed
  by_cases hturn : s.snapshot.transition = true
  · have hne := hflag.mp hturn
    obtain ⟨hended, hcurrent⟩ := summaries_append_ne OpenSegment.start OpenSegment.accumulate hne
    obtain ⟨hended', hcurrent'⟩ := summaries_append_ne Seen.snapshot (fun b _ => b) hne
    rw [onSnapshot_turn hturn]
    simp only [hturn, if_true, Processor.emit]
    refine ⟨h.thresholds, Dict.get?_set_self _ _ _, hinUse, hcommitted, hknown,
      ⟨Dict.nodup_keys_set h.nodup.1 _ _, Dict.nodup_keys_set h.nodup.2 _ _⟩, ?_, ?_, ?_, ?_, ?_⟩
    · rw [rowsOf_append, rowsOf_toRow, h.closed, h.opened, hended]
      cases current Seen.state OpenSegment.start OpenSegment.accumulate v.seen <;> simp
    · rw [Dict.get?_set_self, hcurrent]
    · rw [Dict.get?_set_self, List.getLast?_concat]
      rfl
    · rw [announced_append, h.changes, hended', hcurrent']
      simp [announced, messagesOf]
    · rw [messagesOf_append, List.getLast?_concat]
      simp [messagesOf, Seen.state]
  · have hstay : ∃ b, v.seen.getLast? = some b ∧ b.state = s.state := by
      by_contra hnot
      refine hturn (hflag.mpr fun b hb heq => hnot ⟨b, hb, heq⟩)
    obtain ⟨b, hb, hstate⟩ := hstay
    obtain ⟨seg, hseg, hsegState⟩ : ∃ seg, p.openSegments.get? car = some seg ∧ seg.state = b.state := by
      have hopen := h.openState
      rw [hb] at hopen
      simpa using hopen
    obtain ⟨hended, hcurrent⟩ := summaries_append_same OpenSegment.start OpenSegment.accumulate hb hstate
    obtain ⟨hended', hcurrent'⟩ := summaries_append_same Seen.snapshot (fun b _ => b) hb hstate
    rw [onSnapshot_stay (p := { p with machines := p.machines.set car m }) hseg (Bool.not_eq_true _ ▸ hturn) (hsegState.trans hstate)]
    simp only [hturn, Bool.false_eq_true, if_false]
    refine ⟨h.thresholds, Dict.get?_set_self _ _ _, hinUse, hcommitted, hknown,
      ⟨Dict.nodup_keys_set h.nodup.1 _ _, Dict.nodup_keys_set h.nodup.2 _ _⟩, ?_, ?_, ?_, ?_, ?_⟩
    · rw [h.closed, hended]
    · rw [Dict.get?_set_self, hcurrent, ← h.opened, hseg]
      rfl
    · rw [Dict.get?_set_self, List.getLast?_concat]
      exact congrArg some (hsegState.trans hstate)
    · rw [h.changes, hended', hcurrent']
      simp
    · rw [h.latest, hb, List.getLast?_concat, Option.map_some, Option.map_some, hstate]

/-- **A frame of the car.** -/
theorem Follows.frame (h : Follows car p v) : Follows car (p.onSensor parse nowMs car d) (v.onFrame parse nowMs d) := by
  rw [onSensor_eq, h.machine, h.thresholds]
  have hth : (v.machine.getD { thresholds := v.thresholds }).thresholds = v.thresholds := by
    cases hm : v.machine with
    | none => rfl
    | some m => exact h.inUse m hm
  have hstate := observe_state parse (v.machine.getD { thresholds := v.thresholds }) d.frame (frameTimeMs parse d.time nowMs)
  refine h.observed (observe_committed ..) ((observe_thresholds ..).trans hth) hstate ?_
  refine (observe_transition ..).trans ?_
  have hcommitted := h.committed
  cases hm : v.machine with
  | none =>
      rw [hm] at hcommitted hstate
      have hnone : v.seen.getLast? = none := by simpa using hcommitted.symm
      rw [hnone]
      exact iff_of_true hstate (by simp)
  | some m =>
      rw [hm] at hcommitted
      obtain ⟨b, hb, hstate⟩ : ∃ b, v.seen.getLast? = some b ∧ b.state = m.committed := by simpa using hcommitted.symm
      rw [hb]
      simp only [Option.getD_some, Option.mem_some_iff, forall_eq']
      rw [hstate]
      exact ne_comm

/-- **A frame of another car** changes nothing of this one. -/
theorem Follows.other (h : Follows car p v) (hne : c ≠ car) : Follows car (p.onSensor parse nowMs c d) v := by
  rw [onSensor_eq]
  generalize hobs : ((p.machines.get? c).getD { thresholds := p.thresholds }).observe parse d.frame
    (frameTimeMs parse d.time nowMs) = r
  obtain ⟨m, snapshot⟩ := r
  have hrows (seg : Option (OpenSegment π)) : rowsOf car (seg.map (OpenSegment.toRow c)).toList = [] := by
    cases seg <;> simp [rowsOf, OpenSegment.toRow, hne]
  have hquiet (kind : Kind) : messagesOf car [{ car := c, kind := kind, snapshot := snapshot }] = [] := by
    simp [messagesOf, hne]
  -- whatever happens to the open segment of the other car
  have hkeep : Follows car ({ p with machines := p.machines.set c m }.onSnapshot c ⟨snapshot, d.packet⟩) v := by
    unfold Processor.onSnapshot
    have hmachine : (p.machines.set c m).get? car = v.machine := by rw [Dict.get?_set_of_ne hne.symm, h.machine]
    have hnodup (seg : OpenSegment π) : (p.machines.set c m).keys.Nodup ∧ (p.openSegments.set c seg).keys.Nodup :=
      ⟨Dict.nodup_keys_set h.nodup.1 _ _, Dict.nodup_keys_set h.nodup.2 _ _⟩
    have hopen (seg : OpenSegment π) : (p.openSegments.set c seg).get? car = p.openSegments.get? car :=
      Dict.get?_set_of_ne hne.symm _ _
    cases hseg : p.openSegments.get? c with
    | none =>
        exact { h with
          machine := hmachine
          nodup := hnodup _
          opened := (hopen _).trans h.opened
          openState := by rw [hopen, h.openState] }
    | some seg =>
        dsimp only
        split
        · have hclosed := hrows (some seg)
          refine { h with
            machine := hmachine
            nodup := hnodup _
            closed := ?_
            opened := (hopen _).trans h.opened
            openState := by rw [hopen, h.openState] }
          rw [rowsOf_append, ← h.closed]
          simpa using hclosed
        · exact { h with
            machine := hmachine
            nodup := hnodup _
            opened := (hopen _).trans h.opened
            openState := by rw [hopen, h.openState] }
  unfold Processor.observed
  dsimp only
  split
  · exact { hkeep with
      changes := by
        show announced car (_ ++ _) = _
        rw [announced_append, hkeep.changes]
        simp [announced, hquiet]
      latest := by
        show (messagesOf car (_ ++ _)).getLast?.map _ = _
        rw [messagesOf_append, hquiet, List.append_nil, hkeep.latest] }
  · exact hkeep

/-- **A configuration** reaches the machines of all cars. -/
theorem Follows.config (h : Follows car p v) (overrides : Dict String Value) :
    Follows car (p.applyConfig parse overrides) { v with
      thresholds := v.thresholds.fromOverrides parse overrides
      machine := v.machine.map (·.setThresholds (v.thresholds.fromOverrides parse overrides)) } := by
  have hcommitted : (v.machine.map (·.setThresholds (v.thresholds.fromOverrides parse overrides))).map CarStateMachine.committed =
      v.seen.getLast?.map Seen.state := by
    rw [← h.committed, Option.map_map]
    rfl
  have hinUse : ∀ m, v.machine.map (·.setThresholds (v.thresholds.fromOverrides parse overrides)) = some m →
      m.thresholds = v.thresholds.fromOverrides parse overrides := by
    intro m hm
    obtain ⟨m₀, -, rfl⟩ := Option.map_eq_some_iff.mp hm
    rfl
  unfold Processor.applyConfig
  rw [h.thresholds]
  by_cases hsame : v.thresholds.fromOverrides parse overrides = v.thresholds
  · -- the machines have these thresholds already
    have hmachine : v.machine.map (·.setThresholds (v.thresholds.fromOverrides parse overrides)) = v.machine := by
      rw [hsame]
      cases hm : v.machine with
      | none => rfl
      | some m =>
          have hth := h.inUse m hm
          rw [Option.map_some, ← hth]
          rfl
    simp only [hsame, if_true]
    exact { h with
      machine := by rw [h.machine, ← hsame, hmachine]
      inUse := by simpa only [hsame] using hinUse
      committed := by simpa only [hsame] using hcommitted }
  · simp only [hsame, if_false]
    exact { h with
      thresholds := rfl
      machine := by
        rw [← h.machine]
        exact Dict.get?_map (fun m => m.setThresholds (v.thresholds.fromOverrides parse overrides)) p.machines car
      inUse := hinUse
      committed := hcommitted
      nodup := by
        refine ⟨?_, h.nodup.2⟩
        have hkeys : Dict.keys (p.machines.map fun (c, m) => (c, m.setThresholds (v.thresholds.fromOverrides parse overrides))) =
            p.machines.keys := by simp [Dict.keys, Function.comp_def]
        rw [hkeys]
        exact h.nodup.1 }

/-- What a heartbeat says. -/
theorem beat_cases {m : CarStateMachine} {message : Message} (h : m.beat c nowMs = some message) :
    message.car = c ∧ message.kind = .heartbeat ∧ message.snapshot.state = m.committed := by
  unfold CarStateMachine.beat at h
  obtain ⟨state, hstate, rfl⟩ := Option.map_eq_some_iff.mp h
  exact ⟨rfl, rfl, hstate.symm⟩

/-- **The end of a poll.** -/
theorem Follows.polled (h : Follows car p v) : Follows car (p.heartbeat heartbeatMs nowMs) v := by
  unfold Processor.heartbeat
  split
  · have hbeats : ∀ message ∈ p.machines.filterMap (fun (c, m) => m.beat c nowMs), message.kind = .heartbeat ∧
        (message.car = car → some message.snapshot.state = v.seen.getLast?.map Seen.state) := by
      intro message hmessage
      obtain ⟨⟨c, m⟩, hm, hbeat⟩ := List.mem_filterMap.mp hmessage
      obtain ⟨hcar, hkind, hstate⟩ := beat_cases hbeat
      refine ⟨hkind, fun heq => ?_⟩
      obtain rfl := hcar.symm.trans heq
      have hmachine := (Dict.mem_iff_get? h.nodup.1).mp hm
      rw [← h.committed, ← h.machine, hmachine, hstate]
      rfl
    refine { h with changes := ?_, latest := ?_ }
    · rw [announced_append, h.changes]
      have hnone : announced car (p.machines.filterMap fun (c, m) => m.beat c nowMs) = [] := by
        unfold announced
        rw [List.map_eq_nil_iff, List.filter_eq_nil_iff]
        intro message hmessage
        rw [(hbeats message (List.mem_of_mem_filter hmessage)).1]
        simp
      rw [hnone, List.append_nil]
    · rw [messagesOf_append, List.getLast?_append]
      cases hlast : (messagesOf car (p.machines.filterMap fun (c, m) => m.beat c nowMs)).getLast? with
      | none => exact h.latest
      | some message =>
          obtain ⟨hmessage, hcar⟩ := List.mem_filter.mp (List.mem_of_getLast? hlast)
          exact (hbeats message hmessage).2 (of_decide_eq_true hcar)
  · exact h

/-- **Each event** keeps the process and the car alone together. -/
theorem Follows.step (h : Follows car p v) (e : Event π) :
    Follows car (p.step parse defaultCar heartbeatMs e) (v.step parse defaultCar car e) := by
  cases e with
  | polled nowMs => exact h.polled
  | record nowMs r =>
      cases r with
      | config overrides =>
          cases overrides with
          | none => exact h
          | some overrides => exact h.config overrides
      | sensor headers decoded =>
          cases decoded with
          | none =>
              have hnothing : v.step parse defaultCar car (.record nowMs (.sensor headers none)) = v := ite_self v
              rw [hnothing]
              exact h
          | some d =>
              by_cases hcar : carOf defaultCar headers = car
              · have hframe : v.step parse defaultCar car (.record nowMs (.sensor headers (some d))) = v.onFrame parse nowMs d :=
                  if_pos hcar
                rw [hframe]
                subst hcar
                exact h.frame
              · have hnothing : v.step parse defaultCar car (.record nowMs (.sensor headers (some d))) = v := if_neg hcar
                rw [hnothing]
                exact h.other hcar

/-- **After any run** the process has of each car what the car alone makes of it. -/
theorem follows (parse : String → Option (Option ℚ)) (defaultCar : Car) (heartbeatMs : ℚ) (events : List (Event π)) (car : Car) :
    Follows car (Processor.run parse defaultCar heartbeatMs events) (CarView.run parse defaultCar car events) := by
  induction events using List.reverseRecOn with
  | nil => exact Follows.nil
  | append_singleton events e ih =>
      unfold Processor.run CarView.run at ih ⊢
      rw [List.foldl_concat, List.foldl_concat]
      exact ih.step e

/-! ## The rows -/

/-- The sum and the number of some values. -/
def Mean.of (values : List ℚ) : Mean := { sum := values.sum, n := values.length }

theorem Mean.add_of (values : List ℚ) (x : Option ℚ) : (Mean.of values).add x = Mean.of (values ++ x.toList) := by
  cases x <;> simp [Mean.of, Mean.add]

theorem Mean.avg_of (values : List ℚ) : (Mean.of values).avg = average values := by
  simp [Mean.of, Mean.avg, average]

/-- The open segment after a stretch of snapshots. -/
theorem accumulate_foldl (s : Seen π) (rest : List (Seen π)) :
    rest.foldl OpenSegment.accumulate (OpenSegment.start s) =
      { state := s.state
        startTime := s.snapshot.tMs
        startPacket := s.packet
        endTime := ((s :: rest).getLast (by simp)).snapshot.tMs
        endPacket := ((s :: rest).filterMap Seen.packet).getLast?
        hv := Mean.of (rest.filterMap fun s => s.snapshot.hvSoc)
        lv := Mean.of (rest.filterMap fun s => s.snapshot.lvV)
        faults := (rest.flatMap fun s => s.snapshot.activeFaults).toFinset } := by
  induction rest using List.reverseRecOn with
  | nil =>
      cases hs : s.packet <;> simp [OpenSegment.start, Mean.of, Seen.state, hs]
  | append_singleton rest x ih =>
      have hvalues (f : Seen π → Option ℚ) : Mean.of ((rest ++ [x]).filterMap f) = (Mean.of (rest.filterMap f)).add (f x) := by
        rw [Mean.add_of, List.filterMap_append]
        cases hx : f x <;> simp [hx]
      have hpacket : ((s :: (rest ++ [x])).filterMap Seen.packet).getLast? =
          (x.packet <|> ((s :: rest).filterMap Seen.packet).getLast?) := by
        rw [← List.cons_append, List.filterMap_append, List.getLast?_append]
        cases hx : x.packet <;> simp [hx]
      rw [List.foldl_concat, ih, hvalues, hvalues, hpacket]
      simp [OpenSegment.accumulate]

/-- **The row of a segment** is that of its snapshots. -/
theorem toRow_summary (car : Car) (stretch : List (Seen π)) :
    (summary OpenSegment.start OpenSegment.accumulate stretch).map (OpenSegment.toRow car) = segmentRow car stretch := by
  cases stretch with
  | nil => rfl
  | cons s rest =>
      unfold summary
      rw [Option.map_some, accumulate_foldl]
      unfold OpenSegment.toRow segmentRow
      rw [Mean.avg_of, Mean.avg_of]

theorem rows_filterMap (car : Car) (stretches : List (List (Seen π))) :
    (stretches.filterMap (summary OpenSegment.start OpenSegment.accumulate)).map (OpenSegment.toRow car) =
      stretches.filterMap (segmentRow car) := by
  rw [List.map_filterMap]
  exact List.filterMap_congr fun stretch _ => toRow_summary car stretch

/-- The open segments have at most one row of a car. -/
theorem rowsOf_segments {segments : Dict Car (OpenSegment π)} (h : segments.keys.Nodup) :
    rowsOf car (segments.map fun (c, seg) => seg.toRow c) = ((segments.get? car).map (OpenSegment.toRow car)).toList := by
  induction segments with
  | nil => rfl
  | cons entry segments ih =>
      obtain ⟨c, seg⟩ := entry
      obtain ⟨hnot, hnodup⟩ := List.nodup_cons.mp h
      rw [List.map_cons, Dict.get?_cons]
      by_cases hcar : car = c
      · subst hcar
        have hnone : Dict.get? segments car = none := Dict.get?_eq_none.mpr hnot
        have hrest : rowsOf car (segments.map fun (c, seg) => seg.toRow c) = [] := by rw [ih hnodup, hnone]; rfl
        unfold rowsOf at hrest ⊢
        rw [List.filter_cons_of_pos (by simp [OpenSegment.toRow]), hrest]
        simp
      · have hrest := ih hnodup
        unfold rowsOf at hrest ⊢
        rw [List.filter_cons_of_neg (by simp [OpenSegment.toRow, Ne.symm hcar]), hrest]
        simp [hcar]

/-- **The stored segments** of a car are the longest stretches of its frames in one state, whatever the other cars send; the last
    one is open until the process stops. -/
theorem segments_stored (parse : String → Option (Option ℚ)) (defaultCar : Car) (heartbeatMs : ℚ) (events : List (Event π))
    (car : Car) :
    let p := Processor.run parse defaultCar heartbeatMs events
    let stretches := byKey Seen.state (CarView.run parse defaultCar car events).seen
    rowsOf car p.written = stretches.dropLast.filterMap (segmentRow car) ∧
      rowsOf car p.flush.written = stretches.filterMap (segmentRow car) := by
  intro p stretches
  have h : Follows car p (CarView.run parse defaultCar car events) := follows parse defaultCar heartbeatMs events car
  constructor
  · rw [h.closed, ← rows_filterMap]
    rfl
  · unfold Processor.flush
    rw [rowsOf_append, rowsOf_segments h.nodup.2, h.closed, h.opened, ← rows_filterMap, ← ended_append_current, List.map_append]
    cases current Seen.state OpenSegment.start OpenSegment.accumulate (CarView.run parse defaultCar car events).seen <;> simp

/-- **Each change of state is announced** by the snapshot that made it, the last message about a car has the state it is in, and all
    machines classify with the thresholds in force. -/
theorem state_announced (parse : String → Option (Option ℚ)) (defaultCar : Car) (heartbeatMs : ℚ) (events : List (Event π))
    (car : Car) :
    let p := Processor.run parse defaultCar heartbeatMs events
    let seen := (CarView.run parse defaultCar car events).seen
    announced car p.emitted = (byKey Seen.state seen).filterMap (fun stretch => stretch.head?.map Seen.snapshot) ∧
      (messagesOf car p.emitted).getLast?.map (fun message => message.snapshot.state) = seen.getLast?.map Seen.state ∧
      ∀ m, p.machines.get? car = some m → m.thresholds = p.thresholds := by
  intro p seen
  have h : Follows car p (CarView.run parse defaultCar car events) := follows parse defaultCar heartbeatMs events car
  refine ⟨?_, h.latest, fun m hm => ?_⟩
  · rw [h.changes, ended_append_current]
    refine List.filterMap_congr fun stretch _ => ?_
    -- the first snapshot of a stretch is kept
    have hkeep (b : Snapshot) (rest : List (Seen π)) : rest.foldl (fun b _ => b) b = b := by
      induction rest with
      | nil => rfl
      | cons _ rest ih => exact ih
    cases stretch with
    | nil => rfl
    | cons s rest => exact congrArg some (hkeep _ rest)
  · rw [h.thresholds]
    exact h.inUse m (h.machine ▸ hm)

end Invariant

end Lhre.CarStatus
