import Lhre.Autonomy.MissionManager
import Lhre.Autonomy.Safety

/-!
# `Autonomy.SafetyLoop` — the safety node and the mission manager together

The two nodes tick on their own timers and exchange messages on three topics, each delivered in order after any delay. The
mission manager hears heartbeats from the safety node only, and the safety node mission states from the mission manager
only; an emergency may also come from elsewhere, and a reset reaches each node on its own.

## Contents
- **The loop.** `SafetyLoop`, with the messages in flight.
- **Steps.** `LoopEvent`, `SafetyLoop.step`.
-/

namespace Lhre.Autonomy

variable {F : Type}

/-- The two nodes, and the messages in flight on each topic, oldest first. -/
structure SafetyLoop (F : Type) where
  safety : SafetyNode
  mission : MissionManager F
  heartbeats : List ℕ := []
  statuses : List String := []
  emergencies : List Bool := []

/-- Both nodes as they start. -/
def SafetyLoop.init (ops : Doubles F) (start : ℚ) : SafetyLoop F :=
  { safety := SafetyNode.init start, mission := MissionManager.init ops }

/-- A step of one of the nodes on its own, or the delivery of the oldest message of a topic. -/
inductive LoopEvent (F : Type)
  | safety (e : SafetyEvent) (own : ∀ missionState, e ≠ .status missionState)
  | mission (e : MissionEvent F) (own : e ≠ .heartbeat)
  | deliverHeartbeat
  | deliverStatus
  | deliverEmergency

/-- What a step of the safety node publishes. -/
def SafetyNode.publishes (cfg : SafetyConfig) (node : SafetyNode) (now : ℚ) : SafetyEvent → Option SafetyOutput
  | .tick => some (node.tick cfg now).2
  | _ => none

/-- What a step of the mission manager publishes. -/
def MissionManager.publishes (ops : Doubles F) (cfg : MissionConfig) (s : MissionManager F) (now : ℚ) :
    MissionEvent F → Option MissionManager.Published
  | .tick => some (s.tick ops cfg now).2
  | _ => none

/-- A step of the loop at a time. -/
def SafetyLoop.step (ops : Doubles F) (mission : MissionConfig) (cfg : SafetyConfig) (fn : SafetyMath) (loop : SafetyLoop F)
    (e : ℚ × LoopEvent F) : SafetyLoop F :=
  match e.2 with
  | .safety own _ =>
      let published := loop.safety.publishes cfg e.1 own
      { loop with
        safety := loop.safety.step cfg fn (e.1, own)
        heartbeats := loop.heartbeats ++ (published.bind (·.heartbeat)).toList
        emergencies := loop.emergencies ++ (published.filter (·.emergency)).toList.map fun _ => true }
  | .mission own _ =>
      let published := loop.mission.publishes ops mission e.1 own
      { loop with
        mission := loop.mission.step ops mission (e.1, own)
        statuses := loop.statuses ++ (published.map (·.status.text)).toList }
  | .deliverHeartbeat =>
      match loop.heartbeats with
      | [] => loop
      | _ :: rest => { loop with mission := loop.mission.step ops mission (e.1, .heartbeat), heartbeats := rest }
  | .deliverStatus =>
      match loop.statuses with
      | [] => loop
      | text :: rest => { loop with safety := loop.safety.step cfg fn (e.1, .status text), statuses := rest }
  | .deliverEmergency =>
      match loop.emergencies with
      | [] => loop
      | data :: rest => { loop with mission := loop.mission.step ops mission (e.1, .emergency data), emergencies := rest }

end Lhre.Autonomy
