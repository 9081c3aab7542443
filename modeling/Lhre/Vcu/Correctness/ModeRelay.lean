import Lhre.Bevo.Ipc
import Lhre.Can.BitWalk
import Lhre.Vcu.Correctness.ModeRequests

/-!
# `Vcu.Correctness.ModeRelay` — a mode command from the pit to the torque tables

A mode that the pit asks for goes through `dashd` and `cand` to the bus, and from there to the VCU. Of the commands whose connection
broke nothing is seen; the last of the others decides which parameter set is in use outside DRIVE.

## Contents
- **On the bus.** `sentModes`, `canTxListener_relays`.
- **In the VCU.** `modeFrames`, `lastRequest_eq`, `eventMode_relayedFrame`.
- **`relayed_mode_in_use`.**
-/

namespace Lhre.Vcu

open Lhal Can Longhorn Bevo

/-! ## On the bus -/

/-- What `dashd` wrote for some mode commands: each on a connection of its own, that may have broken after some bytes. -/
def relayConnections (relays : List (U8 × ℕ)) : List (List U8) := relays.map fun relay => (modeRequest relay.1).take relay.2

/-- The modes whose request was written to its end. -/
def sentModes (relays : List (U8 × ℕ)) : List U8 := (relays.filter fun relay => 13 ≤ relay.2).map Prod.fst

theorem canTxListener_relays (relays : List (U8 × ℕ)) :
    canTxListener (relayConnections relays) = (sentModes relays).map relayedFrame := by
  induction relays with
  | nil => rfl
  | cons relay relays ih =>
      show canTx ((modeRequest relay.1).take relay.2) ++ canTxListener (relayConnections relays) = _
      rw [canTx_modeRequest, ih]
      unfold sentModes
      by_cases hk : 13 ≤ relay.2
      · rw [if_pos hk, List.filter_cons_of_pos (by simpa using hk)]
        rfl
      · rw [if_neg hk, List.filter_cons_of_neg (by simpa using hk)]
        rfl

/-! ## In the VCU -/

/-- The mode commands among the frames of the first `n` ticks. -/
def modeFrames (ρ : ℕ → Tick) (n : ℕ) : List CanFrame :=
  (List.range n).flatMap fun k => (ρ k).inputs.criticalFrames.filter (accepts VcuModeCommand)

theorem modeFrames_succ (ρ : ℕ → Tick) (n : ℕ) :
    modeFrames ρ (n + 1) = modeFrames ρ n ++ (ρ n).inputs.criticalFrames.filter (accepts VcuModeCommand) := by
  unfold modeFrames
  rw [List.range_succ, List.flatMap_append, List.flatMap_singleton]

/-- Without the shell, the last request is the last mode command on the bus. -/
theorem lastRequest_eq {ρ : ℕ → Tick} {n : ℕ} (hshell : ∀ k < n, shellRequest (ρ k).tasks = none) :
    lastRequest ρ n = (modeFrames ρ n).getLast?.map fun f => (Message.fromFrame f : VcuModeCommand).eventMode.toNat := by
  induction n with
  | zero => rfl
  | succ n ih =>
      rw [lastRequest, ih fun k hk => hshell k (Nat.lt_succ_of_lt hk), tickRequest, hshell n (Nat.lt_succ_self n),
        Option.none_or, modeFrames_succ, List.getLast?_append]
      unfold busRequest lastAccepted
      cases ((ρ n).inputs.criticalFrames.filter (accepts VcuModeCommand)).getLast? <;> rfl

/-- The VCU reads the mode that was relayed. -/
theorem eventMode_relayedFrame (mode : U8) : (Message.fromFrame (relayedFrame mode) : VcuModeCommand).eventMode = mode := by
  show (extract (relayedFrame mode).byte 0 8 false).setWidth 8 = mode
  apply BitVec.eq_of_getLsbD_eq
  intro j hj
  have hplace : BitLayout.place false 0 8 j = j := by
    rw [BitLayout.place_little]
    omega
  rw [BitVec.getLsbD_setWidth, getLsbD_extract (by decide), hplace, BitLayout.bitAt, Nat.div_eq_of_lt hj, Nat.mod_eq_of_lt hj]
  show (decide (j < 8) && (decide (j < 8) && mode.getLsbD j)) = mode.getLsbD j
  simp [hj]

/-- **The last mode that got through is the one in use.** In a run of the VCU in which no mode is set on the shell, and whose mode
commands up to a tick are the frames `cand` sends for the requests of `dashd`, some of whose connections may have broken: if the tick
ends outside DRIVE, the parameter set is that of the last mode whose request was written to its end. -/
theorem relayed_mode_in_use (env : Env) (ρ : ℕ → Tick) (hcount : Countable ρ) (n : ℕ) (relays : List (U8 × ℕ))
    (hbus : modeFrames ρ (n + 1) = canTxListener (relayConnections relays))
    (hshell : ∀ k < n + 1, shellRequest (ρ k).tasks = none) (hout : (after env ρ n).sm.state ≠ .drive) :
    (after env ρ n).params = requestedSet env ((sentModes relays).getLast?.map BitVec.toNat) := by
  have hdone : Requested env (runState env ρ n) (lastRequest ρ n) := requested_run hcount n
  have hset := (hdone.tick (ρ n) (hcount n)).2.2 hout
  have hlast : (tickRequest (ρ n)).or (lastRequest ρ n) = (sentModes relays).getLast?.map BitVec.toNat := by
    show lastRequest ρ (n + 1) = _
    rw [lastRequest_eq hshell, hbus, canTxListener_relays, List.getLast?_map, Option.map_map]
    congr 1
    funext mode
    exact congrArg BitVec.toNat (eventMode_relayedFrame mode)
  rw [← hlast]
  exact hset

/-- The first tick of a car at rest, with the frame of a relayed command. -/
def relayRun : ℕ → Tick
  | 0 => { inputs := { now := 0, criticalFrames := [relayedFrame 1] } }
  | _ => { inputs := { now := 10 } }

/-- The mode for acceleration came through, that for the skidpad did not. -/
theorem relayed_mode_in_use_first :
    (after restEnv relayRun 0).params = requestedSet restEnv ((sentModes [(1, 13), (2, 5)]).getLast?.map BitVec.toNat) := by
  refine relayed_mode_in_use restEnv relayRun (fun n => ?_) 0 [(1, 13), (2, 5)] (by decide) (by decide) (by decide)
  cases n with
  | zero => exact (by decide : 1 < 2 ^ 32)
  | succ n => exact (by decide : 0 < 2 ^ 32)

end Lhre.Vcu
