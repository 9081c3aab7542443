import Mathlib.Tactic

/-!
# `Bevo.Publishd` — how the packet ids of the published stream are handed out

`publishd` asks the server for an id and leaves it in a semaphore file; `cand` reads the file once in its life, numbers
the snapshots it writes to the socket of `publishd` from there, and `publishd` forwards what it reads. The two processes
start and crash independently, and the file stays.

## Contents
- **State.** `Publishd`, `Link`, `PublishState`.
- **Steps.** `PublishEvent`, `PublishState.step`.
-/

namespace Lhre.Bevo

/-- Where a process of `publishd` is. While it is `waiting` it asks for an id, unless it needs none: `packetId` is the
    largest candidate it has heard of. -/
inductive Publishd
  | down
  | waiting (requireServerPacketId : Bool) (packetId : ℕ) (initialized : Bool)
  | running
deriving Repr, DecidableEq

/-- The stream of `publishd`: none, one to the running `cand`, or one whose `cand` is gone. -/
inductive Link
  | none
  | live
  | stale
deriving Repr, DecidableEq

/-- `STARTUP_SEMAPHORE_PATH`, the two processes, and the ids on their way: in the stream (`pipe`), over MQTT
    (`transit`), and at the server (`stored`). `cand` is absent while it is down; its `publishd_next_packet_id` is absent
    until it has read the file. -/
structure PublishState where
  semaphore : Option ℕ := none
  cand : Option (Option ℕ) := none
  publishd : Publishd := .down
  link : Link := .none
  pipe : List ℕ := []
  forwarded : List ℕ := []
  transit : List ℕ := []
  stored : List ℕ := []
  replies : List ℕ := []
deriving Repr, DecidableEq

def u64Max : ℕ := 0xFFFFFFFFFFFFFFFF
def i64Max : ℕ := 0x7FFFFFFFFFFFFFFF

def saturatingSucc (n : ℕ) : ℕ := min (n + 1) u64Max

/-- `read_publishd_start_packet_id`. -/
def PublishState.startPacketId (s : PublishState) : Option ℕ := s.semaphore.map (max · 1)

/-- What can happen next. A `cycle` of `ipc_server_loop` says whether a write to `publishd` succeeded; a snapshot that
    `publishd` reads is forwarded unless it falls into the publish interval or the outbound queue is full. -/
inductive PublishEvent
  | candStart
  | candCrash
  | publishdStart (requireServerPacketId : Bool)
  | publishdCrash
  | serverReply
  | hear (serverPacketId : ℕ)
  | writeSemaphore
  | connect
  | disconnect
  | cycle (sent : Bool)
  | read (keep : Bool)
  | store (packetId : ℕ)
deriving Repr, DecidableEq

/-- `handle_server_message`: the candidate is one above the id in the message. -/
def Publishd.handleServerMessage (serverPacketId : ℕ) : Publishd → Publishd
  | .waiting require packetId initialized =>
      let candidate := saturatingSucc serverPacketId
      if candidate ≤ packetId then .waiting require packetId initialized else .waiting require candidate true
  | other => other

/-- The id that `publishd` leaves in the semaphore, once it has one. -/
def Publishd.initialPacketId : Publishd → Option ℕ
  | .waiting true packetId true => some packetId
  | .waiting false _ _ => some 1
  | _ => none

/-- One cycle of `ipc_server_loop`, for a life of `cand` with the given `publishd_next_packet_id`. -/
def PublishState.cycle (s : PublishState) (sent : Bool) : Option ℕ → PublishState
  | none => { s with cand := some s.startPacketId }
  | some packetId =>
      if sent then { s with pipe := s.pipe ++ [min packetId i64Max], cand := some (some (saturatingSucc packetId)) }
      else s

def PublishState.step (s : PublishState) : PublishEvent → Option PublishState
  | .candStart => if s.cand = none then some { s with cand := some none } else none
  | .candCrash =>
      if s.cand = none then none
      else some { s with cand := none, link := if s.link = .live then .stale else s.link }
  | .publishdStart require =>
      if s.publishd = .down then some { s with semaphore := none, publishd := .waiting require 0 false } else none
  | .publishdCrash =>
      if s.publishd = .down then none else some { s with publishd := .down, link := .none, pipe := [] }
  | .serverReply => some { s with replies := s.replies ++ [s.stored.foldl max 0 + 1] }
  | .hear serverPacketId =>
      if serverPacketId ∈ s.replies then some { s with publishd := s.publishd.handleServerMessage serverPacketId }
      else none
  | .writeSemaphore =>
      s.publishd.initialPacketId.map fun packetId => { s with semaphore := some packetId, publishd := .running }
  | .connect =>
      if s.publishd = .running ∧ s.link = .none ∧ s.cand ≠ none then some { s with link := .live } else none
  | .disconnect => if s.link = .stale ∧ s.pipe = [] then some { s with link := .none } else none
  | .cycle sent =>
      -- a write can only succeed on a stream
      if sent ∧ s.link ≠ .live then none else s.cand.map (s.cycle sent)
  | .read keep =>
      match s.publishd, s.pipe with
      | .running, packetId :: rest =>
          if keep then
            some { s with pipe := rest, forwarded := s.forwarded ++ [packetId], transit := s.transit ++ [packetId] }
          else some { s with pipe := rest }
      | _, _ => none
  | .store packetId =>
      if packetId ∈ s.transit then some { s with transit := s.transit.erase packetId, stored := s.stored ++ [packetId] }
      else none

end Lhre.Bevo
