import Lhre.Theory.Dict
import Lhre.Theory.Steps

/-!
# `Motec.Presence` — who leads a live session

`viewer_tool/src/app/api/motec/live/presence/route.ts`. The server keeps the clients it has heard of, the requests for
control, the designated leader and the lock; each request prunes the silent clients and acts on what is left. A handler is
suspended where it awaits its body, and a `force` again where it awaits the token of its session.

## Contents
- **The state.** `Client`, `PresenceState`, `away`, `prune`, `leaderId`, `snapshot`.
- **A request.** `Body`, `leave`, `touch`, `act`, `post`, and `force`, the part of it behind the token.
- **The server.** `World` with its suspended handlers, and `World.step`.
-/

namespace Lhre.Presence

variable {Id : Type} [LinearOrder Id]

/-! ## The state -/

/-- `Client`. An id is a text that is not empty, of which only the order matters. -/
structure Client (Id : Type) where
  id : Id
  firstSeen : ℕ
  lastSeen : ℕ
  name : String
deriving DecidableEq

/-- `PresenceState`. -/
structure PresenceState (Id : Type) where
  clients : List (Client Id) := []
  requests : Dict Id ℕ := []
  designated : Option Id := none
  locked : Bool := false
deriving DecidableEq

/-- `TTL_MS`. -/
def ttlMs : ℕ := 12000
/-- `MAX_CLIENTS`. -/
def maxClients : ℕ := 3

/-- `clients.get`. -/
def PresenceState.get (s : PresenceState Id) (id : Id) : Option (Client Id) := s.clients.find? fun c => c.id = id

/-- `clients.has`. -/
def PresenceState.has (s : PresenceState Id) (id : Id) : Bool := s.clients.any fun c => c.id = id

/-- `away`. -/
def away (c : Option (Client Id)) (now : ℕ) : Bool :=
  match c with
  | none => true
  | some c => decide (ttlMs < now - c.lastSeen)

/-- The clients that `prune` keeps. -/
def PresenceState.keeps (s : PresenceState Id) (now : ℕ) (c : Client Id) : Bool :=
  !(away (some c) now && !(s.locked && decide (s.designated = some c.id)))

/-- `prune`. -/
def prune (s : PresenceState Id) (now : ℕ) : PresenceState Id :=
  let clients := s.clients.filter (s.keeps now)
  let requests := s.requests.filter fun entry => clients.any fun c => c.id = entry.1
  match s.designated with
  | none => { s with clients, requests }
  | some id =>
      if clients.any fun c => c.id = id then { s with clients, requests }
      else { clients, requests, designated := none, locked := false }

/-- Whether a client claimed before another one. -/
def Client.before (c leader : Client Id) : Bool :=
  decide (c.firstSeen < leader.firstSeen) || (decide (c.firstSeen = leader.firstSeen) && decide (c.id < leader.id))

/-- One round of the loop of `leaderId`. -/
def claim (leader : Option (Client Id)) (c : Client Id) : Option (Client Id) :=
  match leader with
  | none => some c
  | some l => if c.before l then some c else some l

/-- The client that claimed first. -/
def earliest (clients : List (Client Id)) : Option (Client Id) := clients.foldl claim none

/-- `leaderId`. -/
def leaderId (s : PresenceState Id) : Option Id :=
  match s.designated with
  | none => (earliest s.clients).map (·.id)
  | some id => if s.has id then some id else (earliest s.clients).map (·.id)

/-- The roles of a snapshot. -/
inductive Role
  | leader
  | mirror
deriving DecidableEq, Repr

/-- What a client is told. -/
structure Snapshot (Id : Type) where
  role : Role
  leader : Option Id
  clients : ℕ
  max : ℕ
  requests : List (Id × String)
  requested : Bool
  locked : Bool
  leaderName : String
  leaderAway : Bool
deriving DecidableEq

/-- Whether the leader is locked and away. -/
def leaderAway (s : PresenceState Id) (now : ℕ) : Bool := s.locked && away ((leaderId s).bind s.get) now

/-- `snapshot`. -/
def snapshot (s : PresenceState Id) (clientId : Id) (now : ℕ) : Snapshot Id :=
  { role := if leaderId s = some clientId then .leader else .mirror
    leader := leaderId s
    clients := s.clients.length
    max := maxClients
    requests := s.requests.map fun entry => (entry.1, ((s.get entry.1).map (·.name)).getD "")
    requested := s.requests.any fun entry => entry.1 = clientId
    locked := s.locked
    leaderName := (((leaderId s).bind s.get).map (·.name)).getD ""
    leaderAway := leaderAway s now }

/-! ## A request -/

/-- The actions of a request. -/
inductive Action
  | request
  | grant
  | deny
  | force
  | claimStarter
  | lock
  | unlock
  | take
deriving DecidableEq, Repr

/-- The body of a request; a field that is no text, or an empty id, is left out. -/
structure Body (Id : Type) where
  clientId : Option Id
  name : String := ""
  leave : Bool := false
  action : Option Action := none
  target : Option Id := none
deriving DecidableEq

/-- The answer to a request. -/
inductive Reply (Id : Type)
  | clientIdRequired
  | left (clients max : ℕ) (leader : Option Id)
  | full (clients max : ℕ) (leader : Option Id)
  | state (snapshot : Snapshot Id)
deriving DecidableEq

/-- `requests.delete`. -/
def withdraw (requests : Dict Id ℕ) (id : Id) : Dict Id ℕ := requests.filter fun entry => entry.1 ≠ id

/-- A client leaves; a locked leader keeps its seat. -/
def leave (s : PresenceState Id) (clientId : Id) : PresenceState Id :=
  let requests := withdraw s.requests clientId
  if s.locked ∧ s.designated = some clientId then
    { s with requests, clients := s.clients.map fun c => if c.id = clientId then { c with lastSeen := 0 } else c }
  else
    { s with
      requests
      clients := s.clients.filter fun c => c.id ≠ clientId
      designated := if s.designated = some clientId then none else s.designated }

/-- A client is heard of, unless it is new and there are too many. -/
def touch (s : PresenceState Id) (clientId : Id) (name : String) (now : ℕ) : Option (PresenceState Id) :=
  if s.has clientId then
    some { s with
      clients := s.clients.map fun c =>
        if c.id = clientId then { c with lastSeen := now, name := if name = "" then c.name else name } else c }
  else if s.clients.length < maxClients then
    some { s with clients := s.clients ++ [{ id := clientId, firstSeen := now, lastSeen := now, name }] }
  else none

/-- The designated leader is set, and its request for control withdrawn. -/
def designate (s : PresenceState Id) (id : Id) : PresenceState Id :=
  { s with designated := some id, requests := withdraw s.requests id }

/-- The action of a client's request, `force` apart. -/
def act (s : PresenceState Id) (clientId : Id) (now : ℕ) (body : Body Id) : PresenceState Id :=
  match body.action, body.target with
  | some .request, _ => if leaderId s ≠ some clientId then { s with requests := Dict.set clientId now s.requests } else s
  | some .grant, some target => if leaderId s = some clientId ∧ s.has target then designate s target else s
  | some .deny, some target =>
      if leaderId s = some clientId then { s with requests := withdraw s.requests target } else s
  | some .lock, _ => if leaderId s = some clientId then { s with designated := some clientId, locked := true } else s
  | some .unlock, _ => if leaderId s = some clientId then { s with locked := false } else s
  | some .take, _ => if leaderAway s now then designate s clientId else s
  | some .claimStarter, _ => if !s.locked || leaderAway s now then designate s clientId else s
  | _, _ => s

/-- `POST` from where its body is there: its answer, unless it awaits a token. -/
def post (s : PresenceState Id) (now : ℕ) (body : Body Id) : PresenceState Id × Option (Reply Id) :=
  match body.clientId with
  | none => (s, some .clientIdRequired)
  | some clientId =>
      let name := String.ofList (body.name.toList.take 40)
      let s := prune s now
      if body.leave then
        let s := leave s clientId
        (s, some (.left s.clients.length maxClients (leaderId s)))
      else
        match touch s clientId name now with
        | none => (s, some (.full s.clients.length maxClients (leaderId s)))
        | some s =>
            if body.action = some .force then (s, none)
            else
              let s := act s clientId now body
              (s, some (.state (snapshot s clientId now)))

/-- `POST` from where the token of a `force` is there. -/
def force (s : PresenceState Id) (clientId : Id) (isAdmin : Bool) : PresenceState Id :=
  if isAdmin then designate s clientId else s

/-! ## The server -/

/-- A handler with the time it read at its start and the body it awaits. -/
structure Handler (Id : Type) where
  now : ℕ
  body : Body Id
deriving DecidableEq

/-- The server: the handlers without a body, those that await a token, and those that had their body, newest first. -/
structure World (Id : Type) where
  state : PresenceState Id := {}
  clock : ℕ
  unread : List (Handler Id) := []
  waiting : List (Handler Id) := []
  handled : List (Handler Id) := []
deriving DecidableEq

/-- What can happen: a request arrives at a time, the body of a handler does, or the token of one. -/
inductive Event (Id : Type)
  | arrive (now : ℕ) (body : Body Id)
  | read (i : ℕ)
  | token (i : ℕ) (isAdmin : Bool)
deriving DecidableEq

/-- One event, if it can happen. -/
def World.step (w : World Id) : Event Id → Option (World Id)
  | .arrive now body => if w.clock ≤ now then some { w with clock := now, unread := w.unread ++ [⟨now, body⟩] } else none
  | .read i =>
      w.unread[i]?.map fun h =>
        let (state, reply) := post w.state h.now h.body
        { w with
          state
          unread := w.unread.eraseIdx i
          waiting := if reply = none then w.waiting ++ [h] else w.waiting
          handled := h :: w.handled }
  | .token i isAdmin =>
      w.waiting[i]?.bind fun h =>
        h.body.clientId.map fun clientId =>
          { w with state := force w.state clientId isAdmin, waiting := w.waiting.eraseIdx i }

/-- The answer that an event lets a handler give. -/
def World.answer (w : World Id) : Event Id → Option (Reply Id)
  | .arrive _ _ => none
  | .read i => w.unread[i]?.bind fun h => (post w.state h.now h.body).2
  | .token i isAdmin =>
      w.waiting[i]?.bind fun h =>
        h.body.clientId.map fun clientId => .state (snapshot (force w.state clientId isAdmin) clientId h.now)

end Lhre.Presence
