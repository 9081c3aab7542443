import Lhre.Theory.Dict
import Mathlib.Data.List.Sort

/-!
# `Trackside.SessionRegistry` — the sessions that the devices share

`viewer_tool/src/lib/trackside/sessionRegistry.ts` on each device, `SessionStore` and the session routes of `logsync` on the server,
and the requests between them. A push may arrive any number of times or not at all, and the list of sessions a device reads may be
old when it arrives. What the server adds to its copy of a record, `updated_ms`, is kept in its row: nobody else reads it.

## Contents
- **The registry of a device.** `Session`, `saveSessionRegistry`, `upsertSession`, `patchSession`, `reconcile`.
- **The store of the server.** `Row`, `SessionStore.upsert`, `SessionStore.list`, `listSessions`.
- **The devices and the server.** `Device`, `Net`, `Event`, `Net.step`, `run`.
-/

namespace Lhre.Trackside

variable {β : Type}

/-! ## The registry of a device -/

/-- `TracksideSessionInfo`; `rest` is what the registry carries and does not read. -/
structure Session (β : Type) where
  id : String
  startedAt : ℤ
  updatedAt : Option ℤ
  rest : β
deriving DecidableEq, Repr

/-- `updatedAt ?? 0`. -/
def Session.rank (s : Session β) : ℤ := s.updatedAt.getD 0

/-- `MAX_SESSIONS`. -/
def maxSessions : ℕ := 60

/-- `saveSessionRegistry`. -/
def saveSessionRegistry (list : List (Session β)) : List (Session β) :=
  (list.insertionSort fun a b => b.startedAt ≤ a.startedAt).take maxSessions

/-- `upsertSession`: the registry, and what is pushed. -/
def upsertSession (info : Session β) (now : ℤ) (registry : List (Session β)) : List (Session β) × Session β :=
  let stamped := { info with updatedAt := some now }
  let list := registry.filter fun s => s.id ≠ info.id
  (saveSessionRegistry (list ++ [stamped]), stamped)

/-- The list with its first session of an id changed, and that session. -/
def changeFirst (id : String) (f : Session β → Session β) : List (Session β) → Option (List (Session β) × Session β)
  | [] => none
  | s :: list =>
      if s.id = id then some (f s :: list, f s)
      else (changeFirst id f list).map fun (list', changed) => (s :: list', changed)

/-- `patchSession`; nothing happens where there is no such session. -/
def patchSession (id : String) (patch : β → β) (now : ℤ) (registry : List (Session β)) :
    Option (List (Session β) × Session β) :=
  (changeFirst id (fun s => { s with rest := patch s.rest, updatedAt := some now }) registry).map
    fun (list, changed) => (saveSessionRegistry list, changed)

/-- The body of `pushSessionToServer`. -/
def pushBody (info : Session β) (now : ℤ) : Session β := { info with updatedAt := some (info.updatedAt.getD now) }

/-- One record of the server in the loop of `syncRegistryWithServer`. -/
def adopt (byId : Dict String (Session β)) (srv : Session β) : Dict String (Session β) :=
  match byId.get? srv.id with
  | none => byId.set srv.id srv
  | some loc => if loc.rank ≤ srv.rank then byId.set srv.id srv else byId

/-- Whether a record of the device is to be pushed again. -/
def ahead (server : List (Session β)) (loc : Session β) : Bool :=
  match server.find? fun s => s.id = loc.id with
  | none => true
  | some srv => decide (srv.rank < loc.rank)

/-- `syncRegistryWithServer` between its `await` and its return: `merged` and `toPush`. -/
def reconcile (loc server : List (Session β)) : List (Session β) × List (Session β) :=
  ((server.foldl adopt (Dict.index Session.id loc)).map Prod.snd, loc.filter (ahead server))

/-! ## The store of the server -/

/-- A row of `sessions`; the dictionary has it under the id of its record. -/
structure Row (β : Type) where
  updatedMs : ℤ
  data : Session β
deriving DecidableEq, Repr

/-- `SessionStore.MAX_SESSIONS`. -/
def maxRows : ℕ := 300

/-- `ORDER BY updated_ms DESC`. -/
def byUpdate (rows : Dict String (Row β)) : Dict String (Row β) :=
  rows.insertionSort fun a b => b.2.updatedMs ≤ a.2.updatedMs

/-- `SessionStore.upsert`, with the time of `upsert_session`. -/
def SessionStore.upsert (rows : Dict String (Row β)) (data : Session β) (now : ℤ) : Dict String (Row β) :=
  let rows := rows.set data.id { updatedMs := now, data := data }
  let kept := ((byUpdate rows).take maxRows).map Prod.fst
  rows.filter fun row => row.1 ∈ kept

/-- `SessionStore.list`. -/
def SessionStore.list (rows : Dict String (Row β)) : List (Session β) := (byUpdate rows).map fun row => row.2.data

/-- `list_sessions`, as `fetchSessionsFromServer` reads it. -/
def listSessions (rows : Dict String (Row β)) : List (Session β) :=
  (Dict.index Session.id (SessionStore.list rows)).map Prod.snd

/-! ## The devices and the server -/

/-- A device: its registry, and the syncs that wait for the server with what they loaded before. -/
structure Device (β : Type) where
  registry : List (Session β) := []
  pending : List (List (Session β) × Option (List (Session β))) := []

/-- The devices, the server and the pushes that are under way. -/
structure Net (δ β : Type) where
  device : δ → Device β
  server : Dict String (Row β)
  pushes : List (Session β)

/-- What can happen. -/
inductive Event (δ β : Type) where
  | upsert (d : δ) (info : Session β) (now : ℤ)
  | patch (d : δ) (id : String) (patch : β → β) (now : ℤ)
  | syncStart (d : δ)
  | answer (d : δ) (i : ℕ) (reached : Bool)
  | syncFinish (d : δ) (i : ℕ) (now : ℤ)
  | deliver (i : ℕ) (now : ℤ)
  | drop (i : ℕ)

variable {δ : Type} [DecidableEq δ]

/-- The state with one device changed. -/
def Net.setDevice (s : Net δ β) (d : δ) (dev : Device β) : Net δ β := { s with device := Function.update s.device d dev }

/-- An edit of a device: its registry is saved, and the record is on its way. -/
def Net.edit (s : Net δ β) (d : δ) (edited : List (Session β) × Session β) : Net δ β :=
  { s.setDevice d { s.device d with registry := edited.1 } with pushes := s.pushes ++ [edited.2] }

/-- One event; one that cannot happen changes nothing. -/
def Net.step (s : Net δ β) : Event δ β → Net δ β
  | .upsert d info now => s.edit d (upsertSession info now (s.device d).registry)
  | .patch d id patch now =>
      match patchSession id patch now (s.device d).registry with
      | none => s
      | some edited => s.edit d edited
  | .syncStart d =>
      s.setDevice d { s.device d with pending := (s.device d).pending ++ [((s.device d).registry, none)] }
  | .answer d i reached =>
      let found := if reached then listSessions s.server else []
      s.setDevice d { s.device d with pending := (s.device d).pending.modify i fun sync => (sync.1, some found) }
  | .syncFinish d i now =>
      match (s.device d).pending[i]? with
      | some (loc, some server) =>
          let (merged, toPush) := reconcile loc server
          { s.setDevice d { registry := saveSessionRegistry merged, pending := (s.device d).pending.eraseIdx i } with
            pushes := s.pushes ++ toPush.map fun loc => pushBody loc now }
      | _ => s
  | .deliver i now =>
      match s.pushes[i]? with
      | none => s
      | some body => { s with server := SessionStore.upsert s.server body now }
  | .drop i => { s with pushes := s.pushes.eraseIdx i }

/-- Some events. -/
def run (s : Net δ β) (events : List (Event δ β)) : Net δ β := events.foldl Net.step s

/-- Nobody has a session yet. -/
def Net.empty : Net δ β := { device := fun _ => {}, server := [], pushes := [] }

end Lhre.Trackside
