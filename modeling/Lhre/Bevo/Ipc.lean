import Lhre.Drivers.RxSlot
import Lhre.Theory.ByteFile
import Lhre.Theory.Framing

/-!
# `Bevo.Ipc` — the sockets of `cand`

`ipc_server_loop` of `apps/BEVO/cand/main.rs` writes each snapshot to every reader that is connected, behind its length; `dashd`,
`loggerd` and `publishd` read it with one and the same loop. `can_tx_listener_loop` reads requests of thirteen bytes and hands frames
to the bus; `dashd` relays mode commands to it. A stream may end anywhere.

Each reader gets the snapshots that were broadcast since it connected, in order and without a gap, up to the point where its
connection broke. What a broken connection leaves of a request is never sent.

## Contents
- **Snapshots.** `ipcFrame`, `readExact`, `readMessage`, `ipcMessages`.
- **The server.** `IpcStream`, `IpcEvent`, `IpcServer.step`, `ipcRun`.
- **Requests.** `modeRequest`, `txFrame`, `canTx`, `canTxListener`.
- **Framings.** `ipcFraming`, `ipcMessages_eq`, `recordFraming`, `canTx_eq`.
- **Connections.** `Carries`, `Carries.write`, `Carries.run`.
- **Requests on the bus.** `txFrame_modeRequest`, `canTx_modeRequest`.
- **Main result.** `reader_in_order`.
-/

namespace Lhre.Bevo

open Lhal

/-! ## Snapshots -/

/-- `u32::to_be_bytes` of a length, `as u32`. -/
def toBeBytes (n : ℕ) : List U8 := (ByteFile.le 4 n).reverse

/-- `u32::from_be_bytes`. -/
def fromBeBytes (bytes : List U8) : ℕ := ByteFile.ofLe bytes.reverse

/-- `frame_len` and `buffer`. -/
def ipcFrame (buffer : List U8) : List U8 := toBeBytes buffer.length ++ buffer

/-- `read_exact` on a stream that ends. -/
def readExact (n : ℕ) (stream : List U8) : Option (List U8 × List U8) :=
  if stream.length < n then none else some (stream.take n, stream.drop n)

/-- One message: its length, and as many bytes. -/
def readMessage (stream : List U8) : Option (List U8 × List U8) :=
  (readExact 4 stream).bind fun (lenBuf, rest) => readExact (fromBeBytes lenBuf) rest

/-- What a reader takes off a stream, one item after the other, until it ends; an item has a byte at least. -/
def readLoop (next : List U8 → Option (List U8 × List U8)) : ℕ → List U8 → List (List U8)
  | 0, _ => []
  | fuel + 1, stream =>
      match next stream with
      | none => []
      | some (item, rest) => item :: readLoop next fuel rest

/-- The reading loop of `dashd`, `loggerd` and `publishd` on one connection. -/
def ipcMessages (stream : List U8) : List (List U8) := readLoop readMessage stream.length stream

/-! ## The server -/

/-- A connection of the server, with all that was written to it; it is dropped after a write that failed. -/
structure IpcStream where
  bytes : List U8 := []
  live : Bool := true
deriving DecidableEq, Repr

/-- The `retain_mut` of one stream: the writes succeed, or stop after some bytes. -/
def IpcStream.write (buffer : List U8) (failedAt : Option ℕ) (s : IpcStream) : IpcStream :=
  if s.live then
    match failedAt with
    | none => { s with bytes := s.bytes ++ ipcFrame buffer }
    | some k => { bytes := s.bytes ++ (ipcFrame buffer).take k, live := false }
  else s

/-- A reader connects, or a cycle of `ipc_server_loop` writes a snapshot; `failedAt` says which streams fail, and where. -/
inductive IpcEvent
  | connect
  | cycle (buffer : List U8) (failedAt : ℕ → Option ℕ)

/-- One event, on the connections in the order in which they were made. -/
def ipcStep (streams : List IpcStream) : IpcEvent → List IpcStream
  | .connect => streams ++ [{}]
  | .cycle buffer failedAt => streams.mapIdx fun i s => s.write buffer (failedAt i)

/-- The connections after some events. -/
def ipcRun (streams : List IpcStream) (events : List IpcEvent) : List IpcStream := events.foldl ipcStep streams

/-- The snapshot of an event. -/
def IpcEvent.buffer? : IpcEvent → Option (List U8)
  | .connect => none
  | .cycle buffer _ => some buffer

/-- The snapshots of some events. -/
def broadcasts (events : List IpcEvent) : List (List U8) := events.filterMap IpcEvent.buffer?

/-! ## Requests -/

/-- `VCU_MODE_COMMAND_ID`. -/
def vcuModeCommandId : ℕ := 0x029

/-- The request that `send_can_mode_command` writes. -/
def modeRequest (eventMode : U8) : List U8 := ByteFile.le 4 vcuModeCommandId ++ [8, eventMode] ++ List.replicate 7 0

/-- The frame of a request of thirteen bytes; `none` where the id is none of a standard frame. -/
def txFrame (request : List U8) : Option CanFrame :=
  let id := ByteFile.ofLe (request.take 4)
  let dlc := min (request.getD 4 0).toNat 8
  let data := (request.drop 5).take dlc
  if id ≤ 0x7FF then some { id := BitVec.ofNat 32 id, len := BitVec.ofNat 8 dlc, data := payload data } else none

/-- The frames that the requests of one connection hand to the bus. -/
def canTx (stream : List U8) : List CanFrame := (readLoop (readExact 13) stream.length stream).filterMap txFrame

/-- `can_tx_listener_loop`: one connection after the other. -/
def canTxListener (connections : List (List U8)) : List CanFrame := connections.flatMap canTx

open Lhal

/-! ## Framings -/

theorem length_toBeBytes (n : ℕ) : (toBeBytes n).length = 4 := by
  simp [toBeBytes]

theorem fromBeBytes_toBeBytes (n : ℕ) (hn : n < 2 ^ 32) : fromBeBytes (toBeBytes n) = n := by
  rw [fromBeBytes, toBeBytes, List.reverse_reverse, ByteFile.ofLe_le]
  exact Nat.mod_eq_of_lt hn

/-- Snapshots behind their lengths. -/
def ipcFraming : Framing U8 (List U8) :=
  Framing.lengthPrefixed 4 (2 ^ 32) toBeBytes fromBeBytes (by decide) length_toBeBytes fromBeBytes_toBeBytes

/-- Requests of thirteen bytes. -/
def recordFraming : Framing U8 (List U8) := Framing.fixedSize 13 (by decide)

theorem readMessage_eq (stream : List U8) : readMessage stream = ipcFraming.next stream := by
  show Option.bind (readExact 4 stream) _ = if stream.length < 4 then none else _
  unfold readExact
  split <;> rfl

theorem readLoop_eq {F : Framing U8 (List U8)} {next : List U8 → Option (List U8 × List U8)} (h : ∀ s, next s = F.next s)
    (fuel : ℕ) (stream : List U8) : readLoop next fuel stream = F.readWith fuel stream := by
  induction fuel generalizing stream with
  | zero => rfl
  | succ fuel ih =>
      rw [readLoop, Framing.readWith, h]
      cases F.next stream with
      | none => rfl
      | some taken => exact congrArg (taken.1 :: ·) (ih taken.2)

theorem ipcMessages_eq (stream : List U8) : ipcMessages stream = ipcFraming.read stream := readLoop_eq readMessage_eq _ _

theorem canTx_eq (stream : List U8) : canTx stream = (recordFraming.read stream).filterMap txFrame :=
  congrArg (List.filterMap txFrame) (readLoop_eq (F := recordFraming) (fun _ => rfl) _ _)

/-! ## Connections -/

/-- What was written to a connection is a part of some snapshots, and all of them while it lives. -/
structure Carries (buffers : List (List U8)) (s : IpcStream) : Prop where
  part : s.bytes <+: ipcFraming.stream buffers
  whole : s.live = true → s.bytes = ipcFraming.stream buffers

theorem Carries.write {buffers : List (List U8)} {s : IpcStream} (h : Carries buffers s) (buffer : List U8)
    (failedAt : Option ℕ) : Carries (buffers ++ [buffer]) (s.write buffer failedAt) := by
  have hnext : ipcFraming.stream (buffers ++ [buffer]) = ipcFraming.stream buffers ++ ipcFrame buffer := by
    rw [Framing.stream_append, Framing.stream_cons, Framing.stream_nil, List.append_nil]
    rfl
  unfold IpcStream.write
  cases hlive : s.live with
  | false =>
      refine ⟨?_, fun hdead => ?_⟩
      · rw [hnext]
        exact h.part.trans (List.prefix_append _ _)
      · exact absurd (hlive.symm.trans hdead) (by decide)
  | true =>
      have hbytes := h.whole hlive
      cases failedAt with
      | none =>
          refine ⟨?_, fun _ => ?_⟩
          · rw [hnext]
            show s.bytes ++ _ <+: _
            rw [hbytes]
          · rw [hnext]
            show s.bytes ++ _ = _
            rw [hbytes]
      | some k =>
          refine ⟨?_, fun hdead => by simp at hdead⟩
          rw [hnext]
          show s.bytes ++ _ <+: _
          rw [hbytes]
          exact (List.prefix_append_right_inj _).mpr (List.take_prefix _ _)

/-- **A connection over a run.** -/
theorem Carries.run {buffers : List (List U8)} {s : IpcStream} (h : Carries buffers s) {streams : List IpcStream} {i : ℕ}
    (hi : streams[i]? = some s) (events : List IpcEvent) :
    ∃ s', (ipcRun streams events)[i]? = some s' ∧ Carries (buffers ++ broadcasts events) s' := by
  induction events generalizing streams s buffers with
  | nil =>
      refine ⟨s, hi, ?_⟩
      rw [broadcasts, List.filterMap_nil, List.append_nil]
      exact h
  | cons e events ih =>
      cases e with
      | connect =>
          have hlt : i < streams.length := (List.getElem?_eq_some_iff.mp hi).1
          exact ih h (by rw [ipcStep, List.getElem?_append_left hlt]; exact hi)
      | cycle buffer failedAt =>
          have hnext : (ipcStep streams (.cycle buffer failedAt))[i]? = some (s.write buffer (failedAt i)) := by
            rw [ipcStep, List.getElem?_mapIdx, hi]
            rfl
          obtain ⟨s', hs', hcarries⟩ := ih (h.write buffer (failedAt i)) hnext
          refine ⟨s', hs', ?_⟩
          rw [List.append_assoc] at hcarries
          exact hcarries

/-! ## Requests -/

theorem length_modeRequest (mode : U8) : (modeRequest mode).length = 13 := by
  simp [modeRequest]

/-- The frame of a relayed mode command. -/
def relayedFrame (mode : U8) : CanFrame := { id := 41, len := 8, data := payload [mode, 0, 0, 0, 0, 0, 0, 0] }

theorem txFrame_modeRequest (mode : U8) : txFrame (modeRequest mode) = some (relayedFrame mode) := by
  have hid : ByteFile.ofLe ((modeRequest mode).take 4) = 41 := by
    rw [modeRequest, List.append_assoc]
    rfl
  unfold txFrame
  rw [hid]
  rfl

/-- **A request is sent if all of it came**, and nothing is sent of a part. -/
theorem canTx_modeRequest (mode : U8) (k : ℕ) :
    canTx ((modeRequest mode).take k) = if 13 ≤ k then [relayedFrame mode] else [] := by
  have hstream : recordFraming.stream [modeRequest mode] = modeRequest mode := List.append_nil _
  have hvalid : ∀ m ∈ [modeRequest mode], recordFraming.valid m := by
    intro m hm
    rw [List.mem_singleton.mp hm]
    exact length_modeRequest mode
  rw [canTx_eq]
  split
  case isTrue hk =>
    rw [List.take_of_length_le (by rw [length_modeRequest]; exact hk), ← hstream, Framing.read_stream hvalid]
    rw [List.filterMap_cons, txFrame_modeRequest, List.filterMap_nil]
  case isFalse hk =>
    have hpart : (modeRequest mode).take k <+: recordFraming.stream [modeRequest mode] := by
      rw [hstream]
      exact List.take_prefix _ _
    obtain ⟨n, -, hread, hwhole, -⟩ := Framing.readWith_whole hvalid hpart le_rfl
    have hnone : n = 0 := by
      by_contra hpos
      have hone : [modeRequest mode].take n = [modeRequest mode] := List.take_of_length_le (Nat.one_le_iff_ne_zero.mpr hpos)
      rw [hone, hstream] at hwhole
      have hlen := hwhole.length_le
      rw [List.length_take, length_modeRequest] at hlen
      omega
    rw [Framing.read, hread, hnone]
    rfl

/-! ## Main result -/

/-- **A reader gets the snapshots in order.** Whatever connections come and go, and wherever writes fail: what a reader takes off
its connection, read to any point, is the first of the snapshots broadcast since it connected, whole and without a gap; and all of
them, while the connection lives. -/
theorem reader_in_order (before after : List IpcEvent) (hsize : ∀ buffer ∈ broadcasts after, buffer.length < 2 ^ 32) :
    ∃ s, (ipcRun [] (before ++ .connect :: after))[(ipcRun [] before).length]? = some s ∧
      (∀ part, part <+: s.bytes → ∃ k, ipcMessages part = (broadcasts after).take k) ∧
      (s.live = true → ipcMessages s.bytes = broadcasts after) := by
  have hnew : (ipcRun [] before ++ [({} : IpcStream)])[(ipcRun [] before).length]? = some {} := by
    rw [List.getElem?_append_right le_rfl, Nat.sub_self]
    rfl
  have hempty : Carries [] ({} : IpcStream) := ⟨List.prefix_refl _, fun _ => rfl⟩
  obtain ⟨s, hs, hcarries⟩ := hempty.run hnew after
  rw [List.nil_append] at hcarries
  refine ⟨s, ?_, fun part hpart => ?_, fun hlive => ?_⟩
  · show (List.foldl ipcStep [] (before ++ .connect :: after))[_]? = _
    rw [List.foldl_append]
    exact hs
  · obtain ⟨k, -, hread, -⟩ := Framing.read_cut hsize (hpart.trans hcarries.part)
    exact ⟨k, (ipcMessages_eq part).trans hread⟩
  · rw [ipcMessages_eq, hcarries.whole hlive]
    exact Framing.read_stream hsize

theorem reader_in_order_late :
    ∃ s, (ipcRun [] ([.connect, .cycle [7] fun _ => none] ++ .connect :: [.cycle [1, 2] fun _ => none]))[1]? = some s ∧
      (s.live = true → ipcMessages s.bytes = [[1, 2]]) := by
  obtain ⟨s, hs, -, hlive⟩ := reader_in_order [.connect, .cycle [7] fun _ => none] [.cycle [1, 2] fun _ => none] (by decide)
  exact ⟨s, hs, hlive⟩

end Lhre.Bevo
