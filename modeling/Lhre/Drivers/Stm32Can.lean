import Lhre.Theory.Ring
import Lhre.Theory.Trace
import Lhre.Drivers.RxSlot

/-!
# `Drivers.Stm32Can` — sending on the STM32 CAN controller

The transmit side of `lhal::stm32::Can` (`drivers/lhal/stm32/can.cpp`): a frame goes straight to the hardware FIFO when
nothing waits, and otherwise to a software ring that `Send` and the TX-FIFO-empty interrupt drain. `Send` and the
interrupt handler run with interrupts off, so each is one step. Whether the hardware takes a frame is decided attempt by
attempt by an arbitrary stream of `HwAttempt`s.

## Contents
- **The frame in hardware.** `kDlcTable`, `lenToDlc` and `txMessage`.
- **The driver.** `Can`, `addToHardware`, `drainTxQueue`, `send` and `handleTxFifoEmpty`.
- **The ring.** `InOrder`: the hardware has the first accepted frames and the ring the rest, in order.
- **Transmit order.** `TxOrdered` and `tx_ordered`.
-/

namespace Lhre.Lhal.Stm32

/-! ## The frame in hardware -/

/-- `kDlcTable`; `FDCAN_DLC_BYTES_n` goes by its `n`. -/
def kDlcTable : List U8 := [0, 1, 2, 3, 4, 5, 6, 7, 8, 12, 16, 20, 24, 32, 48, 64]

/-- `LenToDlc`: the smallest DLC that fits `len`. -/
def lenToDlc (len : U8) : U8 := (kDlcTable.find? fun e => decide (len ≤ e)).getD 64

/-- The header and the payload `AddToHardware` gives the hardware FIFO. -/
structure TxMessage where
  identifier : U32
  extendedId : Bool
  dataLength : U8
  bitRateSwitch : Bool
  fdFormat : Bool
  data : Vector U8 64
deriving DecidableEq

/-- The message of a frame. -/
def txMessage (frame : CanFrame) : TxMessage where
  identifier := frame.id
  extendedId := frame.extendedId
  dataLength := lenToDlc frame.len
  bitRateSwitch := frame.bitrateSwitch
  fdFormat := frame.fd
  data := frame.data

/-! ## The driver -/

/-- `Can::kTxQueueDepth`. -/
def kTxQueueDepth : ℕ := 32

instance : NeZero kTxQueueDepth := ⟨by decide⟩

/-- How the hardware answers one attempt to add a frame: the free level of its FIFO, and whether the HAL takes the
    frame. -/
structure HwAttempt where
  freeLevel : ℕ
  addOk : Bool
deriving DecidableEq

/-- The transmit side of `Can`, the messages handed to the hardware FIFO so far, and the number of attempts made. -/
structure Can where
  txQueue : Fin kTxQueueDepth → CanFrame := fun _ => {}
  /-- next to send -/
  txHead : ℕ := 0
  txCount : ℕ := 0
  txDropped : U32 := 0
  handed : List TxMessage := []
  attempts : ℕ := 0

variable (hw : ℕ → HwAttempt)

/-- `Can::AddToHardware`; the flag is whether the hardware took the frame. -/
def Can.addToHardware (c : Can) (frame : CanFrame) : Can × Bool :=
  let attempt := hw c.attempts
  let c := { c with attempts := c.attempts + 1 }
  if attempt.freeLevel = 0 then (c, false)
  else if attempt.addOk then ({ c with handed := c.handed ++ [txMessage frame] }, true)
  else (c, false)

/-- At most `n` passes of the loop of `DrainTxQueue`, which makes at most `txCount`. -/
def Can.drainLoop : ℕ → Can → Can
  | 0, c => c
  | n + 1, c =>
      if 0 < c.txCount then
        let added := c.addToHardware hw (c.txQueue (Ring.slot kTxQueueDepth c.txHead))
        if added.2 then
          drainLoop n
            { added.1 with txHead := (c.txHead + 1) % kTxQueueDepth, txCount := c.txCount - 1 }
        else added.1
      else c

/-- `Can::DrainTxQueue`. -/
def Can.drainTxQueue (c : Can) : Can := c.drainLoop hw c.txCount

/-- `Can::Send`. -/
def Can.send (c : Can) (frame : CanFrame) : Can × Status :=
  -- queue behind anything already waiting so frames leave in order
  let direct := if c.txCount = 0 then c.addToHardware hw frame else (c, false)
  if direct.2 then (direct.1, .ok)
  else
    let c := direct.1
    if c.txCount = kTxQueueDepth then ({ c with txDropped := c.txDropped + 1 }, .busy)
    else
      (Can.drainTxQueue hw
        { c with
          txQueue := Function.update c.txQueue (Ring.slot kTxQueueDepth (c.txHead + c.txCount)) frame
          txCount := c.txCount + 1 },
       .ok)

/-- `Can::HandleTxFifoEmpty`. -/
def Can.handleTxFifoEmpty (c : Can) : Can := c.drainTxQueue hw

/-- The software queue, next frame first. -/
def Can.queued (c : Can) : List CanFrame :=
  Ring.contents c.txQueue c.txHead c.txCount

/-! ## The ring -/

/-- The frames `sent` are those handed to the hardware and then those in the ring, in order. -/
structure InOrder (c : Can) (sent : List CanFrame) : Prop where
  order : ∃ done, sent = done ++ c.queued ∧ c.handed = done.map txMessage
  head : c.txHead < kTxQueueDepth
  count : c.txCount ≤ kTxQueueDepth

section Ring

variable {hw} {c : Can} {sent : List CanFrame}

/-- **An attempt hands the frame over or leaves everything as it was.** -/
theorem Can.addToHardware_cases (c : Can) (frame : CanFrame) :
    c.addToHardware hw frame = ({ c with attempts := c.attempts + 1 }, false) ∨
      c.addToHardware hw frame =
        ({ c with attempts := c.attempts + 1, handed := c.handed ++ [txMessage frame] }, true) := by
  unfold Can.addToHardware
  dsimp only
  split
  · left
    rfl
  · split
    · right
      rfl
    · left
      rfl

/-- Handing over the frame at the head. -/
theorem InOrder.handOver (h : InOrder c sent) (hcount : 0 < c.txCount) (attempts : ℕ) :
    InOrder { c with
      attempts := attempts
      handed := c.handed ++ [txMessage (c.txQueue (Ring.slot kTxQueueDepth c.txHead))]
      txHead := (c.txHead + 1) % kTxQueueDepth
      txCount := c.txCount - 1 } sent := by
  obtain ⟨done, hsent, hhanded⟩ := h.order
  have hqueued : c.queued = c.txQueue (Ring.slot kTxQueueDepth c.txHead) ::
      Ring.contents c.txQueue ((c.txHead + 1) % kTxQueueDepth) (c.txCount - 1) := by
    unfold Can.queued
    obtain ⟨n, hn⟩ := Nat.exists_eq_succ_of_ne_zero hcount.ne'
    rw [hn, Ring.contents_mod]
    exact Ring.contents_succ c.txHead n
  refine ⟨⟨done ++ [c.txQueue (Ring.slot kTxQueueDepth c.txHead)], ?_, ?_⟩, Nat.mod_lt _ (by decide), ?_⟩
  · rw [hsent, hqueued, List.append_assoc]
    rfl
  · show c.handed ++ [_] = _
    rw [hhanded, List.map_append, List.map_singleton]
  · have := h.count
    show c.txCount - 1 ≤ kTxQueueDepth
    omega

/-- Putting a frame behind the last. -/
theorem InOrder.enqueue (h : InOrder c sent) (hroom : c.txCount < kTxQueueDepth) (frame : CanFrame) :
    InOrder { c with
      txQueue := Function.update c.txQueue (Ring.slot kTxQueueDepth (c.txHead + c.txCount)) frame
      txCount := c.txCount + 1 } (sent ++ [frame]) := by
  obtain ⟨done, hsent, hhanded⟩ := h.order
  refine ⟨⟨done, ?_, hhanded⟩, h.head, hroom⟩
  rw [hsent, List.append_assoc]
  exact congrArg (done ++ ·) (Ring.contents_update hroom frame).symm

/-- Handing a frame over past an empty ring. -/
theorem InOrder.direct (h : InOrder c sent) (hempty : c.txCount = 0) (frame : CanFrame) (attempts : ℕ) :
    InOrder { c with attempts := attempts, handed := c.handed ++ [txMessage frame] } (sent ++ [frame]) := by
  obtain ⟨done, hsent, hhanded⟩ := h.order
  have hqueued : c.queued = [] := by
    unfold Can.queued
    rw [hempty]
    rfl
  refine ⟨⟨done ++ [frame], ?_, ?_⟩, h.head, h.count⟩
  · show sent ++ [frame] = done ++ [frame] ++ c.queued
    rw [hsent, hqueued, List.append_nil, List.append_nil]
  · show c.handed ++ [txMessage frame] = _
    rw [hhanded, List.map_append, List.map_singleton]

/-- An attempt by itself, or a drop, changes nothing that counts. -/
theorem InOrder.untouched (h : InOrder c sent) (attempts : ℕ) (dropped : U32) :
    InOrder { c with attempts := attempts, txDropped := dropped } sent :=
  ⟨h.order, h.head, h.count⟩

/-- Draining keeps the order. -/
theorem InOrder.drainLoop (h : InOrder c sent) (n : ℕ) : InOrder (c.drainLoop hw n) sent := by
  induction n generalizing c with
  | zero => exact h
  | succ n ih =>
      unfold Can.drainLoop
      split
      · rename_i hcount
        rcases @Can.addToHardware_cases hw c (c.txQueue (Ring.slot kTxQueueDepth c.txHead)) with heq | heq
        · simp only [heq, Bool.false_eq_true, if_false]
          exact h.untouched _ _
        · simp only [heq, if_true]
          exact ih (h.handOver hcount _)
      · exact h

/-- The loop of `DrainTxQueue` runs until the ring is empty or the hardware refuses: the passes never run out. -/
theorem Can.drainTxQueue_eq (c : Can) : c.drainTxQueue hw =
    if 0 < c.txCount then
      let added := c.addToHardware hw (c.txQueue (Ring.slot kTxQueueDepth c.txHead))
      if added.2 then
        Can.drainTxQueue hw { added.1 with txHead := (c.txHead + 1) % kTxQueueDepth, txCount := c.txCount - 1 }
      else added.1
    else c := by
  unfold Can.drainTxQueue
  cases hcount : c.txCount with
  | zero => rfl
  | succ n =>
      rw [Can.drainLoop, hcount]
      rfl

/-- **What a send does.** Refused by a full ring; handed over past an empty ring; or put in the ring, which is then
    drained. -/
theorem Can.send_cases (c : Can) (frame : CanFrame) :
    (c.txCount = kTxQueueDepth ∧ c.send hw frame = ({ c with txDropped := c.txDropped + 1 }, .busy)) ∨
      (c.txCount = 0 ∧ c.send hw frame =
        ({ c with attempts := c.attempts + 1, handed := c.handed ++ [txMessage frame] }, .ok)) ∨
      (c.txCount ≠ kTxQueueDepth ∧ ∃ attempts, c.send hw frame =
        (Can.drainTxQueue hw
          { c with
            attempts := attempts
            txQueue := Function.update c.txQueue (Ring.slot kTxQueueDepth (c.txHead + c.txCount)) frame
            txCount := c.txCount + 1 }, .ok)) := by
  unfold Can.send
  by_cases hempty : c.txCount = 0
  · have hne : c.txCount ≠ kTxQueueDepth := by
      rw [hempty]
      decide
    rw [if_pos hempty]
    rcases @Can.addToHardware_cases hw c frame with heq | heq
    · -- the hardware refuses the frame, and it goes to the ring
      right
      right
      refine ⟨hne, c.attempts + 1, ?_⟩
      simp only [heq, Bool.false_eq_true, if_false, if_neg hne]
    · right
      left
      refine ⟨hempty, ?_⟩
      simp only [heq, if_true]
  · rw [if_neg hempty]
    by_cases hfull : c.txCount = kTxQueueDepth
    · left
      refine ⟨hfull, ?_⟩
      simp only [Bool.false_eq_true, if_false, if_pos hfull]
    · right
      right
      refine ⟨hfull, c.attempts, ?_⟩
      simp only [Bool.false_eq_true, if_false, if_neg hfull]

end Ring

/-! ## Transmit order -/

/-- The driver, the frames `Send` accepted, in order, and how many it refused. -/
structure Traced where
  can : Can := {}
  accepted : List CanFrame := []
  refused : ℕ := 0

/-- A call of `Send`, or the TX-FIFO-empty interrupt. -/
inductive CanEvent
  | send (frame : CanFrame)
  | txFifoEmpty

/-- One event. A frame is accepted when its `Send` returns success. -/
def Traced.step (s : Traced) : CanEvent → Traced
  | .send frame =>
      let sent := s.can.send hw frame
      { can := sent.1
        accepted := if isOk sent.2 then s.accepted ++ [frame] else s.accepted
        refused := if isOk sent.2 then s.refused else s.refused + 1 }
  | .txFifoEmpty => { s with can := s.can.handleTxFifoEmpty hw }

/-- What holds after every event. -/
structure TxOrdered (s : Traced) : Prop where
  /-- the frames accepted are those handed to the hardware and then those in the ring, each once and in order -/
  order : ∃ done, s.accepted = done ++ s.can.queued ∧ s.can.handed = done.map txMessage
  /-- `Send` reports busy exactly when the ring is full, and then changes nothing but the drop counter -/
  busy : ∀ frame, ((s.can.send hw frame).2 = .ok ∧ s.can.txCount ≠ kTxQueueDepth) ∨
    ((s.can.send hw frame).2 = .busy ∧ s.can.txCount = kTxQueueDepth ∧
      (s.can.send hw frame).1 = { s.can with txDropped := s.can.txDropped + 1 })
  count : s.can.txCount ≤ kTxQueueDepth
  head : s.can.txHead < kTxQueueDepth
  /-- the slot behind the last frame is in the ring too -/
  tail : (s.can.txHead + s.can.txCount) % kTxQueueDepth < kTxQueueDepth
  dropped : s.can.txDropped = BitVec.ofNat 32 s.refused

section Order

variable {hw} {s : Traced}

/-- The drop counter and the order after an event. -/
structure TxInv (s : Traced) : Prop where
  inOrder : InOrder s.can s.accepted
  dropped : s.can.txDropped = BitVec.ofNat 32 s.refused

theorem Can.drainLoop_txDropped (n : ℕ) (c : Can) : (c.drainLoop hw n).txDropped = c.txDropped := by
  induction n generalizing c with
  | zero => rfl
  | succ n ih =>
      unfold Can.drainLoop
      split
      · rcases @Can.addToHardware_cases hw c (c.txQueue (Ring.slot kTxQueueDepth c.txHead)) with heq | heq
        · simp only [heq, Bool.false_eq_true, if_false]
        · simp only [heq, if_true]
          exact ih _
      · rfl

/-- **Each event keeps the order.** -/
theorem TxInv.step (h : TxInv s) (e : CanEvent) : TxInv (s.step hw e) := by
  cases e with
  | send frame =>
      unfold Traced.step
      rcases @Can.send_cases hw s.can frame with ⟨hfull, heq⟩ | ⟨hempty, heq⟩ | ⟨hroom, attempts, heq⟩
      · simp only [heq]
        refine ⟨h.inOrder.untouched _ _, ?_⟩
        show s.can.txDropped + 1 = BitVec.ofNat 32 (s.refused + 1)
        rw [h.dropped, BitVec.ofNat_add]
        rfl
      · simp only [heq]
        exact ⟨h.inOrder.direct hempty frame _, h.dropped⟩
      · simp only [heq]
        have hlt : s.can.txCount < kTxQueueDepth := lt_of_le_of_ne h.inOrder.count hroom
        refine ⟨InOrder.drainLoop ((h.inOrder.untouched attempts s.can.txDropped).enqueue hlt frame) _, ?_⟩
        exact (Can.drainLoop_txDropped _ _).trans h.dropped
  | txFifoEmpty => exact ⟨h.inOrder.drainLoop _, (Can.drainLoop_txDropped _ _).trans h.dropped⟩

theorem TxInv.txOrdered (h : TxInv s) : TxOrdered hw s where
  order := h.inOrder.order
  busy frame := by
    rcases @Can.send_cases hw s.can frame with ⟨hfull, heq⟩ | ⟨hempty, heq⟩ | ⟨hroom, attempts, heq⟩
    · right
      exact ⟨by rw [heq], hfull, by rw [heq]⟩
    · left
      refine ⟨by rw [heq], ?_⟩
      rw [hempty]
      decide
    · left
      exact ⟨by rw [heq], hroom⟩
  count := h.inOrder.count
  head := h.inOrder.head
  tail := Nat.mod_lt _ (by decide)
  dropped := h.dropped

end Order

/-- **Frames leave in the order they were sent.** After every interleaving of sends and interrupts, whatever the
    hardware takes and refuses. -/
theorem tx_ordered (ρ : ℕ → CanEvent) (n : ℕ) : TxOrdered hw (Trace.stateAt (Traced.step hw) {} ρ n) := by
  have hinit : TxInv {} := ⟨⟨⟨[], rfl, rfl⟩, by decide, by decide⟩, rfl⟩
  have hinv : TxInv (Trace.stateAt (Traced.step hw) {} ρ n) := by
    apply Trace.always hinit
    intro s e h
    exact h.step e
  exact hinv.txOrdered

end Lhre.Lhal.Stm32
