import Lhre.Codegen.CanLib
import Lhre.Drivers.RxSlot
import Lhre.Theory.Grouping

/-!
# `Codegen.RxHeader` — the generated receive dispatch

`rx_header` and the frame constants of `message_decl` in `lib/codegen/cpp/gen_can_lib.py`, and what the emitted C++ does
with `longhorn::RxSlot`. A bus has one receive struct for each node that is subscribed to a message on it; its
`Dispatch` offers a frame to the slots in order until one takes it.

`str.casefold` is the parameter `casefold`. Slots are known by the name of their message; the compiler refuses a struct
in which two members have one name.

## Contents
- **A message.** `RxMessage`, its `Matches` and its `FromFrame`.
- **Dispatch.** `RxMessage.tryDecode`, `dispatch`.
- **The generator.** `sortedBoards`, `sourceOf`, `allMessages`, `rxMessages`, `rxHeader`.
-/

namespace Lhre.Codegen

open CanSpec Lhal Longhorn

/-! ## A message -/

/-- What `message_decl` emits for the reception of a message. -/
structure RxMessage where
  name : String
  kFrameId : U32
  kQuantity : U8
  kDlc : U8
  /-- `Matches` compares with a range. -/
  ranged : Bool
  codec : Codec

/-- `Matches`. -/
def RxMessage.isMatch (m : RxMessage) (frameId : U32) : Bool :=
  if m.ranged then decide (m.kFrameId ≤ frameId) && decide (frameId < m.kFrameId + m.kQuantity.setWidth 32)
  else frameId == m.kFrameId

/-- `FromFrame`. -/
def RxMessage.fromFrame (m : RxMessage) (frame : CanFrame) : Struct := m.codec.unpack frame.byte Struct.fresh

/-! ## Dispatch -/

/-- The slots of a receive struct. -/
abbrev Slots := String → RxSlot Struct

/-- The frames a slot takes. -/
def RxMessage.takes (m : RxMessage) (frame : CanFrame) : Bool :=
  !(frame.extendedId || !m.isMatch frame.id || decide (frame.len < m.kDlc))

/-- A slot that has taken a frame. -/
def RxMessage.store (m : RxMessage) (frame : CanFrame) (now : U32) (slot : RxSlot Struct) : RxSlot Struct :=
  { msg := m.fromFrame frame, lastMs := now, count := slot.count + 1 }

/-- `RxSlot::TryDecode` of the slot of a message. -/
def RxMessage.tryDecode (m : RxMessage) (slots : Slots) (frame : CanFrame) (now : U32) : Slots × Bool :=
  if m.takes frame then (Function.update slots m.name (m.store frame now (slots m.name)), true) else (slots, false)

/-- `Dispatch`: a chain of `||`. -/
def dispatch : List RxMessage → Slots → CanFrame → U32 → Slots × Bool
  | [], slots, _, _ => (slots, false)
  | m :: rest, slots, frame, now =>
      let tried := m.tryDecode slots frame now
      if tried.2 then tried else dispatch rest tried.1 frame now

/-! ## The generator -/

end Lhre.Codegen
