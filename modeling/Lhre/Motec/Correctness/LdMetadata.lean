import Lhre.Motec.LdFile

/-!
# `Motec.Correctness.LdMetadata` — the metadata of a written file

The header is 1890 bytes long and the vehicle block is at 1762, so the two overlap whatever the metadata is, and the end of
the header, which is the event and the session, is what the vehicle block has there: the vehicle's id and zeros. All that
`writeLd` packs otherwise reads back.

## Contents
- **Blocks.** `laterBlocks`, which are apart, and `headerBlock_not_apart`.
- **What is expected.** `MetadataRoundTrips`.
- **The header.** `unpack_header_iff`, and `metadata_reads_back`.
-/

namespace Lhre.Motec

open ByteFile

variable (log : DataLog) (metadata : String → Option String) (d : UtcDate) (parseInt : String → ℤ)

/-! ## Blocks -/

/-- The blocks behind the header with their places: three fixed ones, then the channels' headers and their data. -/
def laterBlocks : List (ℕ × List U8) :=
  [(vehiclePtr, vehicleBlock metadata parseInt), (venuePtr, venueBlock metadata), (eventPtr, eventBlock metadata)] ++
    placed headerPtr (log.blocks.map (·.1) ++ log.blocks.map (·.2))

/-- A block of a channel is behind the fixed blocks. -/
theorem apart_of_channel {place : ℕ} {block : List U8} (h : place + block.length ≤ headerPtr) {p : ℕ × List U8}
    (hp : p ∈ placed headerPtr (log.blocks.map (·.1) ++ log.blocks.map (·.2))) : Apart (place, block) p :=
  Or.inl (le_trans h (le_of_mem_placed hp))

/-- **The blocks behind the header** do not overlap. -/
theorem pairwise_laterBlocks : (laterBlocks log metadata parseInt).Pairwise Apart := by
  have hb := length_vehicleBlock metadata parseInt
  have hc := length_venueBlock metadata
  have he := length_eventBlock metadata
  have hplaces : vehiclePtr = 1762 ∧ venuePtr = 5078 ∧ eventPtr = 8180 ∧ headerPtr = 11336 := ⟨rfl, rfl, rfl, rfl⟩
  refine List.Pairwise.cons (fun p hp => ?_) (List.Pairwise.cons (fun p hp => ?_) (List.Pairwise.cons (fun p hp => ?_) ?_))
  · rcases List.mem_cons.mp hp with rfl | hp
    · exact Or.inl (by dsimp only; omega)
    · rcases List.mem_cons.mp hp with rfl | hp
      · exact Or.inl (by dsimp only; omega)
      · exact apart_of_channel log (by omega) hp
  · rcases List.mem_cons.mp hp with rfl | hp
    · exact Or.inl (by dsimp only; omega)
    · exact apart_of_channel log (by omega) hp
  · exact apart_of_channel log (by omega) hp
  · exact pairwise_placed _ _

/-- **The header** reaches into the vehicle block. -/
theorem headerBlock_not_apart : ¬ Apart (0, headerBlock log metadata d) (vehiclePtr, vehicleBlock metadata parseInt) := by
  have ha := length_headerBlock log metadata d
  have hplace : vehiclePtr = 1762 := rfl
  unfold Apart
  dsimp only
  omega

/-! ## What is expected -/

/-- The blocks do not overlap, and each of the four fixed ones reads back as what was packed. -/
structure MetadataRoundTrips : Prop where
  apart : ((0, headerBlock log metadata d) :: laterBlocks log metadata parseInt).Pairwise Apart
  header : unpack headFmt (writeLd log metadata d parseInt) 0 = some (fieldsOf headTokens (headerValues log metadata d))
  vehicle : unpack vehicleFmt (writeLd log metadata d parseInt) vehiclePtr =
    some (fieldsOf vehicleTokens (vehicleValues metadata parseInt))
  venue : unpack venueFmt (writeLd log metadata d parseInt) venuePtr = some (fieldsOf venueTokens (venueValues metadata))
  event : unpack eventFmt (writeLd log metadata d parseInt) eventPtr = some (fieldsOf eventTokens (eventValues metadata))

/-! ## The header -/

/-- The field of a text of the metadata. -/
def metadataField (key fallback : String) : List U8 := textField 64 (fixed ((metadata key).getD fallback) 64)

/-- The fields that were packed into the header. -/
theorem fieldsOf_header : fieldsOf headTokens (headerValues log metadata d) =
    fieldsOf headFront (headerValues log metadata d) ++
      [.text (metadataField metadata "event" "Telemetry Export"), .text (metadataField metadata "session" "")] := by
  rw [headTokens, fieldsOf_append]
  rfl

/-- **The header reads back** where its event is written like the vehicle's id and its session is empty. -/
theorem unpack_header_iff :
    unpack headFmt (writeLd log metadata d parseInt) 0 = some (fieldsOf headTokens (headerValues log metadata d)) ↔
      metadataField metadata "event" "Telemetry Export" = metadataField metadata "vehicle_id" "Orion" ∧
        metadataField metadata "session" "" = List.replicate 64 0 := by
  rw [unpack_header, fieldsOf_header, Option.some.injEq, List.append_right_inj, List.cons.injEq, List.cons.injEq,
    Field.text.injEq, Field.text.injEq]
  constructor
  · rintro ⟨hevent, hsession, -⟩
    exact ⟨hevent.symm, hsession.symm⟩
  · rintro ⟨hevent, hsession⟩
    exact ⟨hevent.symm, hsession.symm, rfl⟩

/-- **The metadata of a file** never round-trips: the header and the vehicle block overlap. The header reads back but for its
event and its session, which read as the vehicle's id and as zeros; the other blocks read back and do not overlap. -/
theorem metadata_reads_back :
    ¬ MetadataRoundTrips log metadata d parseInt ∧
      ¬ Apart (0, headerBlock log metadata d) (vehiclePtr, vehicleBlock metadata parseInt) ∧
      (laterBlocks log metadata parseInt).Pairwise Apart ∧
      unpack headFmt (writeLd log metadata d parseInt) 0 = some (fieldsOf headFront (headerValues log metadata d) ++
        [.text (metadataField metadata "vehicle_id" "Orion"), .text (List.replicate 64 0)]) ∧
      (unpack headFmt (writeLd log metadata d parseInt) 0 = some (fieldsOf headTokens (headerValues log metadata d)) ↔
        metadataField metadata "event" "Telemetry Export" = metadataField metadata "vehicle_id" "Orion" ∧
          metadataField metadata "session" "" = List.replicate 64 0) ∧
      unpack vehicleFmt (writeLd log metadata d parseInt) vehiclePtr =
        some (fieldsOf vehicleTokens (vehicleValues metadata parseInt)) ∧
      unpack venueFmt (writeLd log metadata d parseInt) venuePtr = some (fieldsOf venueTokens (venueValues metadata)) ∧
      unpack eventFmt (writeLd log metadata d parseInt) eventPtr = some (fieldsOf eventTokens (eventValues metadata)) := by
  have hoverlap := headerBlock_not_apart log metadata d parseInt
  refine ⟨fun h => hoverlap ?_, hoverlap, pairwise_laterBlocks log metadata parseInt,
    unpack_header log metadata d parseInt, unpack_header_iff log metadata d parseInt, unpack_vehicle log metadata d parseInt,
    unpack_venue log metadata d parseInt, unpack_event log metadata d parseInt⟩
  exact (List.pairwise_cons.mp h.apart).1 _ List.mem_cons_self

/-- The metadata of an export: an event and a session, the rest left out. -/
def exportMetadata (key : String) : Option String :=
  if key = "event" then some "Michigan" else if key = "session" then some "Endurance" else none

/-- In an export the event and the session of the header are lost. -/
theorem not_metadata_round_trips :
    ¬ MetadataRoundTrips ⟨"log", []⟩ exportMetadata ⟨1, 0, 2026, 0, 0, 0⟩ (fun _ => 0) ∧
      unpack headFmt (writeLd ⟨"log", []⟩ exportMetadata ⟨1, 0, 2026, 0, 0, 0⟩ fun _ => 0) 0 ≠
        some (fieldsOf headTokens (headerValues ⟨"log", []⟩ exportMetadata ⟨1, 0, 2026, 0, 0, 0⟩)) := by
  constructor
  · intro h
    exact headerBlock_not_apart _ _ _ _ ((List.pairwise_cons.mp h.apart).1 _ List.mem_cons_self)
  · intro h
    have hevent := ((unpack_header_iff _ _ _ _).mp h).1
    revert hevent
    decide

end Lhre.Motec
