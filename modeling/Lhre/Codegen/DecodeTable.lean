import Lhre.Codegen.Telemetry
import Lhre.Codegen.Wire

/-!
# `Codegen.DecodeTable` — what is in the decode table

The decode table is rendered or refused as a whole. Here a table that was rendered is taken apart into its packets and
their signals, each in the place of the signal it was rendered from.

## Contents
- **Signals.** `Rendered`, `telemetryBits`, `conversion_width`.
- **Messages.** `RenderedPacket`.
- **Tables.** `renderJson_eq_some`.
-/

namespace Lhre.Codegen

open CanSpec

instance : Inhabited SignalJson := ⟨⟨0, 0, "", 0, "", 0, false, none, none⟩⟩
instance : Inhabited PacketJson := ⟨⟨0, "", [], 0, 0, "", []⟩⟩

/-! ## Signals -/

/-- The telemetry-bound bits of a bitfield signal, with their indexes. -/
def telemetryBits (reg : Registries) (s : Signal) : List (Telemetry × ℕ) :=
  match s.bitfieldType with
  | none => []
  | some name =>
      ((Dict.get? reg.bitfields name).map BitfieldType.bit).getD [] |>.zipIdx.filterMap
        fun (bit, index) => bit.telemetry.map fun t => (t, index)

/-- **What an entry says of its signal**, and what the renderer asks of the signal. -/
structure Rendered (reg : Registries) (types : Dict FieldKey FieldType) (s : Signal) (j : SignalJson) : Prop where
  little : s.enc.big = false
  aligned : s.enc.startBit % 8 = 0
  offset : s.enc.offset = 0
  startByte : j.startByte = s.enc.startBit / 8
  length : j.length = max 1 ((s.enc.bitLength + 7) / 8)
  precision : j.precision = effectiveScale s.enc
  conversion : signalConvType s = some j.convType
  protobuf : signalProtobuf types s = some j.protobuf
  bits : ∀ name, s.bitfieldType = some name →
    j.bitfieldEncoding = some ((telemetryBits reg s).map fun bit => ⟨bit.1.field, bit.2, bit.1.id⟩)

theorem renderBits_eq (b : BitfieldType) :
    renderBits b = (b.bit.zipIdx.filterMap fun (bit, index) => bit.telemetry.map fun t => (t, index)).map
      fun bit => ⟨bit.1.field, bit.2, bit.1.id⟩ := by
  unfold renderBits
  rw [List.map_filterMap]
  apply List.filterMap_congr
  rintro ⟨bit, index⟩ _
  show _ = Option.map _ (Option.map _ _)
  rw [Option.map_map]
  rfl

theorem bitfieldType_eq_some {s : Signal} {name : String} :
    s.bitfieldType = some name ↔ s.kind = some (.bitfield name) := by
  unfold Signal.bitfieldType
  constructor
  · intro h
    split at h
    · rename_i name' hkind
      rw [hkind, Option.some.inj h]
    · exact absurd h (by simp)
  · intro h
    rw [h]

theorem signalBits_eq_some {reg : Registries} {s : Signal} {bits : Option (List BitJson)} {name : String}
    (h : signalBits reg s = some bits) (hname : s.bitfieldType = some name) :
    bits = some ((telemetryBits reg s).map fun bit => ⟨bit.1.field, bit.2, bit.1.id⟩) := by
  have hkind := bitfieldType_eq_some.mp hname
  unfold signalBits at h
  rw [hkind] at h
  obtain ⟨b, hb, rfl⟩ := Option.map_eq_some_iff.mp h
  unfold telemetryBits
  rw [hname]
  simp only [hb, Option.map_some, Option.getD_some]
  rw [renderBits_eq]

theorem renderSignal_eq_some {reg : Registries} {types : Dict FieldKey FieldType} {sp : Signal × ℕ} {j : SignalJson}
    (h : renderSignal reg types sp = some j) : Rendered reg types sp.1 j := by
  unfold renderSignal at h
  by_cases horder : sp.1.enc.byteOrder = .bigEndian
  · simp [horder] at h
  · by_cases haligned : sp.1.enc.startBit % 8 = 0
    · by_cases hoffset : sp.1.enc.offset = 0
      · simp only [horder, haligned, hoffset, if_false, ne_eq, not_true_eq_false] at h
        obtain ⟨convType, hconv, h⟩ := Option.bind_eq_some_iff.mp h
        obtain ⟨protobuf, hprotobuf, h⟩ := Option.bind_eq_some_iff.mp h
        obtain ⟨bits, hbits, rfl⟩ := Option.map_eq_some_iff.mp h
        refine ⟨?_, haligned, hoffset, rfl, rfl, rfl, hconv, hprotobuf, fun name hname => signalBits_eq_some hbits hname⟩
        show (sp.1.enc.byteOrder == ByteOrder.bigEndian) = false
        rw [beq_eq_false_iff_ne]
        exact horder
      · simp [horder, haligned, hoffset] at h
    · simp [horder, haligned] at h

/-- The names of the conversions. -/
def conversionName (sign : Sign) (width : ℕ) : String :=
  match sign, width with
  | .signed, 8 => "int8"
  | .signed, 16 => "int16"
  | .signed, 32 => "int32"
  | .signed, _ => "int64"
  | .unsigned, 8 => "uint8"
  | .unsigned, 16 => "uint16"
  | .unsigned, 32 => "uint32"
  | .unsigned, _ => "uint64"

/-- The conversion of a number: the renderer knows four widths, and takes a narrow signal to be a byte. -/
structure Conversion (s : Signal) (convType : String) (width : ℕ) : Prop where
  eq : width = max 8 s.enc.bitLength
  known : width = 8 ∨ width = 16 ∨ width = 32 ∨ width = 64
  name : convType = conversionName s.enc.sign width

theorem signalConvType_number {s : Signal} {convType : String} (h : signalConvType s = some convType)
    (hnumber : s.bitfieldType = none) : ∃ width, Conversion s convType width := by
  have hconv : (let width := max 8 s.enc.bitLength
      let lead := if s.enc.sign = .signed then "int" else "uint"
      if width = 8 then some (lead ++ "8") else if width = 16 then some (lead ++ "16")
      else if width = 32 then some (lead ++ "32") else if width = 64 then some (lead ++ "64") else none) =
        some convType := by
    rw [← h]
    unfold signalConvType
    unfold Signal.bitfieldType at hnumber
    cases hkind : s.kind with
    | none => rfl
    | some kind =>
        cases kind with
        | physical unit => rfl
        | enumType name => rfl
        | boolean value => rfl
        | bitfield name => simp [hkind] at hnumber
  have hknown : ∀ width, max 8 s.enc.bitLength = width → (width = 8 ∨ width = 16 ∨ width = 32 ∨ width = 64) →
      convType = conversionName s.enc.sign width := by
    rintro width hwidth (rfl | rfl | rfl | rfl)
    all_goals
      simp only [hwidth, Nat.reduceEqDiff, if_true, if_false, Option.some.injEq] at hconv
      rw [← hconv]
      cases s.enc.sign <;> rfl
  have hwidths : max 8 s.enc.bitLength = 8 ∨ max 8 s.enc.bitLength = 16 ∨ max 8 s.enc.bitLength = 32 ∨
      max 8 s.enc.bitLength = 64 := by
    by_contra hno
    simp only [not_or] at hno
    simp [hno] at hconv
  exact ⟨_, rfl, hwidths, hknown _ rfl hwidths⟩

theorem signalConvType_bitfield {s : Signal} {name : String} (h : s.bitfieldType = some name) :
    signalConvType s = some "bitfield" := by
  unfold signalConvType
  rw [bitfieldType_eq_some.mp h]

/-- A number is never converted as a bitfield. -/
theorem Conversion.ne_bitfield {s : Signal} {convType : String} {width : ℕ} (h : Conversion s convType width) :
    convType ≠ "bitfield" := by
  rw [h.name]
  obtain hw | hw | hw | hw := h.known <;> rw [hw] <;> cases s.enc.sign <;> decide

/-! ## Messages -/

/-- **What a packet says of its message**: one entry for each signal, in its place. -/
structure RenderedPacket (reg : Registries) (types : Dict FieldKey FieldType) (m : CanMessage) (p : PacketJson) : Prop where
  packetId : p.packetId = m.canId
  quantity : p.quantity = effectiveQuantity m
  bus : p.bus = m.bus
  bytes : ∃ g, p.bytes = (places m).map g ∧ ∀ sp ∈ places m, Rendered reg types sp.1 (g sp)

theorem renderMessage_eq_some {reg : Registries} {types : Dict FieldKey FieldType} {m : CanMessage} {p : PacketJson}
    (h : renderMessage reg types m = some p) : RenderedPacket reg types m p := by
  unfold renderMessage at h
  obtain ⟨signals, hsignals, rfl⟩ := Option.map_eq_some_iff.mp h
  obtain ⟨g, rfl, hg⟩ := ListPass.exists_map_of_mapM hsignals
  exact ⟨rfl, rfl, rfl, g, rfl, fun sp hsp => renderSignal_eq_some (hg sp hsp)⟩

/-! ## Tables -/

theorem mem_sortedMessages {spec : Spec} {m : CanMessage} : m ∈ sortedMessages spec ↔ ∃ fm ∈ spec.messages, fm.2 = m := by
  unfold sortedMessages
  rw [(List.perm_insertionSort _ _).mem_iff, List.mem_map]

/-- **What a table holds**: the packets of the messages, in the order of their ids. -/
theorem renderJson_eq_some {spec : Spec} {packets : List PacketJson} (h : renderJson spec = some packets) :
    ∃ types packet, fieldTypes spec = some types ∧ packets = (sortedMessages spec).map packet ∧
      ∀ fm ∈ spec.messages, renderMessage spec.registries types fm.2 = some (packet fm.2) := by
  unfold renderJson at h
  obtain ⟨types, htypes, h⟩ := Option.bind_eq_some_iff.mp h
  obtain ⟨packet, rfl, hpacket⟩ := ListPass.exists_map_of_mapM h
  exact ⟨types, packet, htypes, rfl, fun fm hfm => hpacket fm.2 (mem_sortedMessages.mpr ⟨fm, hfm, rfl⟩)⟩

end Lhre.Codegen
