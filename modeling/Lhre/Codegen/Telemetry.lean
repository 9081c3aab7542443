import Lhre.CanSpec.Wire

/-!
# `Codegen.Telemetry` — the telemetry artifacts

`lib/codegen/telemetry/gen_telemetry.py`: the fields of the snapshot proto and the decode table `can.json` that the
gateway loads. An artifact whose generation raises is `none`. Of the entries of `can.json` those are kept that the
gateway reads, and the bus.

## Contents
- **The snapshot proto.** `snapshotFields`.
- **The decode table.** `signalConvType`, `renderSignal`, `renderMessage`, `renderJson`.
-/

namespace Lhre.Codegen

open CanSpec

/-! ## The snapshot proto -/

/-- The fields of each group of the proto: number, name and type. -/
abbrev SnapshotFields := Dict String (List (ℕ ×ₗ String ×ₗ String))

/-- `snapshot_fields`. -/
def snapshotFields (spec : Spec) : Option SnapshotFields :=
  (fieldTypes spec).map fun types =>
    let ids := fieldIds spec
    let fields : SnapshotFields :=
      Dict.collect (fun entry => entry.1.1)
        (fun old entry => old.getD [] ++ [toLex ((Dict.get? ids entry.1).getD 0, toLex (entry.1.2, entry.2.ptype))]) []
        types
    fields.map fun group => (group.1, group.2.insertionSort (· ≤ ·))

/-! ## The decode table -/

/-- An entry of `bitfield_encoding`. -/
structure BitJson where
  protobufField : String
  bitIndex : ℕ
  protoId : ℕ
deriving DecidableEq, Repr

/-- `item["protobuf"]`. -/
structure ProtobufJson where
  type : String
  field : String
  protoId : ℕ
  repeated : Bool
  fieldIndex : Option ℕ
deriving DecidableEq, Repr

/-- `item`. -/
structure SignalJson where
  index : ℕ
  startByte : ℕ
  name : String
  length : ℕ
  convType : String
  precision : ℚ
  isBoolean : Bool
  protobuf : Option ProtobufJson
  bitfieldEncoding : Option (List BitJson)
deriving DecidableEq

/-- An entry of `packets`. -/
structure PacketJson where
  packetId : ℕ
  packetName : String
  fromBoards : List String
  dataLength : ℕ
  quantity : ℕ
  bus : String
  bytes : List SignalJson
deriving DecidableEq

/-- `s.removeprefix(p)`. -/
def removePrefix (p s : String) : String :=
  if p.toList.isPrefixOf s.toList then String.ofList (s.toList.drop p.toList.length) else s

/-- `a or b` of texts. -/
def orText (a b : String) : String := if a = "" then b else a

/-- `signal_conv_type`. -/
def signalConvType (s : Signal) : Option String :=
  match s.kind with
  | some (.bitfield _) => some "bitfield"
  | _ =>
      let width := max 8 s.enc.bitLength
      let lead := if s.enc.sign = .signed then "int" else "uint"
      -- the decoder cannot represent other widths
      if width = 8 then some (lead ++ "8")
      else if width = 16 then some (lead ++ "16")
      else if width = 32 then some (lead ++ "32")
      else if width = 64 then some (lead ++ "64")
      else none

/-- `item["protobuf"]` of a binding. -/
def renderProtobuf (types : Dict FieldKey FieldType) (t : Telemetry) : Option ProtobufJson :=
  (Dict.get? types (t.group, t.field)).map fun fieldType =>
    { type := removePrefix "repeated " fieldType.ptype
      field := t.field
      protoId := t.id
      repeated := t.repeated
      fieldIndex := if t.repeated then some t.arrayIndex else none }

/-- `mappings` of a bitfield type. -/
def renderBits (b : BitfieldType) : List BitJson :=
  b.bit.zipIdx.filterMap fun (bit, index) => bit.telemetry.map fun t => ⟨t.field, index, t.id⟩

/-- `item["protobuf"]`, where the signal is bound; the outer option is a failed lookup. -/
def signalProtobuf (types : Dict FieldKey FieldType) (s : Signal) : Option (Option ProtobufJson) :=
  match s.telemetry with
  | none => some none
  | some t => (renderProtobuf types t).map some

/-- `item["bitfield_encoding"]`, where the signal is a bitfield. -/
def signalBits (reg : Registries) (s : Signal) : Option (Option (List BitJson)) :=
  match s.kind with
  | some (.bitfield name) => (Dict.get? reg.bitfields name).map fun b => some (renderBits b)
  | _ => some none

/-- The pass of `render_json` over one signal. -/
def renderSignal (reg : Registries) (types : Dict FieldKey FieldType) (sp : Signal × ℕ) : Option SignalJson :=
  let s := sp.1
  if s.enc.byteOrder = .bigEndian then none
  else if s.enc.startBit % 8 ≠ 0 then none
  else if s.enc.offset ≠ 0 then none
  else
    (signalConvType s).bind fun convType =>
      (signalProtobuf types s).bind fun protobuf =>
        (signalBits reg s).map fun bits =>
          { index := sp.2
            startByte := s.enc.startBit / 8
            name := orText s.description s.name
            length := max 1 ((s.enc.bitLength + 7) / 8)
            convType := convType
            precision := effectiveScale s.enc
            isBoolean := match s.kind with
              | some (.boolean _) => true
              | _ => false
            protobuf := protobuf
            bitfieldEncoding := bits }

/-- The pass of `render_json` over one message. -/
def renderMessage (reg : Registries) (types : Dict FieldKey FieldType) (m : CanMessage) : Option PacketJson :=
  (m.signal.zipIdx.mapM (renderSignal reg types)).map fun signals =>
    { packetId := m.canId
      packetName := orText m.description m.name
      fromBoards := [m.fromBoard]
      dataLength := m.dlc
      quantity := effectiveQuantity m
      bus := m.bus
      bytes := signals }

/-- `sorted(spec.messages(), key=lambda item: item[1].can_id)`. -/
def sortedMessages (spec : Spec) : List CanMessage :=
  (spec.messages.map Prod.snd).insertionSort fun m m' => m.canId ≤ m'.canId

/-- `render_json`. -/
def renderJson (spec : Spec) : Option (List PacketJson) :=
  (fieldTypes spec).bind fun types => (sortedMessages spec).mapM (renderMessage spec.registries types)

end Lhre.Codegen
