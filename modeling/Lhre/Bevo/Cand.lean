import Lhre.Codegen.Telemetry
import Lhre.Drivers.System

/-!
# `Bevo.Cand` — the CAN gateway

The part of `apps/BEVO/cand/main.rs` between a received frame and the telemetry snapshot, with the configuration of
`config.rs` it runs on and the dispatch `build.rs` generates for it. A panic is `none`; the binaries are built with
overflow checks, so that a shift of a byte by eight or more is one. Doubles are exact rationals; `f32` is the conversion
of a double to a single.

The snapshot is known by the bare names of its fields, which no two groups share.

## Contents
- **Configuration.** `PacketConfig` and its parts, as `serde` reads them from `can.json`.
- **Snapshot.** `Snapshot`, `generateMapping`, `updateProtoField`, `updateProtoBool`.
- **Decoding.** `processRawData`.
- **Resolution.** `packetMap`, `resolvePacketConfig`, `canProcessing`.
-/

namespace Lhre.Bevo

open CanSpec Codegen

/-! ## Configuration -/

structure BitfieldMapping where
  protobufField : String
  bitIndex : ℕ
deriving DecidableEq, Repr

structure ProtobufMapping where
  fieldName : String
  repeated : Bool
  fieldIndex : Option ℕ
deriving DecidableEq, Repr

structure SignalConfig where
  startByte : ℕ
  length : ℕ
  name : String
  convType : String
  precision : ℚ
  bitfieldEncoding : Option (List BitfieldMapping)
  protobuf : Option ProtobufMapping
deriving DecidableEq

/-- `PacketConfig`; it has no bus. -/
structure PacketConfig where
  packetId : ℕ
  packetName : String
  fromBoards : List String
  quantity : ℕ
  bytes : List SignalConfig
deriving DecidableEq

def SignalConfig.ofJson (s : SignalJson) : SignalConfig where
  startByte := s.startByte
  length := s.length
  name := s.name
  convType := s.convType
  precision := s.precision
  bitfieldEncoding := s.bitfieldEncoding.map (List.map fun bit => ⟨bit.protobufField, bit.bitIndex⟩)
  protobuf := s.protobuf.map fun pb => ⟨pb.field, pb.repeated, pb.fieldIndex⟩

def PacketConfig.ofJson (p : PacketJson) : PacketConfig where
  packetId := p.packetId
  packetName := p.packetName
  fromBoards := p.fromBoards
  quantity := p.quantity
  bytes := p.bytes.map SignalConfig.ofJson

/-! ## Snapshot -/

/-- The value of a scalar field. -/
inductive Value
  | number (x : ℚ)
  | flag (b : Bool)
deriving DecidableEq

/-- `OrionSensorData`. -/
structure Snapshot where
  scalar : String → Value
  array : String → List ℚ

/-- What the generated dispatch knows of the fields. -/
structure Mapping where
  scalarSignals : Dict String String := []
  repSignals : List String := []
  boolSignals : List String := []

/-- The pass of `generate_mapping` over one signal. -/
def Mapping.add (m : Mapping) (s : SignalJson) : Mapping :=
  if s.convType = "bitfield" then
    { m with boolSignals := m.boolSignals ++ (s.bitfieldEncoding.getD []).map BitJson.protobufField }
  else match s.protobuf with
  | none => m
  | some pb =>
      if pb.repeated then { m with repSignals := m.repSignals ++ [pb.field] }
      else { m with scalarSignals := Dict.set pb.field (lower pb.type) m.scalarSignals }

/-- `generate_mapping`. -/
def generateMapping (packets : List PacketJson) : Mapping := (packets.flatMap PacketJson.bytes).foldl Mapping.add {}

/-- `set_vec_index`. -/
def setVecIndex (v : List ℚ) (i : ℕ) (val : ℚ) : List ℚ :=
  let v := if v.length ≤ i then v ++ List.replicate (i + 1 - v.length) 0 else v
  v.set i val

/-- `update_proto_field_generated`. -/
def updateProtoField (m : Mapping) (data : Snapshot) (name : String) (val : ℚ) (config : ProtobufMapping) : Snapshot :=
  if config.repeated then
    match config.fieldIndex with
    | none => data
    | some i =>
        if name ∈ m.repSignals then
          { data with array := Function.update data.array name (setVecIndex (data.array name) i val) }
        else data
  else match Dict.get? m.scalarSignals name with
  | none => data
  | some type =>
      let value := if type = "bool" then Value.flag (val ≠ 0) else Value.number val
      { data with scalar := Function.update data.scalar name value }

/-- `update_proto_bool_generated`. -/
def updateProtoBool (m : Mapping) (data : Snapshot) (name : String) (val : Bool) : Snapshot :=
  if name ∈ m.boolSignals then { data with scalar := Function.update data.scalar name (.flag val) } else data

/-! ## Decoding -/

/-- `repeated_field_span`. -/
def repeatedFieldSpan (config : PacketConfig) : ℕ :=
  let indexes := config.bytes.filterMap fun signal =>
    signal.protobuf.bind fun pb => if pb.repeated then pb.fieldIndex else none
  (indexes.max?.map (· + 1)).getD 0

/-- `from_le_bytes` of `n` bytes of the payload. -/
def leBytes (payload : List U8) (start : ℕ) : ℕ → Option ℕ
  | 0 => some 0
  | n + 1 => payload[start]?.bind fun b => (leBytes payload (start + 1) n).map fun rest => b.toNat + 256 * rest

/-- The value of a signal before its scale; the inner option is a conversion the gateway does not know. -/
def rawValue (payload : List U8) (s : SignalConfig) : Option (Option ℤ) :=
  match s.convType with
  | "uint32" => (leBytes payload s.startByte 4).map fun (n : ℕ) => some (n : ℤ)
  | "int32" => (leBytes payload s.startByte 4).map fun n => some (BitVec.ofNat 32 n).toInt
  | "uint16" => (leBytes payload s.startByte 2).map fun (n : ℕ) => some (n : ℤ)
  | "int16" => (leBytes payload s.startByte 2).map fun n => some (BitVec.ofNat 16 n).toInt
  | "uint8" => (leBytes payload s.startByte 1).map fun (n : ℕ) => some (n : ℤ)
  | "int8" => (leBytes payload s.startByte 1).map fun n => some (BitVec.ofNat 8 n).toInt
  | _ => some none

/-- `(payload[start_byte] >> bit_index) & 1`. -/
def bitAt (payload : List U8) (startByte bitIndex : ℕ) : Option Bool :=
  payload[startByte]?.bind fun b => if 8 ≤ bitIndex then none else some (b.getLsbD bitIndex)

/-- The loop over the mappings of a bitfield. -/
def processBits (m : Mapping) (payload : List U8) (s : SignalConfig) (data : Snapshot) : Option Snapshot :=
  (s.bitfieldEncoding.getD []).foldlM
    (fun data bit => (bitAt payload s.startByte bit.bitIndex).map fun isSet =>
      updateProtoBool m data bit.protobufField isSet) data

/-- What is written once a value was read. -/
def writeValue (m : Mapping) (span seriesIndex : ℕ) (s : SignalConfig) (val : ℚ) (data : Snapshot) : Snapshot :=
  match s.protobuf with
  | none => data
  | some pb =>
      if pb.repeated then
        match pb.fieldIndex with
        | none => data
        | some fieldIndex =>
            updateProtoField m data pb.fieldName val { pb with fieldIndex := some (fieldIndex + seriesIndex * span) }
      else updateProtoField m data pb.fieldName val pb

/-- The pass of `process_raw_data` over one signal. -/
def processSignal (f32 : ℚ → ℚ) (m : Mapping) (payload : List U8) (span seriesIndex : ℕ) (data : Snapshot)
    (s : SignalConfig) : Option Snapshot :=
  if payload.length < s.startByte + s.length then some data
  else if s.convType = "bitfield" then processBits m payload s data
  else (rawValue payload s).map fun raw =>
    match raw with
    | none => data
    | some raw => writeValue m span seriesIndex s (f32 (raw * s.precision)) data

/-- `process_raw_data`. -/
def processRawData (f32 : ℚ → ℚ) (m : Mapping) (data : Snapshot) (payload : List U8) (config : PacketConfig)
    (seriesIndex : ℕ) : Option Snapshot :=
  config.bytes.foldlM (processSignal f32 m payload (repeatedFieldSpan config) seriesIndex) data

/-! ## Resolution -/

/-- `packet_map`. -/
def packetMap (packets : List PacketConfig) : Dict ℕ PacketConfig := Dict.index PacketConfig.packetId packets

/-- The test of `resolve_packet_config` on one configuration. -/
def claimed (messageId : ℕ) (config : PacketConfig) : Option (PacketConfig × ℕ) :=
  let quantity := max config.quantity 1
  let endId := min (config.packetId + quantity) (2 ^ 32 - 1)
  if config.packetId ≤ messageId ∧ messageId < endId then some (config, messageId - config.packetId) else none

/-- `resolve_packet_config`; `order` is the order in which the hash map lists its values. -/
def resolvePacketConfig (packets : Dict ℕ PacketConfig) (order : List PacketConfig) (messageId : ℕ) :
    Option (PacketConfig × ℕ) :=
  match Dict.get? packets messageId with
  | some config => some (config, 0)
  | none => order.findSome? (claimed messageId)

/-- The pass of `can_processing_loop` over one frame. -/
def canProcessing (f32 : ℚ → ℚ) (m : Mapping) (packets : Dict ℕ PacketConfig) (order : List PacketConfig)
    (data : Snapshot) (messageId : ℕ) (payload : List U8) : Option Snapshot :=
  match resolvePacketConfig packets order messageId with
  | none => some data
  | some (config, seriesIndex) => processRawData f32 m data payload config seriesIndex

end Lhre.Bevo
