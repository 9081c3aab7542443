import Mathlib.Data.String.Basic
import Mathlib.Data.Prod.Lex
import Lhre.CanSpec.Validator

/-!
# `CanSpec.Wire` — the off-vehicle wire contract

`lib/spec/ir/wire.py`: the proto type of every telemetry field and the lock manifest. A derivation that raises is
`none`.

## Contents
- **Types.** `protoType`, `scalarType`, `TelemetryBinding.elementType`.
- **Fields.** `fieldTypes`, with the array bounds, and `fieldIds`.
- **The lock file.** `manifest`.
-/

namespace Lhre.CanSpec

/-! ## Types -/

/-- `PROTO_SCALAR_TYPES` behind `scalar_type`. -/
def scalarType : ProtoScalarType → Option String
  | .unspecified => none
  | .float => some "float"
  | .double => some "double"
  | .int32 => some "int32"
  | .uint32 => some "uint32"
  | .int64 => some "int64"
  | .uint64 => some "uint64"
  | .bool => some "bool"
  | .string => some "string"
  | .bytes => some "bytes"

/-- The type `proto_type` derives for a number. -/
def numberType (e : Encoding) : String :=
  if effectiveScale e = 1 ∧ e.offset.den = 1 then
    -- unscaled: the smallest integer that holds the shifted raw range
    let lo := (rawRange e).1 + e.offset.num
    let hi := (rawRange e).2 + e.offset.num
    if 0 ≤ lo then if hi ≤ 0xFFFFFFFF then "uint32" else "uint64"
    else if -2 ^ 31 ≤ lo ∧ hi ≤ 2 ^ 31 - 1 then "int32"
    else "int64"
  else if e.bitLength ≤ 24 then "float"
  else "double"

/-- `proto_type`; a bitfield binds types per bit. -/
def protoType (s : Signal) : Option String :=
  match s.kind with
  | some (.boolean _) => some "bool"
  | some (.enumType name) => some name
  | some (.bitfield _) => none
  | _ => some (numberType s.enc)

/-- `bit_proto_type`. -/
def bitProtoType : String := "bool"

/-- `element_type` of a binding. -/
def TelemetryBinding.elementType (b : TelemetryBinding) : Option String :=
  if b.telemetry.wireType ≠ .unspecified then scalarType b.telemetry.wireType
  else if b.bit.isSome then some bitProtoType
  else match b.source with
    | .signal s => protoType s
    | .bitfield _ => none

/-! ## Fields -/

/-- `_binding_key`: the group and the field. -/
abbrev FieldKey := String × String

def TelemetryBinding.key (b : TelemetryBinding) : FieldKey := (b.telemetry.group, b.telemetry.field)

/-- An entry of `out`, with what `slots` has under its key. -/
structure FieldType where
  ptype : String
  count : Option ℕ
  slots : ℕ := 0
deriving DecidableEq, Repr

/-- What one pass of the loop over the bindings leaves under the key of its binding. -/
def FieldType.bind (old : Option FieldType) (b : TelemetryBinding) (elementType : String) : FieldType :=
  let before := (old.map FieldType.slots).getD 0
  if b.telemetry.repeated then
    -- one slot per frame of the quantity-expanded block
    let slots := before + effectiveQuantity b.message
    ⟨s!"repeated {elementType}", some slots, slots⟩
  else ⟨elementType, none, before⟩

/-- What one pass of the loop over the external fields leaves under its key. -/
def FieldType.external (old : Option FieldType) (field : SnapshotField) (ptype : String) : FieldType :=
  ⟨if field.repeated then s!"repeated {ptype}" else ptype, none, (old.map FieldType.slots).getD 0⟩

/-- A field that is given a type: a binding or an external field, with its element type. -/
inductive TypedField
  | bound (b : TelemetryBinding) (elementType : String)
  | external (group : Group) (field : SnapshotField) (ptype : String)

def TypedField.key : TypedField → FieldKey
  | .bound b _ => b.key
  | .external g field _ => (g.name, field.name)

def TypedField.bind (old : Option FieldType) : TypedField → FieldType
  | .bound b elementType => FieldType.bind old b elementType
  | .external _ field ptype => FieldType.external old field ptype

def TypedField.ofBinding (b : TelemetryBinding) : Option TypedField := b.elementType.map (.bound b)

def TypedField.ofExternal (external : String × Group × SnapshotField) : Option TypedField :=
  (scalarType external.2.2.type).map (.external external.2.1 external.2.2)

/-- The bindings with their types, and the external fields with theirs. -/
def typedFields (spec : Spec) : Option (List TypedField) :=
  ((telemetryBindings spec).mapM TypedField.ofBinding).bind fun bound =>
    ((externalFields spec).mapM TypedField.ofExternal).map (bound ++ ·)

/-- `field_types`. -/
def fieldTypes (spec : Spec) : Option (Dict FieldKey FieldType) :=
  (typedFields spec).map (Dict.collect TypedField.key TypedField.bind [])

/-- `field_ids`. -/
def fieldIds (spec : Spec) : Dict FieldKey ℕ :=
  Dict.collect Prod.fst (fun _ entry => entry.2) []
    (((telemetryBindings spec).map fun b => (b.key, b.telemetry.id)) ++
      (externalFields spec).map fun (_, g, field) => ((g.name, field.name), field.id))

/-! ## The lock file -/

/-- `HEADER`. -/
def header : String :=
  "# Generated wire contract — DO NOT EDIT.\n" ++
  "# Update with: bazel run //tools/spec:lock\n" ++
  "#\n" ++
  "# One line per telemetry field: <group>.<field> <id> <proto type>, plus\n" ++
  "# each group's root snapshot id and tombstones. This is what the gateway\n" ++
  "# publishes and the telemetry server decodes: changing an existing line breaks\n" ++
  "# deployed consumers and archived data, so it is committed and reviewed\n" ++
  "# rather than silently regenerated. Types are derived from the spec's\n" ++
  "# encodings unless a deployed field has a compatibility override\n" ++
  "# (lib/spec/ir/wire.py). Encoding edits can still change a non-overridden type.\n"

/-- `rendered`. -/
def FieldType.rendered (t : FieldType) : String :=
  match t.count with
  | some count => s!"{t.ptype}[{count}]"
  | none => t.ptype

/-- `sorted(by_group.get(group.name, []))`: id, name and rendered type of each field of a group. -/
def groupEntries (types : Dict FieldKey FieldType) (ids : Dict FieldKey ℕ) (group : String) :
    List (ℕ ×ₗ String ×ₗ String) :=
  ((types.filter fun entry => entry.1.1 = group).map fun entry =>
    toLex ((Dict.get? ids entry.1).getD 0, toLex (entry.1.2, entry.2.rendered))).insertionSort (· ≤ ·)

/-- The lines of one group. -/
def groupLines (types : Dict FieldKey FieldType) (ids : Dict FieldKey ℕ) (g : Group) : List String :=
  [s!"[{g.name}] snapshot_id={g.snapshotId} next_free_id={g.nextFreeId}"] ++
  ((groupEntries types ids g.name).map fun entry =>
    s!"{g.name}.{(ofLex (ofLex entry).2).1} {(ofLex entry).1} {(ofLex (ofLex entry).2).2}") ++
  ((g.reservedIds.insertionSort (· ≤ ·)).map fun reserved => s!"{g.name} RESERVED_ID {reserved}") ++
  ((g.reservedNames.insertionSort (· ≤ ·)).map fun reserved => s!"{g.name} RESERVED_NAME {reserved}") ++ [""]

/-- `sorted(spec.groups(), key=lambda g: g[1].name)`. -/
def sortedGroups (spec : Spec) : List Group :=
  (spec.groups.map Prod.snd).insertionSort fun g h => g.name ≤ h.name

/-- `manifest`. -/
def manifest (spec : Spec) : Option String :=
  (fieldTypes spec).map fun types =>
    "\n".intercalate (header :: (sortedGroups spec).flatMap (groupLines types (fieldIds spec)))

end Lhre.CanSpec
