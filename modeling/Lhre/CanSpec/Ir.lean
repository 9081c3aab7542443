import Mathlib.Data.List.Perm.Basic
import Mathlib.Data.Rat.Defs
import Mathlib.Tactic

/-!
# `CanSpec.Ir` — the CAN spec as the pipeline reads it

The messages of `lib/spec/proto/can_spec.proto`, whose generated classes are the pipeline's representation, and the
merged view of `lib/spec/ir/loader.py`. A `oneof` and a submessage whose presence is tested are options; a submessage
that is read without being set reads as its default. Enumerations hold their declared values and doubles are exact
rationals.

## Contents
- **The schema.** `Encoding`, `Logical`, `Telemetry`, `Signal`, `CanMessage`, the registries, and `SpecFile`.
- **The loaded spec.** `Spec` and its iterators.
- **Reordering.** `Spec.Reordered`: the same spec with its files, messages and signals listed in another order.
-/

namespace Lhre.CanSpec

/-! ## The schema -/

inductive ByteOrder
  | littleEndian
  | bigEndian
deriving DecidableEq, Repr

inductive Sign
  | unsigned
  | signed
deriving DecidableEq, Repr

/-- `ProtoScalarType`. -/
inductive ProtoScalarType
  | unspecified
  | float
  | double
  | int32
  | uint32
  | int64
  | uint64
  | bool
  | string
  | bytes
deriving DecidableEq, Repr

inductive RateTier
  | unspecified
  | fast
  | medium
  | slow
deriving DecidableEq, Repr

/-- `Encoding`: how a signal sits in the frame. -/
structure Encoding where
  startBit : ℕ := 0
  bitLength : ℕ := 0
  byteOrder : ByteOrder := .littleEndian
  sign : Sign := .unsigned
  scale : ℚ := 0
  offset : ℚ := 0
  min : ℚ := 0
  max : ℚ := 0
  muxValue : ℕ := 0
  muxed : Bool := false
deriving DecidableEq

/-- `Logical.kind`. -/
inductive Kind
  | physical (unit : String)
  | enumType (name : String)
  | boolean (value : Bool)
  | bitfield (bitfieldType : String)
deriving DecidableEq, Repr

/-- `Logical`: what a signal is. -/
structure Logical where
  kind : Option Kind := none
  muxSelector : Bool := false
deriving DecidableEq, Repr

/-- `Telemetry`: where a signal lands off the vehicle. -/
structure Telemetry where
  group : String := ""
  field : String := ""
  id : ℕ := 0
  rateTier : RateTier := .unspecified
  arrayIndex : ℕ := 0
  repeated : Bool := false
  wireType : ProtoScalarType := .unspecified
  sharedSource : Bool := false
deriving DecidableEq, Repr

structure Signal where
  name : String := ""
  encoding : Option Encoding := none
  logical : Option Logical := none
  telemetry : Option Telemetry := none
  description : String := ""
deriving DecidableEq

/-- `signal.encoding`. -/
def Signal.enc (s : Signal) : Encoding := s.encoding.getD {}

/-- `signal.logical`. -/
def Signal.log (s : Signal) : Logical := s.logical.getD {}

/-- `signal.logical.WhichOneof("kind")`, with the value that is set. -/
def Signal.kind (s : Signal) : Option Kind := s.log.kind

/-- `signal.encoding.muxed`. -/
def Signal.muxed (s : Signal) : Bool := s.enc.muxed

/-- The name of the bitfield type a bitfield signal refers to. -/
def Signal.bitfieldType (s : Signal) : Option String :=
  match s.kind with
  | some (.bitfield name) => some name
  | _ => none

structure CanMessage where
  name : String := ""
  canId : ℕ := 0
  quantity : ℕ := 0
  fromBoard : String := ""
  toBoards : List String := []
  bus : String := ""
  dlc : ℕ := 0
  frequencyHz : ℚ := 0
  description : String := ""
  defaultRateTier : RateTier := .unspecified
  signal : List Signal := []
deriving DecidableEq

structure Bus where
  name : String := ""
  bitrateBps : ℕ := 0
  fd : Bool := false
deriving DecidableEq, Repr

structure EnumValue where
  name : String := ""
  number : ℕ := 0
deriving DecidableEq, Repr

structure EnumType where
  name : String := ""
  value : List EnumValue := []
deriving DecidableEq, Repr

structure BitfieldBit where
  name : String := ""
  telemetry : Option Telemetry := none
deriving DecidableEq, Repr

/-- `BitfieldType`: bit `i` of the wire value is entry `i` of `bit`. -/
structure BitfieldType where
  name : String := ""
  bit : List BitfieldBit := []
deriving DecidableEq, Repr

/-- `SnapshotField`: a field the gateway fills from outside CAN. -/
structure SnapshotField where
  name : String := ""
  id : ℕ := 0
  type : ProtoScalarType := .unspecified
  repeated : Bool := false
deriving DecidableEq, Repr

/-- `Group`: the id ledger of one telemetry group. -/
structure Group where
  name : String := ""
  nextFreeId : ℕ := 0
  reservedIds : List ℕ := []
  reservedNames : List String := []
  snapshotId : ℕ := 0
  externalField : List SnapshotField := []
deriving DecidableEq, Repr

/-- `SpecFile`. -/
structure SpecFile where
  message : List CanMessage := []
  bus : List Bus := []
  enumType : List EnumType := []
  bitfieldType : List BitfieldType := []
  group : List Group := []
deriving DecidableEq

/-! ## The loaded spec -/

/-- `loader.Spec`: the parsed files by name. `files` is a dictionary, so no name occurs twice. -/
structure Spec where
  files : List (String × SpecFile)
  nodup : (files.map Prod.fst).Nodup := by decide

/-- The entries of one section across all files, each with the name of its file. -/
def Spec.entries {α : Type} (spec : Spec) (entriesOf : SpecFile → List α) : List (String × α) :=
  spec.files.flatMap fun file => (entriesOf file.2).map fun entry => (file.1, entry)

def Spec.messages (spec : Spec) : List (String × CanMessage) := spec.entries SpecFile.message

def Spec.buses (spec : Spec) : List (String × Bus) := spec.entries SpecFile.bus

def Spec.enumTypes (spec : Spec) : List (String × EnumType) := spec.entries SpecFile.enumType

def Spec.bitfieldTypes (spec : Spec) : List (String × BitfieldType) := spec.entries SpecFile.bitfieldType

def Spec.groups (spec : Spec) : List (String × Group) := spec.entries SpecFile.group

/-! ## Reordering -/

/-- The same message with its signals in another order. -/
def CanMessage.Reordered (m m' : CanMessage) : Prop :=
  m.signal.Perm m'.signal ∧ m' = { m with signal := m'.signal }

/-- The same file with its messages, and the signals of each, in another order. -/
def SpecFile.Reordered (f f' : SpecFile) : Prop :=
  (∃ messages, f.message.Perm messages ∧ List.Forall₂ CanMessage.Reordered messages f'.message) ∧
    f' = { f with message := f'.message }

/-- The same spec with its files, the messages of each file and the signals of each message in another order. -/
def Spec.Reordered (spec spec' : Spec) : Prop :=
  ∃ files, spec.files.Perm files ∧
    List.Forall₂ (fun file file' => file.1 = file'.1 ∧ SpecFile.Reordered file.2 file'.2) files spec'.files

end Lhre.CanSpec
