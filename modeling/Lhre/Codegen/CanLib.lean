import Lhre.Can.Codec
import Lhre.CanSpec.Validator

/-!
# `Codegen.CanLib` — the generated CAN library

`lib/codegen/cpp/gen_can_lib.py`: the struct members, `Pack` and `Unpack` the generator emits for a message, and what
the emitted C++ does. A generated function is a list of guarded blocks of calls; a run of the generator that raises,
dies, or emits a reference to something that does not exist is `none`.

A member is known by the place of its signal in the message, and by the bit for a bitfield: the compiler refuses a
struct in which two members have one name. An enum selector is compared by its underlying value.

## Contents
- **Types.** `CType` and its casts, `rawCType`, `enumCType`.
- **Emission.** `signalFields`, `packLines`, `unpackLines`, `muxGuard`, and `generate` over a whole message.
- **Execution.** `Codec.pack` and `Codec.unpack`.
-/

namespace Lhre.Codegen

open CanSpec

/-! ## Types -/

/-- The C++ type of a member. -/
inductive CType
  | bool
  | int (width : ℕ)
  | uint (width : ℕ)
  | enumClass (underlying : ℕ)
deriving DecidableEq, Repr

/-- The conversion of an integer to the type. -/
def CType.cast : CType → ℤ → ℤ
  | .bool, x => if x ≠ 0 then 1 else 0
  | .int width, x => x.bmod (2 ^ width)
  | .uint width, x => x % 2 ^ width
  | .enumClass underlying, x => x % 2 ^ underlying

/-- `raw_ctype`. -/
def rawCType (e : Encoding) : Option CType :=
  ([8, 16, 32, 64].find? fun width => e.bitLength ≤ width).map fun width =>
    match e.sign with
    | .signed => .int width
    | .unsigned => .uint width

/-- The width `types_header` gives the underlying type of an enum. -/
def enumUnderlying (e : EnumType) : Option ℕ := [8, 16, 32].find? fun width => e.worst < 2 ^ width

/-- The enum class of a name. -/
def enumCType (reg : Registries) (name : String) : Option CType :=
  ((Dict.get? reg.enums name).bind enumUnderlying).map .enumClass

/-- `is_scaled`. -/
def isScaled (e : Encoding) : Bool := effectiveScale e ≠ 1 ∨ e.offset ≠ 0

/-! ## Emission -/

/-- A member of a message struct. -/
structure Member where
  signal : ℕ
  bit : Option ℕ := none
deriving DecidableEq, Repr

/-- What `fields` yields. -/
structure Field where
  name : String
  ctype : CType
  member : Member
deriving DecidableEq, Repr

/-- The part of `fields` for the signal at place `i`. -/
def signalFields (reg : Registries) (i : ℕ) (s : Signal) : Option (List Field) :=
  match s.kind with
  | some (.bitfield name) =>
      (Dict.get? reg.bitfields name).bind fun b =>
        -- big-endian bitfields are not supported
        if s.enc.byteOrder ≠ .littleEndian then none
        else some (b.bit.zipIdx.map fun (bit, k) => ⟨s!"{s.name}_{bit.name}", .bool, ⟨i, some k⟩⟩)
  | some (.boolean _) => some [⟨s.name, .bool, ⟨i, none⟩⟩]
  | some (.enumType name) => (enumCType reg name).map fun ctype => [⟨s.name, ctype, ⟨i, none⟩⟩]
  | some (.physical _) =>
      (rawCType s.enc).map fun ctype => [⟨if isScaled s.enc then s!"{s.name}_raw" else s.name, ctype, ⟨i, none⟩⟩]
  | none =>
      -- `_field_expr` refers to a signal without a kind by its bare name
      if isScaled s.enc then none else (rawCType s.enc).map fun ctype => [⟨s.name, ctype, ⟨i, none⟩⟩]

/-- `Insert(dst, start, length, …, big)`, of a member or, for a flag, of `member ? 1u : 0u`. -/
structure InsertCall where
  start : ℕ
  length : ℕ
  member : Member
  flag : Bool
  big : Bool
deriving DecidableEq, Repr

/-- `member = …Extract(src, start, length, big)…`, the value converted to the member's type. -/
structure ExtractCall where
  member : Member
  ctype : CType
  start : ℕ
  length : ℕ
  big : Bool
  signed : Bool
deriving DecidableEq, Repr

/-- Statements that run where the guard finds its value in its member. -/
structure Block (Call : Type) where
  guard : Option (Member × ℕ)
  body : List Call
deriving DecidableEq, Repr

/-- `"true" if enc.byte_order == BIG_ENDIAN else "false"`. -/
def bigFlag (s : Signal) : Bool := s.enc.byteOrder == .bigEndian

/-- The lines of `pack_fn` for the signal at place `i`. -/
def packLines (reg : Registries) (i : ℕ) (s : Signal) : Option (List InsertCall) :=
  match s.kind with
  | some (.bitfield name) =>
      (Dict.get? reg.bitfields name).map fun b =>
        (List.range b.bit.length).map fun k => ⟨s.enc.startBit + k, 1, ⟨i, some k⟩, true, false⟩
  | some (.boolean _) => some [⟨s.enc.startBit, 1, ⟨i, none⟩, true, false⟩]
  | _ => some [⟨s.enc.startBit, s.enc.bitLength, ⟨i, none⟩, false, bigFlag s⟩]

/-- The lines of `unpack_fn` for the signal at place `i`. -/
def unpackLines (reg : Registries) (i : ℕ) (s : Signal) : Option (List ExtractCall) :=
  match s.kind with
  | some (.bitfield name) =>
      (Dict.get? reg.bitfields name).map fun b =>
        (List.range b.bit.length).map fun k => ⟨⟨i, some k⟩, .bool, s.enc.startBit + k, 1, false, false⟩
  | some (.boolean _) => some [⟨⟨i, none⟩, .bool, s.enc.startBit, s.enc.bitLength, bigFlag s, false⟩]
  | some (.enumType name) =>
      (enumCType reg name).map fun ctype => [⟨⟨i, none⟩, ctype, s.enc.startBit, s.enc.bitLength, bigFlag s, false⟩]
  | _ =>
      (rawCType s.enc).map fun ctype =>
        [⟨⟨i, none⟩, ctype, s.enc.startBit, s.enc.bitLength, bigFlag s, s.enc.sign == .signed⟩]

/-- The signals of a message with their places. -/
def places (m : CanMessage) : List (Signal × ℕ) := m.signal.zipIdx

/-- `selector`: the first signal marked as the mux selector. -/
def selector (m : CanMessage) : Option (Signal × ℕ) := (places m).find? fun sp => sp.1.log.muxSelector

/-- The bare name of a signal is a member: a bitfield has one for each bit, a scaled signal one with a suffix. -/
def bareMember (s : Signal) : Bool :=
  match s.kind with
  | some (.bitfield _) => false
  | some (.boolean _) | some (.enumType _) => true
  | _ => ¬ isScaled s.enc

/-- `_mux_guard`. -/
def muxGuard {Call : Type} (m : CanMessage) (s : Signal) (lines : List Call) : Option (Block Call) :=
  if s.muxed then
    (selector m).bind fun sel =>
      if bareMember sel.1 then some ⟨some (⟨sel.2, none⟩, s.enc.muxValue), lines⟩ else none
  else some ⟨none, lines⟩

/-- `ordered` of `unpack_fn`: the selector must be read before any muxed signal. -/
def ordered (m : CanMessage) : List (Signal × ℕ) :=
  ((places m).filter fun sp => ¬ sp.1.muxed) ++ (places m).filter fun sp => sp.1.muxed

/-- What is emitted for one message. -/
structure Codec where
  dlc : ℕ
  fields : List Field
  packBody : List (Block InsertCall)
  unpackBody : List (Block ExtractCall)

/-- `fields`. -/
def fields (reg : Registries) (m : CanMessage) : Option (List Field) :=
  ((places m).mapM fun sp => signalFields reg sp.2 sp.1).map List.flatten

/-- `pack_fn`. -/
def packFn (reg : Registries) (m : CanMessage) : Option (List (Block InsertCall)) :=
  (places m).mapM fun sp => (packLines reg sp.2 sp.1).bind (muxGuard m sp.1)

/-- `unpack_fn`. -/
def unpackFn (reg : Registries) (m : CanMessage) : Option (List (Block ExtractCall)) :=
  (ordered m).mapM fun sp => (unpackLines reg sp.2 sp.1).bind (muxGuard m sp.1)

/-- `message_decl`, `pack_fn` and `unpack_fn` of one message; `kDlc` is a `uint8_t`. -/
def generate (reg : Registries) (m : CanMessage) : Option Codec :=
  (fields reg m).bind fun fields =>
    (packFn reg m).bind fun pack =>
      (unpackFn reg m).map fun unpack => ⟨m.dlc % 256, fields, pack, unpack⟩

/-! ## Execution -/

/-- The contents of a message struct. -/
abbrev Struct := Member → ℤ

/-- A struct whose members are value-initialised. -/
def Struct.fresh : Struct := fun _ => 0

/-- The guard of a block. -/
def Block.runs {Call : Type} (b : Block Call) (v : Struct) : Bool :=
  match b.guard with
  | none => true
  | some (member, value) => v member = value

/-- The argument an `Insert` is called with. -/
def InsertCall.value (call : InsertCall) (v : Struct) : BitVec 64 :=
  if call.flag then if v call.member ≠ 0 then 1 else 0 else BitVec.ofInt 64 (v call.member)

def InsertCall.run (v : Struct) (dst : ℕ → BitVec 8) (call : InsertCall) : ℕ → BitVec 8 :=
  Can.insert dst call.start call.length (call.value v) call.big

/-- The value an `Extract` leaves in its member. -/
def ExtractCall.value (call : ExtractCall) (src : ℕ → BitVec 8) : ℤ :=
  let raw := Can.extract src call.start call.length call.big
  call.ctype.cast (if call.signed then (Can.signExtend raw call.length).toInt else raw.toNat)

def ExtractCall.run (src : ℕ → BitVec 8) (v : Struct) (call : ExtractCall) : Struct :=
  Function.update v call.member (call.value src)

/-- `std::memset(dst, 0, n)`. -/
def zeroed (dst : ℕ → BitVec 8) (n : ℕ) : ℕ → BitVec 8 := fun i => if i < n then 0 else dst i

def Block.insertAll (v : Struct) (dst : ℕ → BitVec 8) (b : Block InsertCall) : ℕ → BitVec 8 :=
  if b.runs v then b.body.foldl (InsertCall.run v) dst else dst

def Block.extractAll (src : ℕ → BitVec 8) (v : Struct) (b : Block ExtractCall) : Struct :=
  if b.runs v then b.body.foldl (ExtractCall.run src) v else v

/-- `Pack`. -/
def Codec.pack (c : Codec) (v : Struct) (dst : ℕ → BitVec 8) : ℕ → BitVec 8 :=
  c.packBody.foldl (Block.insertAll v) (zeroed dst c.dlc)

/-- The data of the frame `ToFrame` makes. -/
def Codec.frameData (c : Codec) (v : Struct) : List (BitVec 8) := (List.range c.dlc).map (c.pack v fun _ => 0)

/-- `Unpack`. -/
def Codec.unpack (c : Codec) (src : ℕ → BitVec 8) (v : Struct) : Struct :=
  c.unpackBody.foldl (Block.extractAll src) v

end Lhre.Codegen
