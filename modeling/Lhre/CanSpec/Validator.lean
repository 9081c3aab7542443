import Lhre.CanSpec.Ir
import Lhre.Theory.Dict

/-!
# `CanSpec.Validator` — semantic validation of the spec

`lib/spec/ir/validator.py`, a pure function of the parsed spec files. `validate` returns the errors, which block a
merge, and the warnings. Every finding names its file, message and signal and the rule it breaks:

  1. ledger partition invariant per group (ids and names)
  2. global field-name uniqueness across groups
  3. bit-level frame validity (overlap, fit, mux selector)
  4. CAN id uniqueness per bus, quantity-expanded
  5. referential integrity (bus, enum type, bitfield, group)
  6. encoding sanity
  7. tier totality
  8. bus-load advisory (warning only)

## Contents
- **Readings of the schema.** Defaults, raw ranges, `occupiedBits`, `resolveTier`, `telemetryBindings`.
- **Checks.** One definition for each check of the source, with the state its loops carry.
- **`validate`** and `Spec.Valid`, a spec without errors.
-/

namespace Lhre.CanSpec

/-! ## Readings of the schema -/

/-- `FD_DLCS`: the byte counts of CAN FD beyond classic 8. -/
def fdDlcs : List ℕ := [12, 16, 20, 24, 32, 48, 64]

/-- `re.match(r"^[A-Z][A-Z0-9_]*$", name)` or its lower-case sibling; `$` also matches before a newline at the end. -/
def isSnake (isLetter : Char → Bool) (name : String) : Bool :=
  let chars := name.toList
  let chars := if chars.getLast? = some '\n' then chars.dropLast else chars
  match chars with
  | [] => false
  | first :: rest => isLetter first && rest.all fun c => isLetter c || c.isDigit || c == '_'

/-- `_UPPER_SNAKE.match`. -/
def upperSnake (name : String) : Bool := isSnake Char.isUpper name

/-- `_LOWER_SNAKE.match`. -/
def lowerSnake (name : String) : Bool := isSnake Char.isLower name

/-- `str.lower` on ASCII. -/
def lower (name : String) : String := String.ofList (name.toList.map Char.toLower)

/-- `_MESSAGES_FILE.search(filename)`: the board of a file `…/messages/<board>.textproto`. -/
def messagesStem (filename : String) : Option String :=
  match (filename.toList.splitOn '/').reverse with
  | file :: directory :: _ =>
      let suffix := ".textproto".toList
      let stem := String.ofList (file.take (file.length - suffix.length))
      if directory = "messages".toList ∧ file.drop (file.length - suffix.length) = suffix ∧ lowerSnake stem then
        some stem
      else none
  | _ => none

/-- `effective_scale`: a scale of 0 is an unset one. -/
def effectiveScale (e : Encoding) : ℚ := if e.scale ≠ 0 then e.scale else 1

/-- `effective_quantity`. -/
def effectiveQuantity (m : CanMessage) : ℕ := if m.quantity ≠ 0 then m.quantity else 1

/-- `raw_range`: the least and the greatest raw value. -/
def rawRange (e : Encoding) : ℤ × ℤ :=
  match e.sign with
  | .signed => (-2 ^ (e.bitLength - 1), 2 ^ (e.bitLength - 1) - 1)
  | .unsigned => (0, 2 ^ e.bitLength - 1)

/-- The walk of a big-endian signal: descending within a byte, then bit 7 of the next byte. -/
def descendingBits : (n byte bit : ℕ) → List ℕ
  | 0, _, _ => []
  | n + 1, byte, bit =>
      (byte * 8 + bit) :: if bit = 0 then descendingBits n (byte + 1) 7 else descendingBits n byte (bit - 1)

/-- `occupied_bits`: the linear bit positions (`byte * 8 + bit`) a signal covers. -/
def occupiedBits (e : Encoding) : List ℕ :=
  match e.byteOrder with
  | .littleEndian => List.range' e.startBit e.bitLength
  | .bigEndian => descendingBits e.bitLength (e.startBit / 8) (e.startBit % 8)

/-- `resolve_tier`. -/
def resolveTier (m : CanMessage) (t : Telemetry) : RateTier :=
  if t.rateTier ≠ .unspecified then t.rateTier
  else if m.defaultRateTier ≠ .unspecified then m.defaultRateTier
  else if 50 ≤ m.frequencyHz then .fast
  else if 5 ≤ m.frequencyHz then .medium
  else .slow

/-- Every signal with its file and message. -/
def Spec.signals (spec : Spec) : List (String × CanMessage × Signal) :=
  spec.messages.flatMap fun fm => fm.2.signal.map fun s => (fm.1, fm.2, s)

/-- What a telemetry binding is found at: a signal, or a bitfield type no signal uses yet. -/
inductive Source
  | signal (s : Signal)
  | bitfield (b : BitfieldType)

def Source.name : Source → String
  | .signal s => s.name
  | .bitfield b => b.name

/-- What `telemetry_bindings` yields. -/
structure TelemetryBinding where
  filename : String
  message : CanMessage
  source : Source
  bit : Option BitfieldBit
  telemetry : Telemetry

/-- The uses of bitfield types by signals, in order. -/
def bitfieldUses (spec : Spec) : List (String × String × CanMessage × Signal) :=
  spec.signals.filterMap fun use => use.2.2.bitfieldType.map fun name => (name, use)

/-- Where the bits of a bitfield type are reported: at its first user, or at the type itself. -/
def bitfieldWhere (spec : Spec) (filename : String) (b : BitfieldType) : String × CanMessage × Source :=
  match (bitfieldUses spec).lookup b.name with
  | some (file, m, s) => (file, m, .signal s)
  | none => (filename, {}, .bitfield b)

/-- The bindings of the signals that are not bitfields. -/
def signalBindings (spec : Spec) : List TelemetryBinding :=
  spec.signals.filterMap fun (filename, m, s) =>
    if s.bitfieldType.isSome then none
    else s.telemetry.map fun t => ⟨filename, m, .signal s, none, t⟩

/-- The bindings of the bits of bitfield types. -/
def bitBindings (spec : Spec) : List TelemetryBinding :=
  spec.bitfieldTypes.flatMap fun (filename, b) =>
    let (file, m, source) := bitfieldWhere spec filename b
    b.bit.filterMap fun bit => bit.telemetry.map fun t => ⟨file, m, source, some bit, t⟩

/-- `telemetry_bindings`. -/
def telemetryBindings (spec : Spec) : List TelemetryBinding := signalBindings spec ++ bitBindings spec

/-! ## Reports -/

/-- One entry of a report. -/
structure Finding where
  path : String
  rule : ℕ
  text : String
deriving DecidableEq

/-- The line `_Report.error` appends. -/
def Finding.render (f : Finding) : String := s!"{f.path}: {f.text} (rule {f.rule})"

/-- A finding where a condition holds. -/
def report (p : Prop) [Decidable p] (path : String) (rule : ℕ) (text : String) : List Finding :=
  if p then [⟨path, rule, text⟩] else []

@[simp] theorem report_eq_nil {p : Prop} [Decidable p] {path : String} {rule : ℕ} {text : String} :
    report p path rule text = [] ↔ ¬ p := by
  unfold report
  by_cases h : p <;> simp [h]

/-- `f"{n:#x}"`. -/
def hex (n : ℕ) : String := "0x" ++ String.ofList (Nat.toDigits 16 n)

/-- `sorted(set(...))`. -/
def sortedSet (l : List ℕ) : List ℕ := l.dedup.insertionSort (· ≤ ·)

/-! ## `_check_registries` -/

/-- A pass over a registry that remembers what it has seen. `check` sees each entry with what was registered under its
    key, and `register` says what the entry leaves there. -/
def walkRegistry {α κ ν : Type} [DecidableEq κ] (key : α → κ) (check : α → Option ν → List Finding)
    (register : α → Option ν → Option ν) : Dict κ ν → List α → List Finding
  | _, [] => []
  | seen, a :: rest =>
      let prior := Dict.get? seen (key a)
      let seen' := match register a prior with
        | some v => Dict.set (key a) v seen
        | none => seen
      check a prior ++ walkRegistry key check register seen' rest

/-- The check of the four registries: no two entries of one name. -/
def checkNames {α : Type} (kind : String) (name : α → String) (entries : List (String × α)) : List Finding :=
  walkRegistry (fun e => name e.2)
    (fun e prior => match prior with
      | some file => [⟨e.1, 5, s!"duplicate {kind} '{name e.2}' (also in {file})"⟩]
      | none => [])
    (fun e _ => some e.1) [] entries

/-- The check of one message's name and board. -/
def checkMessageName (fm : String × CanMessage) (prior : Option String) : List Finding :=
  let m := fm.2
  let path := s!"{fm.1}: {m.name}"
  report (¬ upperSnake m.name) path 5 "message name must be UPPER_SNAKE" ++
  (match prior with
    | some file => [⟨path, 5, s!"duplicate message name (also in {file})"⟩]
    | none => []) ++
  report (m.fromBoard = "") path 5 "from_board is required" ++
  match messagesStem fm.1 with
  | some stem =>
      report (m.fromBoard ≠ "" ∧ lower m.fromBoard ≠ stem) path 5
        s!"from_board '{m.fromBoard}' does not match its file (messages/{stem}.textproto)"
  | none => []

/-- The check of one group's root id. -/
def checkSnapshotId (fg : String × Group) (prior : Option String) : List Finding :=
  let path := s!"{fg.1}: group {fg.2.name}"
  if fg.2.snapshotId < 3 then
    [⟨path, 5, "snapshot_id must be >= 3; root fields 1 and 2 are time and packet_id"⟩]
  else match prior with
    | some name => [⟨path, 5, s!"snapshot_id {fg.2.snapshotId} already used by {name}"⟩]
    | none => []

/-- Only an id that passed its check is registered. -/
def registerSnapshotId (fg : String × Group) (prior : Option String) : Option String :=
  if checkSnapshotId fg prior = [] then some fg.2.name else none

/-- The check of the values of one enum type. -/
def checkEnumValues (filename : String) (e : EnumType) : List String → Dict ℕ String → List EnumValue → List Finding
  | _, _, [] => []
  | names, numbers, v :: rest =>
      let path := s!"{filename}: {e.name}.{v.name}"
      report (v.name ∈ names) path 5 "duplicate enum value name" ++
      (match Dict.get? numbers v.number with
        | some other => [⟨path, 5, s!"duplicate enum value number {v.number} (also {other})"⟩]
        | none => []) ++
      checkEnumValues filename e (v.name :: names) (Dict.set v.number v.name numbers) rest

/-- The check of the bits of one bitfield type. -/
def checkBitNames (filename : String) (b : BitfieldType) : List Finding :=
  walkRegistry BitfieldBit.name
    (fun bit prior => report (prior = some ()) s!"{filename}: {b.name}.{bit.name}" 5 "duplicate bitfield bit name")
    (fun _ _ => some ()) [] b.bit

/-- `_check_registries`. -/
def checkRegistries (spec : Spec) : List Finding :=
  checkNames "bus" Bus.name spec.buses ++
  checkNames "enum_type" EnumType.name spec.enumTypes ++
  checkNames "bitfield_type" BitfieldType.name spec.bitfieldTypes ++
  checkNames "group" Group.name spec.groups ++
  walkRegistry (fun fm => fm.2.name) checkMessageName (fun fm _ => some fm.1) [] spec.messages ++
  walkRegistry (fun fg => fg.2.snapshotId) checkSnapshotId registerSnapshotId [] spec.groups ++
  (spec.enumTypes.flatMap fun (filename, e) => checkEnumValues filename e [] [] e.value) ++
  (spec.bitfieldTypes.flatMap fun (filename, b) => checkBitNames filename b)

/-! ## `_check_signal_encoding` -/

/-- `enums`, `bitfields` and `buses` of `validate`: the registries by name. -/
structure Registries where
  enums : Dict String EnumType
  bitfields : Dict String BitfieldType
  buses : Dict String Bus

def Spec.registries (spec : Spec) : Registries where
  enums := Dict.index EnumType.name (spec.enumTypes.map Prod.snd)
  bitfields := Dict.index BitfieldType.name (spec.bitfieldTypes.map Prod.snd)
  buses := Dict.index Bus.name (spec.buses.map Prod.snd)

/-- `max((v.number for v in enum_type.value), default=0)`. -/
def EnumType.worst (e : EnumType) : ℕ := (e.value.map EnumValue.number).foldr max 0

/-- What `_check_signal_encoding` asks of an encoding of one kind. -/
def checkKind (reg : Registries) (path : String) (s : Signal) : Kind → List Finding
  | .enumType name =>
      match Dict.get? reg.enums name with
      | none => [⟨path, 5, s!"unknown enum_type '{name}'"⟩]
      | some e =>
          report (s.enc.sign ≠ .unsigned) path 6 "enum signals must be UNSIGNED" ++
          report ((rawRange s.enc).2 < e.worst) path 6
            s!"enum value {e.worst} does not fit in {s.enc.bitLength} bits"
  | .boolean _ => report (s.enc.bitLength ≠ 1) path 6 "boolean signals must have bit_length 1"
  | .bitfield name =>
      (match Dict.get? reg.bitfields name with
        | none => [⟨path, 5, s!"unknown bitfield '{name}'"⟩]
        | some b =>
            report (s.enc.bitLength < b.bit.length) path 6
              s!"bitfield {b.name} has {b.bit.length} bits, encoding only {s.enc.bitLength}") ++
      report (s.telemetry.isSome) path 6
        "bitfield signals bind telemetry on their bits in types.textproto, not on the signal"
  | .physical _ => []

/-- What it asks of a mux selector. -/
def checkSelector (path : String) (s : Signal) (kind : Kind) : List Finding :=
  if s.log.muxSelector then
    (match kind with
      | .physical _ | .enumType _ => []
      | _ => [⟨path, 3, "mux selector must be a physical integer or enum signal"⟩]) ++
    report (s.enc.sign ≠ .unsigned ∨ effectiveScale s.enc ≠ 1 ∨ s.enc.offset ≠ 0) path 3
      "mux selector must be raw unsigned (scale 1, offset 0)" ++
    report s.enc.muxed path 3 "mux selector cannot itself be muxed"
  else []

/-- What it asks of the declared range. -/
def checkRange (path : String) (e : Encoding) : List Finding :=
  if e.max < e.min then [⟨path, 6, s!"min {e.min} > max {e.max}"⟩]
  else if e.min ≠ 0 ∨ e.max ≠ 0 then
    let a := (rawRange e).1 * effectiveScale e + e.offset
    let b := (rawRange e).2 * effectiveScale e + e.offset
    let lo := min a b
    let hi := max a b
    report (e.min < lo - 1 / 10 ^ 9 ∨ hi + 1 / 10 ^ 9 < e.max) path 6
      s!"declared range [{e.min}, {e.max}] exceeds representable [{lo}, {hi}]"
  else []

/-- `_check_signal_encoding`: whether overlap analysis can go on, and the findings. -/
def checkSignalEncoding (reg : Registries) (path : String) (s : Signal) : Bool × List Finding :=
  if s.encoding.isNone ∨ s.logical.isNone then
    (false, [⟨path, 6, "signal must have both encoding and logical"⟩])
  else match s.kind with
  | none => (false, [⟨path, 5, "logical.kind must be set"⟩])
  | some kind =>
      if s.enc.bitLength < 1 then (false, [⟨path, 6, "bit_length must be >= 1"⟩])
      else if 64 < s.enc.bitLength then (false, [⟨path, 6, "bit_length must be <= 64"⟩])
      else
        (true,
          report (s.enc.sign = .signed ∧ s.enc.bitLength < 2) path 6 "signed signals need bit_length >= 2" ++
          checkKind reg path s kind ++ checkSelector path s kind ++ checkRange path s.enc)

/-! ## `_check_frames` -/

/-- `mux_key`: the mux value of a muxed signal. -/
def muxKey (s : Signal) : Option ℕ := if s.muxed then some s.enc.muxValue else none

/-- `occupied`: the name and mux key of the signal that marked a bit last. -/
abbrev Occupied := Dict ℕ (String × Option ℕ)

/-- The loop over the bits of one signal; it stops at the first conflict. -/
def occupy (path name : String) (key : Option ℕ) : Occupied → List ℕ → List Finding × Occupied
  | occupied, [] => ([], occupied)
  | occupied, bit :: bits =>
      match Dict.get? occupied bit with
      | some (otherName, otherKey) =>
          -- signals with different mux values may share bits
          if key = none ∨ otherKey = none ∨ key = otherKey then
            ([⟨path, 3, s!"bit {bit} overlaps signal '{otherName}'"⟩], occupied)
          else occupy path name key (Dict.set bit (name, key) occupied) bits
      | none => occupy path name key (Dict.set bit (name, key) occupied) bits

/-- The loop over the signals of one message. -/
def checkSignals (reg : Registries) (path : String) (dlc : ℕ) :
    List String → Occupied → List Signal → List Finding
  | _, _, [] => []
  | seen, occupied, s :: rest =>
      let sigPath := s!"{path}.{s.name}"
      let named :=
        report (¬ lowerSnake s.name) sigPath 5 "signal name must be lower_snake" ++
        report (s.name ∈ seen) sigPath 3 "duplicate signal name"
      let (analysable, findings) := checkSignalEncoding reg sigPath s
      if ¬ analysable then named ++ findings ++ checkSignals reg path dlc (s.name :: seen) occupied rest
      else
        let bits := occupiedBits s.enc
        let last := bits.foldr max 0
        if dlc * 8 ≤ last then
          named ++ findings ++ [⟨sigPath, 3, s!"signal spans bit {last}, frame has {dlc * 8} bits"⟩] ++
            checkSignals reg path dlc (s.name :: seen) occupied rest
        else
          let (overlaps, occupied') := occupy sigPath s.name (muxKey s) occupied bits
          named ++ findings ++ overlaps ++ checkSignals reg path dlc (s.name :: seen) occupied' rest

/-- The checks of a message's bus and length. -/
def checkBus (reg : Registries) (path : String) (m : CanMessage) : List Finding :=
  let fd := ((Dict.get? reg.buses m.bus).map Bus.fd).getD false
  let medium := if fd then "FD" else "classic"
  report (Dict.get? reg.buses m.bus = none) path 5 s!"unknown bus '{m.bus}'" ++
  report (8 < m.dlc ∧ (fd = false ∨ m.dlc ∉ fdDlcs)) path 3 s!"dlc {m.dlc} invalid for {medium} bus '{m.bus}'"

/-- `id_range`. -/
def idRange (m : CanMessage) : List ℕ := List.range' m.canId (effectiveQuantity m)

/-- The loop that claims the ids of one message on its bus. -/
def claimIds (path : String) (m : CanMessage) :
    Dict (String × ℕ) String → List ℕ → List Finding × Dict (String × ℕ) String
  | claims, [] => ([], claims)
  | claims, id :: ids =>
      let (findings, claims') := claimIds path m (Dict.set (m.bus, id) m.name claims) ids
      match Dict.get? claims (m.bus, id) with
      | some name => (⟨path, 4, s!"CAN ID {hex id} already used by {name}"⟩ :: findings, claims')
      | none => (findings, claims')

/-- The signals marked as the mux selector. -/
def selectors (m : CanMessage) : List Signal := m.signal.filter fun s => s.log.muxSelector

/-- The checks of a message's mux selectors. -/
def checkMux (path : String) (m : CanMessage) : List Finding :=
  let names := ", ".intercalate ((selectors m).map Signal.name)
  let muxed := m.signal.filter Signal.muxed
  report (1 < (selectors m).length) path 3 s!"multiple mux selectors: {names}" ++
  report (muxed ≠ [] ∧ selectors m = []) path 3 "muxed signals but no signal marked logical.mux_selector" ++
  report (selectors m ≠ [] ∧ muxed = []) path 3 s!"mux selector '{names}' but no muxed signals"

/-- `_check_frames`; `claims` holds the ids claimed so far on each bus. -/
def checkFrames (reg : Registries) : Dict (String × ℕ) String → List (String × CanMessage) → List Finding
  | _, [] => []
  | claims, (filename, m) :: rest =>
      let path := s!"{filename}: {m.name}"
      let stop := m.canId + effectiveQuantity m - 1
      let (taken, claims') := claimIds path m claims (idRange m)
      checkBus reg path m ++
      report (0x7FF < stop) path 4 s!"IDs [{hex m.canId}, {hex stop}] exceed the 11-bit standard range" ++
      taken ++ checkMux path m ++ checkSignals reg path m.dlc [] [] m.signal ++
      checkFrames reg claims' rest

/-! ## `_check_bitfield_references` -/

/-- The bitfield types with a telemetry-bound bit. -/
def telemetryBitfields (spec : Spec) : List String :=
  (spec.bitfieldTypes.filter fun fb => fb.2.bit.any fun bit => bit.telemetry.isSome).map fun fb => fb.2.name

/-- `_check_bitfield_references`: the loop over the uses, with the first user of each type. -/
def checkBitfieldReferences (bound : List String) :
    Dict String String → List (String × String × CanMessage × Signal) → List Finding
  | _, [] => []
  | users, (name, filename, m, s) :: rest =>
      let path := s!"{filename}: {m.name}.{s.name}"
      let prior := Dict.get? users name
      report (name ∈ bound ∧ prior.isSome) path 1
        s!"bitfield '{name}' has telemetry-bound bits and is already used by {prior.getD path}" ++
      checkBitfieldReferences bound (Dict.set name (prior.getD path) users) rest

/-! ## `_check_ledgers` -/

/-- `source_contract`: what two sources of one scalar field must agree on. -/
structure SourceContract where
  bitLength : ℕ
  sign : Sign
  scale : ℚ
  offset : ℚ
  logical : Logical
  wireType : ProtoScalarType
deriving DecidableEq

/-- The arguments of `record`. -/
structure LedgerBinding where
  group : String
  field : String
  id : ℕ
  repeated : Bool
  arrayIndex : ℕ
  path : String
  sharedSource : Bool := false
  sourceContract : Option SourceContract := none
  producer : Option String := none

/-- An entry of `live`. -/
structure LedgerEntry where
  id : ℕ
  repeated : Bool
  indexes : List ℕ
  path : String
  sharedSource : Bool
  sourceContract : Option SourceContract
  producers : List (Option String)

/-- The state of `_check_ledgers`: `live`, group by group, and `field_names`. -/
structure Ledger where
  live : Dict String (Dict String LedgerEntry) := []
  fieldNames : Dict String (String × String) := []

/-- `live[group_name]`. -/
def Ledger.group (l : Ledger) (name : String) : Dict String LedgerEntry := (Dict.get? l.live name).getD []

/-- The first entry of a field. -/
def LedgerBinding.entry (b : LedgerBinding) : LedgerEntry where
  id := b.id
  repeated := b.repeated
  indexes := [b.arrayIndex]
  path := b.path
  sharedSource := b.sharedSource
  sourceContract := b.sourceContract
  producers := [b.producer]

/-- The entry after a further binding. -/
def LedgerEntry.add (e : LedgerEntry) (b : LedgerBinding) : LedgerEntry :=
  { e with indexes := b.arrayIndex :: e.indexes, producers := b.producer :: e.producers }

/-- The findings of the first binding of a field: ids taken by other fields of the group. -/
def checkFirst (live : Dict String LedgerEntry) (b : LedgerBinding) : List Finding :=
  live.flatMap fun (otherField, other) =>
    report (other.id = b.id) b.path 1 s!"telemetry id {b.id} already used by '{otherField}' ({other.path})"

/-- The findings of a further binding of a field. -/
def checkFurther (e : LedgerEntry) (b : LedgerBinding) : List Finding :=
  report (e.id ≠ b.id) b.path 1 s!"field '{b.field}' bound with id {b.id} but {e.path} uses id {e.id}" ++
  if e.sharedSource ∧ b.sharedSource ∧ ¬ b.repeated then
    report (e.sourceContract ≠ b.sourceContract) b.path 1
      s!"shared field '{b.field}' has a different encoding, meaning, unit, or wire type from {e.path}" ++
    report (b.producer ∈ e.producers) b.path 1 s!"shared field '{b.field}' is already bound in this message"
  else if ¬ (e.repeated ∧ b.repeated) then
    [⟨b.path, 1, s!"field '{b.field}' already bound by {e.path}"⟩]
  else
    report (b.arrayIndex ∈ e.indexes) b.path 1
      s!"field '{b.field}' array_index {b.arrayIndex} already bound by {e.path}"

/-- The finding on a field name that another group uses. -/
def checkFieldName (l : Ledger) (b : LedgerBinding) : List Finding :=
  match Dict.get? l.fieldNames b.field with
  | some prior => report (prior.1 ≠ b.group) b.path 2 s!"field name '{b.field}' already used by {prior.2}"
  | none => []

/-- The findings of `record` once its early returns are passed. -/
def checkRecord (l : Ledger) (b : LedgerBinding) : List Finding :=
  (match Dict.get? (l.group b.group) b.field with
    | none => checkFirst (l.group b.group) b
    | some e => checkFurther e b) ++ checkFieldName l b

/-- What `record` notes once its early returns are passed. -/
def Ledger.note (l : Ledger) (b : LedgerBinding) : Ledger where
  live :=
    Dict.set b.group
      (Dict.set b.field (((Dict.get? (l.group b.group) b.field).map fun e => e.add b).getD b.entry) (l.group b.group))
      l.live
  fieldNames := Dict.set b.field ((Dict.get? l.fieldNames b.field).getD (b.group, b.path)) l.fieldNames

/-- `record`. -/
def record (groupNames : List String) (l : Ledger) (b : LedgerBinding) : List Finding × Ledger :=
  if b.group ∉ groupNames then ([⟨b.path, 5, s!"unknown telemetry group '{b.group}'"⟩], l)
  else if b.field = "" ∨ ¬ lowerSnake b.field then
    ([⟨b.path, 1, s!"telemetry field '{b.field}' must be lower_snake"⟩], l)
  else if b.id = 0 then ([⟨b.path, 1, "telemetry id 0 is not a valid proto field number"⟩], l)
  else (checkRecord l b, l.note b)

/-- `record` over a list, each binding after the findings made on the way to it. -/
def recordAll (groupNames : List String) : Ledger → List (List Finding × LedgerBinding) → List Finding × Ledger
  | l, [] => ([], l)
  | l, (findings, b) :: rest =>
      let (recorded, l') := record groupNames l b
      let (later, l'') := recordAll groupNames l' rest
      (findings ++ recorded ++ later, l'')

/-- `where` of a telemetry binding. -/
def TelemetryBinding.path (b : TelemetryBinding) : String :=
  let suffix := match b.bit with
    | some bit => s!".{bit.name}"
    | none => ""
  let lead := if b.message.name = "" then "" else s!"{b.message.name}."
  s!"{b.filename}: {lead}{b.source.name}{suffix}"

/-- The source contract of a shared scalar. -/
def TelemetryBinding.contract (b : TelemetryBinding) : Option SourceContract :=
  match b.source, b.bit with
  | .signal s, none =>
      if b.telemetry.sharedSource then
        some
          { bitLength := s.enc.bitLength
            sign := s.enc.sign
            scale := effectiveScale s.enc
            offset := s.enc.offset
            logical := s.log
            wireType := b.telemetry.wireType }
      else none
  | _, _ => none

/-- What `_check_ledgers` hands to `record` for a telemetry binding, and what it finds before. -/
def TelemetryBinding.record (b : TelemetryBinding) : List Finding × LedgerBinding :=
  let t := b.telemetry
  (report (resolveTier b.message t = .unspecified) b.path 7 "signal does not resolve to a concrete rate tier" ++
    report (t.sharedSource ∧ (t.repeated ∨ b.bit.isSome)) b.path 1 "shared_source requires a scalar CAN signal",
    { group := t.group
      field := t.field
      id := t.id
      repeated := t.repeated
      arrayIndex := t.arrayIndex
      path := b.path
      sharedSource := t.sharedSource
      sourceContract := b.contract
      producer := some b.message.name })

/-- The external fields, with their file and group. -/
def externalFields (spec : Spec) : List (String × Group × SnapshotField) :=
  spec.groups.flatMap fun (filename, g) => g.externalField.map fun field => (filename, g, field)

/-- What it hands over for an external field. -/
def recordExternal (external : String × Group × SnapshotField) : List Finding × LedgerBinding :=
  let (filename, g, field) := external
  let path := s!"{filename}: {g.name}.{field.name}"
  (report (field.type = .unspecified) path 5 "external snapshot field type is required",
    { group := g.name
      field := field.name
      id := field.id
      repeated := field.repeated
      arrayIndex := 0
      path := path })

/-- Everything `_check_ledgers` records, in order. -/
def ledgerSources (spec : Spec) : List (List Finding × LedgerBinding) :=
  (telemetryBindings spec).map TelemetryBinding.record ++ (externalFields spec).map recordExternal

/-- The checks of one group's ledger against what is live. -/
def checkPartition (live : Dict String LedgerEntry) (filename : String) (g : Group) : List Finding :=
  let path := s!"{filename}: group {g.name}"
  let liveIds := live.map fun entry => entry.2.id
  let expected := List.range' 1 (g.nextFreeId - 1)
  let overlap := sortedSet (liveIds.filter (· ∈ g.reservedIds))
  let missing := sortedSet (expected.filter fun id => id ∉ liveIds ∧ id ∉ g.reservedIds)
  let stray := sortedSet ((liveIds ++ g.reservedIds).filter (· ∉ expected))
  report (overlap ≠ []) path 1 s!"ids {overlap} are both live and reserved" ++
  report (missing ≠ []) path 1
    s!"ids {missing} below next_free_id {g.nextFreeId} are neither live nor reserved — tombstone them" ++
  report (stray ≠ []) path 1 s!"ids {stray} at or above next_free_id {g.nextFreeId} — bump next_free_id" ++
  live.flatMap fun (field, entry) =>
    report (field ∈ g.reservedNames) entry.path 1 s!"field name '{field}' is tombstoned in group {g.name}"

/-- The groups by name. -/
def Spec.groupsByName (spec : Spec) : Dict String (String × Group) := Dict.index (fun fg => fg.2.name) spec.groups

/-- `_check_ledgers`. -/
def checkLedgers (spec : Spec) : List Finding :=
  let groups := spec.groupsByName
  let (recorded, ledger) := recordAll (Dict.keys groups) {} (ledgerSources spec)
  recorded ++ groups.flatMap fun (name, filename, g) => checkPartition (ledger.group name) filename g

/-! ## `_check_bus_load` -/

/-- `classic_frame_bits`: the worst-case bits of a classic data frame. -/
def classicFrameBits (dlc : ℕ) : ℕ := 47 + 8 * dlc + (34 + 8 * dlc - 1) / 4

/-- `f"{q:.0%}"`. -/
def percent (q : ℚ) : String := s!"{⌊q * 100 + 1 / 2⌋}%"

/-- `_check_bus_load`: the warnings. -/
def checkBusLoad (reg : Registries) (spec : Spec) : List Finding :=
  let counted := spec.messages.filter fun fm => (Dict.get? reg.buses fm.2.bus).isSome && fm.2.dlc ≤ 8
  let loads : Dict String ℚ :=
    Dict.collect (fun fm => fm.2.bus)
      (fun old fm => old.getD 0 + classicFrameBits fm.2.dlc * fm.2.frequencyHz * effectiveQuantity fm.2) [] counted
  loads.flatMap fun (bus, bps) =>
    let bitrate := ((Dict.get? reg.buses bus).map Bus.bitrateBps).getD 0
    report (bitrate ≠ 0 ∧ 8 / 10 < bps / bitrate) s!"bus {bus}" 8
      s!"estimated worst-case load {percent (bps / bitrate)} exceeds {percent (8 / 10)} of {bitrate} bps"

/-! ## `validate` -/

/-- `validate`: the errors and the warnings. -/
def validate (spec : Spec) : List Finding × List Finding :=
  let reg := spec.registries
  (checkRegistries spec ++ checkFrames reg [] spec.messages ++
    checkBitfieldReferences (telemetryBitfields spec) [] (bitfieldUses spec) ++ checkLedgers spec,
    checkBusLoad reg spec)

/-- `validate` reports no error. -/
def Spec.Valid (spec : Spec) : Prop := (validate spec).1 = []

instance (spec : Spec) : Decidable spec.Valid := inferInstanceAs (Decidable ((validate spec).1 = []))

end Lhre.CanSpec
