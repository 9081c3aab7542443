import Lhre.CanSpec.Validator
import Lhre.Theory.BitLayout
import Lhre.Theory.Overlap

/-!
# `CanSpec.Frames` — what the registry and frame checks accept

Each check of the validator restated as the property of the spec it decides, so that the results about accepted specs
argue from properties and not from reports.

## Contents
- **Registries.** No name occurs twice, and a lookup finds the entry of that name.
- **Bits.** `occupiedBits` in terms of the positions of a walk.
- **Signals.** `SignalOk`, and what it says of an encoding.
- **Occupancy.** The loops over bits and signals are the one-owner scan of `Theory.Overlap`.
- **Messages.** `MessageOk`, `Spec.Valid.message`, and the ids of a bus.
-/

namespace Lhre.CanSpec

open BitLayout

/-! ## Registries -/

section WalkRegistry

variable {α κ ν : Type} [DecidableEq κ] {key : α → κ} {check : α → Option ν → List Finding}
  {register : α → Option ν → Option ν} {P : α → Prop}

/-- **A registry walk reports nothing** exactly when every entry is in order and no key comes twice. -/
theorem walkRegistry_eq_nil (hcheck : ∀ a prior, check a prior = [] ↔ prior = none ∧ P a)
    (hregister : ∀ a, P a → ∃ v, register a none = some v) (seen : Dict κ ν) (l : List α) :
    walkRegistry key check register seen l = [] ↔
      (∀ a ∈ l, P a) ∧ (∀ a ∈ l, key a ∉ Dict.keys seen) ∧ (l.map key).Nodup := by
  induction l generalizing seen with
  | nil => simp [walkRegistry]
  | cons a l ih =>
      simp only [walkRegistry, List.append_eq_nil_iff, hcheck, Dict.get?_eq_none]
      constructor
      · rintro ⟨⟨hnew, ha⟩, hrest⟩
        obtain ⟨v, hv⟩ := hregister a ha
        rw [Dict.get?_eq_none.mpr hnew, hv, ih] at hrest
        obtain ⟨hall, hseen, hnodup⟩ := hrest
        refine ⟨List.forall_mem_cons.mpr ⟨ha, hall⟩, List.forall_mem_cons.mpr ⟨hnew, ?_⟩, ?_⟩
        · intro b hb hmem
          exact hseen b hb (Dict.mem_keys_set.mpr (Or.inr hmem))
        · rw [List.map_cons, List.nodup_cons]
          refine ⟨?_, hnodup⟩
          rintro hmem
          obtain ⟨b, hb, hkey⟩ := List.mem_map.mp hmem
          exact hseen b hb (Dict.mem_keys_set.mpr (Or.inl hkey))
      · rintro ⟨hall, hseen, hnodup⟩
        have ha := hall a List.mem_cons_self
        have hnew := hseen a List.mem_cons_self
        obtain ⟨v, hv⟩ := hregister a ha
        rw [List.map_cons, List.nodup_cons] at hnodup
        refine ⟨⟨hnew, ha⟩, ?_⟩
        rw [Dict.get?_eq_none.mpr hnew, hv, ih]
        refine ⟨?_, ?_, hnodup.2⟩
        · intro b hb
          exact hall b (List.mem_cons_of_mem _ hb)
        · intro b hb hmem
          rcases Dict.mem_keys_set.mp hmem with heq | hmem
          · exact hnodup.1 (List.mem_map.mpr ⟨b, hb, heq⟩)
          · exact hseen b (List.mem_cons_of_mem _ hb) hmem

end WalkRegistry

theorem checkNames_eq_nil {α : Type} {kind : String} {name : α → String} {entries : List (String × α)} :
    checkNames kind name entries = [] ↔ (entries.map fun e => name e.2).Nodup := by
  unfold checkNames
  rw [walkRegistry_eq_nil (P := fun _ => True)]
  · simp [Dict.keys]
  · intro a prior
    cases prior <;> simp
  · intro a _
    exact ⟨a.1, rfl⟩

/-- The part of `validate` that is empty on an accepted spec, check by check. -/
theorem Spec.valid_iff {spec : Spec} : spec.Valid ↔
    checkRegistries spec = [] ∧ checkFrames spec.registries [] spec.messages = [] ∧
      checkBitfieldReferences (telemetryBitfields spec) [] (bitfieldUses spec) = [] ∧ checkLedgers spec = [] := by
  unfold Spec.Valid validate
  simp only [List.append_eq_nil_iff, and_assoc]

/-- What `_check_registries` guarantees. -/
structure RegistriesOk (spec : Spec) : Prop where
  buses : (spec.buses.map fun e => e.2.name).Nodup
  enumTypes : (spec.enumTypes.map fun e => e.2.name).Nodup
  bitfieldTypes : (spec.bitfieldTypes.map fun e => e.2.name).Nodup
  groups : (spec.groups.map fun e => e.2.name).Nodup
  messages : (spec.messages.map fun e => e.2.name).Nodup
  messageNames : ∀ fm ∈ spec.messages, upperSnake fm.2.name
  snapshotIds : (spec.groups.map fun e => e.2.snapshotId).Nodup
  snapshotIdBounds : ∀ fg ∈ spec.groups, 3 ≤ fg.2.snapshotId

theorem checkMessageName_eq_nil (fm : String × CanMessage) (prior : Option String) :
    checkMessageName fm prior = [] ↔ prior = none ∧ (upperSnake fm.2.name ∧ fm.2.fromBoard ≠ "" ∧
      ∀ stem, messagesStem fm.1 = some stem → lower fm.2.fromBoard = stem) := by
  unfold checkMessageName
  cases prior with
  | some file => simp
  | none =>
      cases hstem : messagesStem fm.1 with
      | none => simp
      | some stem =>
          simp only [List.append_eq_nil_iff, report_eq_nil, not_not, not_and, Option.some.injEq]
          constructor
          · rintro ⟨⟨⟨hname, -⟩, hboard⟩, hfile⟩
            refine ⟨trivial, hname, hboard, ?_⟩
            rintro _ rfl
            exact hfile hboard
          · rintro ⟨-, hname, hboard, hfile⟩
            exact ⟨⟨⟨hname, trivial⟩, hboard⟩, fun _ => hfile stem rfl⟩

theorem checkSnapshotId_eq_nil (fg : String × Group) (prior : Option String) :
    checkSnapshotId fg prior = [] ↔ prior = none ∧ 3 ≤ fg.2.snapshotId := by
  unfold checkSnapshotId
  by_cases h : fg.2.snapshotId < 3
  · simp [h]
  · cases prior with
    | none => simp only [h, if_false, true_and, true_iff]; omega
    | some name => simp [h]

/-- **The registries of an accepted spec hold no name twice.** -/
theorem Spec.Valid.registries {spec : Spec} (h : spec.Valid) : RegistriesOk spec := by
  have hreg := (Spec.valid_iff.mp h).1
  unfold checkRegistries at hreg
  simp only [List.append_eq_nil_iff] at hreg
  obtain ⟨⟨⟨⟨⟨⟨⟨hbus, henum⟩, hbitfield⟩, hgroup⟩, hmessage⟩, hsnapshot⟩, -⟩, -⟩ := hreg
  rw [walkRegistry_eq_nil checkMessageName_eq_nil (fun fm _ => ⟨fm.1, rfl⟩)] at hmessage
  rw [walkRegistry_eq_nil checkSnapshotId_eq_nil] at hsnapshot
  · exact
      { buses := checkNames_eq_nil.mp hbus
        enumTypes := checkNames_eq_nil.mp henum
        bitfieldTypes := checkNames_eq_nil.mp hbitfield
        groups := checkNames_eq_nil.mp hgroup
        messages := hmessage.2.2
        messageNames := fun fm hfm => (hmessage.1 fm hfm).1
        snapshotIds := hsnapshot.2.2
        snapshotIdBounds := hsnapshot.1 }
  · intro fg hfg
    exact ⟨fg.2.name, if_pos ((checkSnapshotId_eq_nil fg none).mpr ⟨rfl, hfg⟩)⟩

/-- The entry a registry has under a name is one of the spec's. -/
theorem of_get?_bitfields {spec : Spec} {name : String} {b : BitfieldType}
    (h : Dict.get? spec.registries.bitfields name = some b) :
    (∃ file, (file, b) ∈ spec.bitfieldTypes) ∧ b.name = name := by
  obtain ⟨hmem, hname⟩ := Dict.of_get?_index h
  obtain ⟨⟨file, b'⟩, hfile, rfl⟩ := List.mem_map.mp hmem
  exact ⟨⟨file, hfile⟩, hname⟩

/-- In an accepted spec every bitfield type is the entry of its name. -/
theorem RegistriesOk.get?_bitfields {spec : Spec} (h : RegistriesOk spec) {file : String} {b : BitfieldType}
    (hb : (file, b) ∈ spec.bitfieldTypes) : Dict.get? spec.registries.bitfields b.name = some b := by
  apply Dict.get?_index_of_mem
  · rw [List.map_map]
    exact h.bitfieldTypes
  · exact List.mem_map.mpr ⟨(file, b), hb, rfl⟩

/-! ## Bits -/

/-- `enc.byte_order == BIG_ENDIAN`. -/
def Encoding.big (e : Encoding) : Bool := e.byteOrder == .bigEndian

theorem descendingBits_position (start n k : ℕ) :
    descendingBits n (position true start k / 8) (position true start k % 8) =
      (List.range' k n).map (position true start) := by
  induction n generalizing k with
  | zero => rfl
  | succ n ih =>
      have hstep := advance_position true start k
      rw [List.range'_succ, List.map_cons]
      unfold descendingBits
      congr 1
      · omega
      · rw [← ih (k + 1)]
        unfold advance at hstep
        simp only [if_true] at hstep
        by_cases h : position true start k % 8 = 0
        · rw [if_pos h] at hstep ⊢
          obtain ⟨hbyte, hbit⟩ := Prod.mk.inj hstep
          rw [← hbyte, ← hbit]
        · rw [if_neg h] at hstep ⊢
          obtain ⟨hbyte, hbit⟩ := Prod.mk.inj hstep
          rw [← hbyte, ← hbit]

/-- **The occupied bits are the positions of a walk.** -/
theorem occupiedBits_eq (e : Encoding) :
    occupiedBits e = (List.range e.bitLength).map (position e.big e.startBit) := by
  unfold occupiedBits Encoding.big
  cases e.byteOrder with
  | littleEndian =>
      show List.range' e.startBit e.bitLength = (List.range e.bitLength).map (position false e.startBit)
      rw [List.range'_eq_map_range]
      apply List.map_congr_left
      intro k _
      rw [position_little]
  | bigEndian =>
      have h := descendingBits_position e.startBit e.bitLength 0
      rw [position_zero, ← List.range_eq_range'] at h
      exact h

theorem mem_occupiedBits {e : Encoding} {p : ℕ} :
    p ∈ occupiedBits e ↔ ∃ j, j < e.bitLength ∧ place e.big e.startBit e.bitLength j = p := by
  rw [occupiedBits_eq, exists_place_iff]
  simp only [List.mem_map, List.mem_range]

theorem nodup_occupiedBits (e : Encoding) : (occupiedBits e).Nodup := by
  rw [occupiedBits_eq]
  exact List.Nodup.map (fun k l h => position_inj h) List.nodup_range

/-! ## Signals -/

/-- What an accepted signal's kind guarantees. -/
def KindOk (reg : Registries) (s : Signal) : Kind → Prop
  | .physical _ => True
  | .enumType name =>
      ∃ e, Dict.get? reg.enums name = some e ∧ s.enc.sign = .unsigned ∧ (e.worst : ℤ) ≤ (rawRange s.enc).2
  | .boolean _ => s.enc.bitLength = 1
  | .bitfield name =>
      ∃ b, Dict.get? reg.bitfields name = some b ∧ b.bit.length ≤ s.enc.bitLength ∧ s.telemetry = none

/-- What an accepted mux selector guarantees. -/
structure SelectorOk (s : Signal) : Prop where
  kind : (∃ unit, s.kind = some (.physical unit)) ∨ ∃ name, s.kind = some (.enumType name)
  sign : s.enc.sign = .unsigned
  scale : effectiveScale s.enc = 1
  offset : s.enc.offset = 0
  muxed : s.muxed = false

/-- What an accepted declared range guarantees. -/
def RangeOk (e : Encoding) : Prop :=
  e.min ≤ e.max ∧ (e.min ≠ 0 ∨ e.max ≠ 0 →
    let a := (rawRange e).1 * effectiveScale e + e.offset
    let b := (rawRange e).2 * effectiveScale e + e.offset
    min a b - 1 / 10 ^ 9 ≤ e.min ∧ e.max ≤ max a b + 1 / 10 ^ 9)

/-- A signal `_check_signal_encoding` has nothing to say about. -/
structure SignalOk (reg : Registries) (s : Signal) : Prop where
  encoding : s.encoding.isSome
  logical : s.logical.isSome
  kind : ∃ kind, s.kind = some kind ∧ KindOk reg s kind
  length_pos : 1 ≤ s.enc.bitLength
  length_le : s.enc.bitLength ≤ 64
  signed : s.enc.sign = .signed → 2 ≤ s.enc.bitLength
  selector : s.log.muxSelector = true → SelectorOk s
  range : RangeOk s.enc

theorem checkKind_eq_nil {reg : Registries} {path : String} {s : Signal} {kind : Kind} :
    checkKind reg path s kind = [] ↔ KindOk reg s kind := by
  cases kind with
  | physical unit => simp [checkKind, KindOk]
  | boolean value => simp [checkKind, KindOk]
  | enumType name =>
      cases h : Dict.get? reg.enums name with
      | none => simp [checkKind, KindOk, h]
      | some e => simp [checkKind, KindOk, h]
  | bitfield name =>
      cases h : Dict.get? reg.bitfields name with
      | none => simp [checkKind, KindOk, h]
      | some b => simp [checkKind, KindOk, h]

theorem checkSelector_eq_nil {path : String} {s : Signal} {kind : Kind} (hkind : s.kind = some kind) :
    checkSelector path s kind = [] ↔ (s.log.muxSelector = true → SelectorOk s) := by
  unfold checkSelector
  by_cases h : s.log.muxSelector = true
  · simp only [h, if_true, List.append_eq_nil_iff, report_eq_nil, not_or, not_not, Bool.not_eq_true, forall_const]
    constructor
    · rintro ⟨⟨hk, hsign, hscale, hoffset⟩, hmuxed⟩
      refine ⟨?_, hsign, hscale, hoffset, hmuxed⟩
      cases kind with
      | physical unit =>
          left
          exact ⟨unit, hkind⟩
      | enumType name =>
          right
          exact ⟨name, hkind⟩
      | boolean value => simp at hk
      | bitfield name => simp at hk
    · intro hok
      refine ⟨⟨?_, hok.sign, hok.scale, hok.offset⟩, hok.muxed⟩
      rcases hok.kind with ⟨unit, hunit⟩ | ⟨name, hname⟩
      · rw [Option.some.inj (hkind.symm.trans hunit)]
      · rw [Option.some.inj (hkind.symm.trans hname)]
  · simp [h]

theorem checkRange_eq_nil {path : String} {e : Encoding} : checkRange path e = [] ↔ RangeOk e := by
  unfold checkRange RangeOk
  by_cases hlt : e.max < e.min
  · simp only [hlt, if_true, List.cons_ne_nil, false_iff, not_and]
    intro hle
    exact absurd hlt (not_lt.mpr hle)
  · by_cases hset : e.min ≠ 0 ∨ e.max ≠ 0
    · simp only [hlt, hset, if_true, if_false, report_eq_nil, not_or, not_lt, not_lt.mp hlt, true_and, forall_const]
    · simp only [hlt, hset, if_false, not_lt.mp hlt, true_and, false_imp_iff]

/-- **What `_check_signal_encoding` decides.** -/
theorem checkSignalEncoding_iff {reg : Registries} {path : String} {s : Signal} :
    checkSignalEncoding reg path s = (true, []) ↔ SignalOk reg s := by
  unfold checkSignalEncoding
  by_cases hset : s.encoding.isNone = true ∨ s.logical.isNone = true
  · rw [if_pos hset]
    constructor
    · intro h
      exact absurd (congrArg Prod.fst h) Bool.false_ne_true
    · intro h
      have h1 := h.encoding
      have h2 := h.logical
      rcases hset with hset | hset
      · rw [Option.isNone_iff_eq_none.mp hset] at h1
        exact absurd h1 Bool.false_ne_true
      · rw [Option.isNone_iff_eq_none.mp hset] at h2
        exact absurd h2 Bool.false_ne_true
  · rw [if_neg hset]
    rw [not_or, Bool.not_eq_true, Bool.not_eq_true, Option.isNone_eq_false_iff, Option.isNone_eq_false_iff] at hset
    cases hkind : s.kind with
    | none =>
        constructor
        · intro h
          exact absurd (congrArg Prod.fst h) Bool.false_ne_true
        · intro h
          obtain ⟨kind, hk, -⟩ := h.kind
          exact absurd (hkind.symm.trans hk) (by simp)
    | some kind =>
        show (if s.enc.bitLength < 1 then _ else _) = _ ↔ _
        by_cases hpos : s.enc.bitLength < 1
        · rw [if_pos hpos]
          constructor
          · intro h
            exact absurd (congrArg Prod.fst h) Bool.false_ne_true
          · intro h
            exact absurd hpos (not_lt.mpr h.length_pos)
        · rw [if_neg hpos]
          by_cases hle : 64 < s.enc.bitLength
          · rw [if_pos hle]
            constructor
            · intro h
              exact absurd (congrArg Prod.fst h) Bool.false_ne_true
            · intro h
              exact absurd hle (not_lt.mpr h.length_le)
          · rw [if_neg hle]
            simp only [Prod.mk.injEq, List.append_eq_nil_iff, report_eq_nil, checkKind_eq_nil,
              checkSelector_eq_nil hkind, checkRange_eq_nil, true_and, not_and, not_lt]
            constructor
            · rintro ⟨⟨⟨hsigned, hk⟩, hsel⟩, hrange⟩
              exact
                { encoding := hset.1
                  logical := hset.2
                  kind := ⟨kind, hkind, hk⟩
                  length_pos := not_lt.mp hpos
                  length_le := not_lt.mp hle
                  signed := hsigned
                  selector := hsel
                  range := hrange }
            · intro h
              obtain ⟨kind', hkind', hk⟩ := h.kind
              rw [Option.some.inj (hkind.symm.trans hkind')]
              exact ⟨⟨⟨h.signed, hk⟩, h.selector⟩, h.range⟩

/-! ## Occupancy -/

/-- The name and mux key `occupied` keeps of a signal. -/
def mark (s : Signal) : String × Option ℕ := (s.name, muxKey s)

/-- The claim of a signal on the bits it occupies. -/
abbrev bitsOf (s : Signal) : List ℕ := occupiedBits s.enc

/-- **The loop over one signal's bits** reports nothing exactly when no marked bit conflicts, and then it has marked
    them all. -/
theorem occupy_eq_nil (path name : String) (key : Option ℕ) (bits : List ℕ) (hnodup : bits.Nodup)
    (occupied : Occupied) :
    ((occupy path name key occupied bits).1 = [] ↔ ∀ bit ∈ bits, ∀ o, Dict.get? occupied bit = some o →
      ¬ (key = none ∨ o.2 = none ∨ key = o.2)) ∧
    ((occupy path name key occupied bits).1 = [] → ∀ bit, Dict.get? (occupy path name key occupied bits).2 bit =
      if bit ∈ bits then some (name, key) else Dict.get? occupied bit) := by
  induction bits generalizing occupied with
  | nil => simp [occupy]
  | cons b bits ih =>
      obtain ⟨hb, hbits⟩ := List.nodup_cons.mp hnodup
      -- marking `b` changes nothing for the bits still to come
      have hrest : ∀ bit ∈ bits, Dict.get? (Dict.set b (name, key) occupied) bit = Dict.get? occupied bit := by
        intro bit hbit
        apply Dict.get?_set_of_ne
        rintro rfl
        exact hb hbit
      obtain ⟨hiff, hmarks⟩ := ih hbits (Dict.set b (name, key) occupied)
      have hiff' : (occupy path name key (Dict.set b (name, key) occupied) bits).1 = [] ↔
          ∀ bit ∈ bits, ∀ o, Dict.get? occupied bit = some o → ¬ (key = none ∨ o.2 = none ∨ key = o.2) := by
        rw [hiff]
        constructor
        · intro h bit hbit o ho
          exact h bit hbit o (by rw [hrest bit hbit]; exact ho)
        · intro h bit hbit o ho
          exact h bit hbit o (by rw [← hrest bit hbit]; exact ho)
      have hmarks' : (occupy path name key (Dict.set b (name, key) occupied) bits).1 = [] → ∀ bit,
          Dict.get? (occupy path name key (Dict.set b (name, key) occupied) bits).2 bit =
            if bit ∈ b :: bits then some (name, key) else Dict.get? occupied bit := by
        intro h bit
        rw [hmarks h bit]
        by_cases hmem : bit ∈ bits
        · rw [if_pos hmem, if_pos (List.mem_cons_of_mem b hmem)]
        · rw [if_neg hmem, Dict.get?_set]
          by_cases hbit : bit = b
          · rw [if_pos hbit, if_pos (by rw [hbit]; exact List.mem_cons_self)]
          · rw [if_neg hbit, if_neg]
            intro h
            rcases List.mem_cons.mp h with h | h
            · exact hbit h
            · exact hmem h
      unfold occupy
      cases hget : Dict.get? occupied b with
      | none =>
          refine ⟨?_, hmarks'⟩
          rw [hiff', List.forall_mem_cons]
          simp [hget]
      | some o =>
          by_cases hconflict : key = none ∨ o.2 = none ∨ key = o.2
          · simp only [hconflict, if_true, List.cons_ne_nil, false_iff, false_imp_iff, and_true]
            intro h
            exact h b List.mem_cons_self o hget hconflict
          · simp only [hconflict, if_false]
            refine ⟨?_, hmarks'⟩
            rw [hiff', List.forall_mem_cons]
            refine (and_iff_right ?_).symm
            intro o' ho'
            rw [← Option.some.inj (hget.symm.trans ho')]
            exact hconflict

theorem foldr_max_lt {l : List ℕ} {n : ℕ} (hn : 0 < n) : l.foldr max 0 < n ↔ ∀ a ∈ l, a < n := by
  induction l with
  | nil => simpa using hn
  | cons a l ih => rw [List.foldr_cons, max_lt_iff, ih, List.forall_mem_cons]

/-- A signal the loop over a message's signals has nothing to say about on its own. -/
structure SignalFits (reg : Registries) (dlc : ℕ) (s : Signal) : Prop where
  name : lowerSnake s.name
  ok : SignalOk reg s
  inFrame : ∀ p ∈ occupiedBits s.enc, p < dlc * 8

theorem inFrame_iff {e : Encoding} (hpos : 1 ≤ e.bitLength) {n : ℕ} :
    (∀ p ∈ occupiedBits e, p < n) ↔ ¬ n ≤ (occupiedBits e).foldr max 0 := by
  have hmem : e.startBit ∈ occupiedBits e := by
    rw [occupiedBits_eq]
    exact List.mem_map.mpr ⟨0, List.mem_range.mpr hpos, position_zero _ _⟩
  rw [not_le]
  by_cases hn : 0 < n
  · exact (foldr_max_lt hn).symm
  · constructor
    · intro h
      exact absurd (lt_of_le_of_lt (Nat.zero_le _) (h _ hmem)) hn
    · intro h
      exact absurd (lt_of_le_of_lt (Nat.zero_le _) h) hn

/-- **The loop over one signal's bits is one step of the scan.** -/
theorem occupy_fits (path : String) {occupied : Occupied} {before : List Signal}
    (hocc : ∀ p, Dict.get? occupied p = (Overlap.owner bitsOf before p).map mark) (s : Signal) :
    ((occupy path s.name (muxKey s) occupied (occupiedBits s.enc)).1 = [] ↔ Overlap.Fits bitsOf muxKey before s) ∧
    (Overlap.Fits bitsOf muxKey before s → ∀ p,
      Dict.get? (occupy path s.name (muxKey s) occupied (occupiedBits s.enc)).2 p =
        (Overlap.owner bitsOf (before ++ [s]) p).map mark) := by
  obtain ⟨hiff, hmarks⟩ := occupy_eq_nil path s.name (muxKey s)
    (occupiedBits s.enc) (nodup_occupiedBits s.enc) occupied
  have hfits : (occupy path s.name (muxKey s) occupied (occupiedBits s.enc)).1 = [] ↔
      Overlap.Fits bitsOf muxKey before s := by
    rw [hiff]
    constructor
    · intro h p hp t ht hconflict
      refine h p hp (mark t) ?_ ?_
      · rw [hocc, ht]
        rfl
      · rcases hconflict.symm with h1 | h1 | h1
        · left
          exact h1
        · right
          left
          exact h1
        · right
          right
          exact h1
    · intro h p hp o ho hconflict
      rw [hocc, Option.map_eq_some_iff] at ho
      obtain ⟨t, ht, rfl⟩ := ho
      exact h p hp t ht (Overlap.Conflict.symm muxKey hconflict)
  refine ⟨hfits, ?_⟩
  intro h p
  rw [hmarks (hfits.mpr h), Overlap.owner_append_singleton, hocc]
  by_cases hp : p ∈ occupiedBits s.enc
  · rw [if_pos hp, if_pos hp]
    rfl
  · rw [if_neg hp, if_neg hp]

/-- What stops overlap analysis is reported. -/
theorem checkSignalEncoding_of_snd {reg : Registries} {path : String} {s : Signal}
    (h : (checkSignalEncoding reg path s).2 = []) : checkSignalEncoding reg path s = (true, []) := by
  have hfst : (checkSignalEncoding reg path s).1 = true := by
    revert h
    unfold checkSignalEncoding
    split
    · simp
    · split
      · simp
      · split
        · simp
        · split <;> simp
  exact Prod.ext hfst h

/-- The findings on a signal that is not in order stay in the report of its message. -/
theorem checkSignals_cons_ne_nil {reg : Registries} {path : String} {dlc : ℕ} {seen : List String}
    {occupied : Occupied} {s : Signal} {l : List Signal} (hok : ¬ SignalOk reg s) :
    checkSignals reg path dlc seen occupied (s :: l) ≠ [] := by
  intro h
  have hfindings : (checkSignalEncoding reg s!"{path}.{s.name}" s).2 = [] := by
    simp only [checkSignals] at h
    cases hc : checkSignalEncoding reg s!"{path}.{s.name}" s with
    | mk analysable findings =>
        rw [hc] at h
        cases analysable with
        | true =>
            simp only [not_true_eq_false, if_false] at h
            split at h
            · simp only [List.append_eq_nil_iff] at h
              exact h.1.1.2
            · simp only [List.append_eq_nil_iff] at h
              exact h.1.1.2
        | false =>
            simp only [Bool.false_eq_true, not_false_eq_true, if_true, List.append_eq_nil_iff] at h
            exact h.1.2
  exact hok (checkSignalEncoding_iff.mp (checkSignalEncoding_of_snd hfindings))

/-- **The loop over the signals of a message is the one-owner scan of their bits.** -/
theorem checkSignals_eq_nil (reg : Registries) (path : String) (dlc : ℕ) (l before : List Signal) (seen : List String)
    (occupied : Occupied) (hocc : ∀ p, Dict.get? occupied p = (Overlap.owner bitsOf before p).map mark) :
    checkSignals reg path dlc seen occupied l = [] ↔
      (∀ s ∈ l, SignalFits reg dlc s) ∧ (∀ s ∈ l, s.name ∉ seen) ∧ (l.map Signal.name).Nodup ∧
        Overlap.AcceptedFrom bitsOf muxKey before l := by
  induction l generalizing before seen occupied with
  | nil => simp [checkSignals, Overlap.AcceptedFrom]
  | cons s l ih =>
      by_cases hok : SignalOk reg s
      · have hcheck : checkSignalEncoding reg s!"{path}.{s.name}" s = (true, []) := checkSignalEncoding_iff.mpr hok
        have hbits := inFrame_iff (n := dlc * 8) hok.length_pos
        unfold checkSignals
        simp only [hcheck, not_true_eq_false, if_false, List.append_nil]
        by_cases hframe : dlc * 8 ≤ (occupiedBits s.enc).foldr max 0
        · simp only [hframe, if_true, List.append_eq_nil_iff, List.cons_ne_nil, and_false, false_and, false_iff]
          rintro ⟨hall, -⟩
          exact (hbits.mp (hall s List.mem_cons_self).inFrame) hframe
        · simp only [hframe, if_false, List.append_eq_nil_iff, report_eq_nil, not_not]
          obtain ⟨hfits, hmarks⟩ := occupy_fits s!"{path}.{s.name}" hocc s
          rw [hfits]
          constructor
          · rintro ⟨⟨⟨hname, hseen⟩, hfit⟩, hloop⟩
            obtain ⟨hall, hnew, hnodup, hacc⟩ := (ih (before ++ [s]) _ _ (hmarks hfit)).mp hloop
            refine ⟨List.forall_mem_cons.mpr ⟨⟨hname, hok, hbits.mpr hframe⟩, hall⟩,
              List.forall_mem_cons.mpr ⟨hseen, ?_⟩, ?_, hfit, hacc⟩
            · intro t ht hmem
              exact hnew t ht (List.mem_cons_of_mem _ hmem)
            · rw [List.map_cons, List.nodup_cons]
              refine ⟨?_, hnodup⟩
              intro hmem
              obtain ⟨t, ht, heq⟩ := List.mem_map.mp hmem
              exact hnew t ht (heq ▸ List.mem_cons_self)
          · rintro ⟨hall, hseen, hnodup, hfit, hacc⟩
            rw [List.map_cons, List.nodup_cons] at hnodup
            refine ⟨⟨⟨(hall s List.mem_cons_self).name, hseen s List.mem_cons_self⟩, hfit⟩,
              (ih (before ++ [s]) _ _ (hmarks hfit)).mpr ⟨?_, ?_, hnodup.2, hacc⟩⟩
            · intro t ht
              exact hall t (List.mem_cons_of_mem _ ht)
            · intro t ht hmem
              rcases List.mem_cons.mp hmem with heq | hmem
              · exact hnodup.1 (List.mem_map.mpr ⟨t, ht, heq⟩)
              · exact hseen t (List.mem_cons_of_mem _ ht) hmem
      · constructor
        · intro h
          exact absurd h (checkSignals_cons_ne_nil hok)
        · rintro ⟨hall, -⟩
          exact absurd (hall s List.mem_cons_self).ok hok

/-! ## Messages -/

/-- What the checks of `_check_frames` guarantee of one message. -/
structure MessageOk (reg : Registries) (m : CanMessage) : Prop where
  bus : ∃ bus, Dict.get? reg.buses m.bus = some bus ∧ (m.dlc ≤ 8 ∨ bus.fd = true ∧ m.dlc ∈ fdDlcs)
  ids : m.canId + effectiveQuantity m - 1 ≤ 0x7FF
  one_selector : (selectors m).length ≤ 1
  selector_of_muxed : ∀ s ∈ m.signal, s.muxed = true → selectors m ≠ []
  muxed_of_selector : selectors m ≠ [] → ∃ s ∈ m.signal, s.muxed = true
  signals : ∀ s ∈ m.signal, SignalFits reg m.dlc s
  names : (m.signal.map Signal.name).Nodup
  accepted : Overlap.AcceptedFrom bitsOf muxKey [] m.signal

theorem checkBus_eq_nil {reg : Registries} {path : String} {m : CanMessage} :
    checkBus reg path m = [] ↔
      ∃ bus, Dict.get? reg.buses m.bus = some bus ∧ (m.dlc ≤ 8 ∨ bus.fd = true ∧ m.dlc ∈ fdDlcs) := by
  unfold checkBus
  simp only [List.append_eq_nil_iff, report_eq_nil]
  cases hbus : Dict.get? reg.buses m.bus with
  | none => simp
  | some bus =>
      simp only [Option.map_some, Option.getD_some, reduceCtorEq, not_false_eq_true, true_and, Option.some.injEq,
        exists_eq_left', not_and_or, not_or, not_lt, Bool.not_eq_false, not_not]

theorem checkMux_eq_nil {path : String} {m : CanMessage} :
    checkMux path m = [] ↔ (selectors m).length ≤ 1 ∧ (∀ s ∈ m.signal, s.muxed = true → selectors m ≠ []) ∧
      (selectors m ≠ [] → ∃ s ∈ m.signal, s.muxed = true) := by
  unfold checkMux
  simp only [List.append_eq_nil_iff, report_eq_nil, not_and, not_lt, ne_eq, List.filter_eq_nil_iff, Bool.not_eq_true,
    not_forall, and_assoc]
  constructor
  · rintro ⟨hone, hmuxed, hsel⟩
    refine ⟨hone, ?_, ?_⟩
    · intro s hs hm
      exact hmuxed ⟨s, hs, by simp [hm]⟩
    · intro hne
      obtain ⟨s, hs, hm⟩ := hsel hne
      exact ⟨s, hs, by simpa using hm⟩
  · rintro ⟨hone, hmuxed, hsel⟩
    refine ⟨hone, ?_, ?_⟩
    · rintro ⟨s, hs, hm⟩
      exact hmuxed s hs (by simpa using hm)
    · intro hne
      obtain ⟨s, hs, hm⟩ := hsel hne
      exact ⟨s, hs, by simp [hm]⟩

theorem nodup_idRange (m : CanMessage) : (idRange m).Nodup := List.nodup_range'

theorem mem_idRange {m : CanMessage} {id : ℕ} :
    id ∈ idRange m ↔ m.canId ≤ id ∧ id < m.canId + effectiveQuantity m := by
  unfold idRange
  rw [List.mem_range'_1]

/-- The claims after a message: those before, and its ids on its bus. -/
theorem mem_keys_claimIds {path : String} {m : CanMessage} (ids : List ℕ) (claims : Dict (String × ℕ) String)
    (k : String × ℕ) :
    k ∈ Dict.keys (claimIds path m claims ids).2 ↔ k ∈ Dict.keys claims ∨ k.1 = m.bus ∧ k.2 ∈ ids := by
  induction ids generalizing claims with
  | nil => simp [claimIds]
  | cons id ids ih =>
      have hstep : (claimIds path m claims (id :: ids)).2 =
          (claimIds path m (Dict.set (m.bus, id) m.name claims) ids).2 := by
        simp only [claimIds]
        split <;> rfl
      rw [hstep, ih, Dict.mem_keys_set, List.mem_cons, Prod.ext_iff]
      tauto

/-- Claiming reports nothing exactly when the ids are free. -/
theorem claimIds_eq_nil {path : String} {m : CanMessage} (ids : List ℕ) (hnodup : ids.Nodup)
    (claims : Dict (String × ℕ) String) :
    (claimIds path m claims ids).1 = [] ↔ ∀ id ∈ ids, (m.bus, id) ∉ Dict.keys claims := by
  induction ids generalizing claims with
  | nil => simp [claimIds]
  | cons id ids ih =>
      obtain ⟨hid, hids⟩ := List.nodup_cons.mp hnodup
      have hrest : (claimIds path m (Dict.set (m.bus, id) m.name claims) ids).1 = [] ↔
          ∀ i ∈ ids, (m.bus, i) ∉ Dict.keys claims := by
        rw [ih hids]
        constructor
        · intro h i hi hmem
          exact h i hi (Dict.mem_keys_set.mpr (Or.inr hmem))
        · intro h i hi hmem
          rcases Dict.mem_keys_set.mp hmem with heq | hmem
          · exact hid ((Prod.mk.inj heq).2 ▸ hi)
          · exact h i hi hmem
      rw [List.forall_mem_cons, ← hrest, ← Dict.get?_eq_none]
      simp only [claimIds]
      cases Dict.get? claims (m.bus, id) with
      | none => simp
      | some name => simp

/-- **What `_check_frames` decides.** -/
theorem checkFrames_eq_nil {reg : Registries} (l : List (String × CanMessage)) (claims : Dict (String × ℕ) String) :
    checkFrames reg claims l = [] ↔
      (∀ fm ∈ l, MessageOk reg fm.2) ∧ (∀ fm ∈ l, ∀ id ∈ idRange fm.2, (fm.2.bus, id) ∉ Dict.keys claims) ∧
        l.Pairwise fun a b => a.2.bus = b.2.bus → (idRange a.2).Disjoint (idRange b.2) := by
  induction l generalizing claims with
  | nil => simp [checkFrames]
  | cons fm l ih =>
      obtain ⟨filename, m⟩ := fm
      have hsignals := checkSignals_eq_nil reg s!"{filename}: {m.name}" m.dlc m.signal []
        [] [] (fun p => rfl)
      simp only [checkFrames, List.append_eq_nil_iff, checkBus_eq_nil, report_eq_nil, checkMux_eq_nil, hsignals,
        claimIds_eq_nil _ (nodup_idRange m), ih, not_lt, List.forall_mem_cons, List.pairwise_cons]
      have hclaims : (∀ fm ∈ l, ∀ id ∈ idRange fm.2,
            (fm.2.bus, id) ∉ Dict.keys (claimIds s!"{filename}: {m.name}" m claims (idRange m)).2) ↔
          (∀ fm ∈ l, ∀ id ∈ idRange fm.2, (fm.2.bus, id) ∉ Dict.keys claims) ∧
            ∀ fm ∈ l, m.bus = fm.2.bus → (idRange m).Disjoint (idRange fm.2) := by
        simp only [mem_keys_claimIds, not_or, not_and]
        constructor
        · intro h
          refine ⟨fun fm hfm id hid => (h fm hfm id hid).1, ?_⟩
          intro fm hfm hbus id hid hid'
          exact (h fm hfm id hid').2 hbus.symm hid
        · rintro ⟨hfree, hdisjoint⟩ fm hfm id hid
          refine ⟨hfree fm hfm id hid, ?_⟩
          intro hbus hid'
          exact hdisjoint fm hfm hbus.symm hid' hid
      rw [hclaims]
      constructor
      · rintro ⟨⟨⟨⟨⟨hbus, hids⟩, hfree⟩, hmux⟩, hsig⟩, hall, ⟨hfree', hdisjoint⟩, hpair⟩
        exact ⟨⟨⟨hbus, hids, hmux.1, hmux.2.1, hmux.2.2, hsig.1, hsig.2.2.1, hsig.2.2.2⟩, hall⟩, ⟨hfree, hfree'⟩,
          hdisjoint, hpair⟩
      · rintro ⟨⟨hok, hall⟩, ⟨hfree, hfree'⟩, hdisjoint, hpair⟩
        exact ⟨⟨⟨⟨⟨hok.bus, hok.ids⟩, hfree⟩, hok.one_selector, hok.selector_of_muxed, hok.muxed_of_selector⟩,
          hok.signals, fun s _ => List.not_mem_nil, hok.names, hok.accepted⟩, hall, ⟨hfree', hdisjoint⟩, hpair⟩

/-- **Every message of an accepted spec is in order.** -/
theorem Spec.Valid.message {spec : Spec} (h : spec.Valid) {fm : String × CanMessage} (hfm : fm ∈ spec.messages) :
    MessageOk spec.registries fm.2 :=
  ((checkFrames_eq_nil spec.messages []).mp (Spec.valid_iff.mp h).2.1).1 fm hfm

/-- The data length of an accepted message. -/
theorem MessageOk.dlc_le {reg : Registries} {m : CanMessage} (h : MessageOk reg m) : m.dlc ≤ 64 := by
  obtain ⟨bus, -, hdlc | ⟨-, hdlc⟩⟩ := h.bus
  · omega
  · revert hdlc
    unfold fdDlcs
    simp only [List.mem_cons, List.not_mem_nil, or_false]
    omega

theorem muxKey_eq_none {s : Signal} : muxKey s = none ↔ s.muxed = false := by
  unfold muxKey
  cases s.muxed <;> simp

/-- **An unmuxed signal shares no bit with another signal of its message.** -/
theorem MessageOk.disjoint_of_unmuxed {reg : Registries} {m : CanMessage} (h : MessageOk reg m) :
    m.signal.Pairwise fun s t => s.muxed = false ∨ t.muxed = false →
      (occupiedBits s.enc).Disjoint (occupiedBits t.enc) := by
  refine List.Pairwise.imp ?_ (Overlap.disjoint_of_plain h.accepted)
  intro s t hdisjoint hplain
  apply hdisjoint
  rw [muxKey_eq_none, muxKey_eq_none]
  exact hplain

end Lhre.CanSpec
