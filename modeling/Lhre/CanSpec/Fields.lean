import Lhre.CanSpec.Ledger
import Lhre.CanSpec.Wire
import Lhre.Theory.ListPass

/-!
# `CanSpec.Fields` — the types and ids of the telemetry fields

`fieldTypes` and `fieldIds` are folds over all bindings of a spec. Here is what they leave under a key, in general and
for an accepted spec.

## Contents
- **Typed fields.** `TypedField.text`, `slot`, `counted`: what the last item of a key and all its items contribute.
- **Lookups.** `get?_fieldTypes`, `get?_fieldIds`.
- **Accepted specs.** Every field has a type, and the type of a scalar is that of each of its bindings.
-/

namespace Lhre.CanSpec

/-! ## Typed fields -/

/-- The type a field is given by one item. -/
def TypedField.text : TypedField → String
  | .bound b elementType => if b.telemetry.repeated then s!"repeated {elementType}" else elementType
  | .external _ field ptype => if field.repeated then s!"repeated {ptype}" else ptype

/-- The elements one item adds to the array of its field. -/
def TypedField.slot : TypedField → ℕ
  | .bound b _ => if b.telemetry.repeated then effectiveQuantity b.message else 0
  | .external _ _ _ => 0

/-- The item publishes an array bound. -/
def TypedField.counted : TypedField → Bool
  | .bound b _ => b.telemetry.repeated
  | .external _ _ _ => false

/-- What an item leaves under its key. -/
def TypedField.leaves (a : TypedField) (slots : ℕ) : FieldType :=
  ⟨a.text, if a.counted then some slots else none, slots⟩

theorem TypedField.bind_eq (old : Option FieldType) (a : TypedField) :
    a.bind old = a.leaves ((old.map FieldType.slots).getD 0 + a.slot) := by
  cases a with
  | bound b elementType =>
      unfold TypedField.bind FieldType.bind TypedField.leaves TypedField.text TypedField.slot TypedField.counted
      by_cases h : b.telemetry.repeated = true <;> simp [h]
  | external g field ptype => rfl

/-- The slots of a fold over the items of one key. -/
theorem foldl_bind_slots (l : List TypedField) (old : Option FieldType) :
    ((l.foldl (fun old a => some (TypedField.bind old a)) old).map FieldType.slots).getD 0 =
      (old.map FieldType.slots).getD 0 + (l.map TypedField.slot).sum := by
  induction l generalizing old with
  | nil => simp
  | cons a l ih =>
      rw [List.foldl_cons, ih, TypedField.bind_eq, List.map_cons, List.sum_cons, ← Nat.add_assoc]
      rfl

/-- **What the items of one key leave**: the type of the last, and the slots of all. -/
theorem foldl_bind (l : List TypedField) :
    l.foldl (fun old a => some (TypedField.bind old a)) none =
      l.getLast?.map fun a => a.leaves (l.map TypedField.slot).sum := by
  induction l using List.reverseRecOn with
  | nil => rfl
  | append_singleton l a ih =>
      have hslots := foldl_bind_slots l none
      rw [Option.map_none, Option.getD_none, Nat.zero_add] at hslots
      rw [List.foldl_append, List.foldl_cons, List.foldl_nil, TypedField.bind_eq, hslots, List.getLast?_concat,
        Option.map_some, List.map_append, List.sum_append]
      simp

/-! ## Lookups -/

/-- The items of one key. -/
def itemsOf (k : FieldKey) (l : List TypedField) : List TypedField := l.filter fun a => decide (a.key = k)

theorem get?_fieldTypes {spec : Spec} {types : Dict FieldKey FieldType} {l : List TypedField}
    (hl : typedFields spec = some l) (h : fieldTypes spec = some types) (k : FieldKey) :
    Dict.get? types k = (itemsOf k l).getLast?.map fun a => a.leaves ((itemsOf k l).map TypedField.slot).sum := by
  unfold fieldTypes at h
  rw [hl, Option.map_some, Option.some.injEq] at h
  rw [← h, Dict.get?_collect, Dict.get?_nil]
  exact foldl_bind _

/-- The entries `fieldIds` goes through. -/
theorem fieldIds_eq (spec : Spec) :
    fieldIds spec = Dict.collect Prod.fst (fun _ entry => entry.2) []
      ((fieldBindings spec).map fun b => ((b.group, b.field), b.id)) := by
  unfold fieldIds fieldBindings ledgerSources
  congr 1
  rw [List.map_append, List.map_append, List.map_map, List.map_map, List.map_map, List.map_map]
  rfl

theorem exists_getLast?_of_mem {α : Type} {l : List α} {a : α} (h : a ∈ l) : ∃ last, l.getLast? = some last :=
  ⟨_, List.getLast?_eq_getLast_of_ne_nil (List.ne_nil_of_mem h)⟩

theorem foldl_last_snd {α β : Type} (l : List (α × β)) (o : Option β) :
    l.foldl (fun _ a => some a.2) o = (l.getLast?.map Prod.snd).or o := by
  induction l generalizing o with
  | nil => rfl
  | cons a l ih =>
      rw [List.foldl_cons, ih, List.getLast?_cons]
      cases l.getLast? <;> rfl

/-- **The id of a field** is that of each of its bindings. -/
theorem get?_fieldIds {spec : Spec} (h : Recorded spec) {b : LedgerBinding} (hb : b ∈ fieldBindings spec) :
    Dict.get? (fieldIds spec) (b.group, b.field) = some b.id := by
  rw [fieldIds_eq, Dict.get?_collect, Dict.get?_nil, foldl_last_snd, Option.or_none]
  have hmem : ((b.group, b.field), b.id) ∈ ((fieldBindings spec).map fun b => ((b.group, b.field), b.id)).filter
      fun a => decide (a.1 = (b.group, b.field)) :=
    List.mem_filter.mpr ⟨List.mem_map.mpr ⟨b, hb, rfl⟩, by simp⟩
  obtain ⟨last, hlast⟩ := exists_getLast?_of_mem hmem
  obtain ⟨hin, hkey⟩ := List.mem_filter.mp (List.mem_of_getLast? hlast)
  obtain ⟨b', hb', rfl⟩ := List.mem_map.mp hin
  rw [decide_eq_true_eq, Prod.mk.injEq] at hkey
  rw [hlast, Option.map_some, Option.some.injEq]
  by_cases heq : b' = b
  · rw [heq]
  · have hsymm : Std.Symm Consistent := ⟨fun _ _ => Consistent.symm⟩
    exact (h.consistent.forall hb' hb heq).id hkey.2

theorem mem_keys_fieldIds {spec : Spec} {k : FieldKey} :
    k ∈ Dict.keys (fieldIds spec) ↔ ∃ b ∈ fieldBindings spec, (b.group, b.field) = k := by
  rw [fieldIds_eq, Dict.mem_keys_collect]
  simp only [List.mem_map, exists_exists_and_eq_and]

/-! ## Accepted specs -/

/-- The binding `record` sees of a typed field. -/
def TypedField.binding : TypedField → LedgerBinding
  | .bound b _ => b.record.2
  | .external g field _ => (recordExternal ("", g, field)).2

instance : Inhabited TypedField := ⟨.external {} {} ""⟩

/-- What `typedFields` yields: an item for each binding and each external field, and no others. -/
structure Typing (spec : Spec) (l : List TypedField) : Prop where
  bound : ∀ b ∈ telemetryBindings spec, ∃ t, b.elementType = some t ∧ .bound b t ∈ l
  external : ∀ x ∈ externalFields spec, ∃ t, scalarType x.2.2.type = some t ∧ .external x.2.1 x.2.2 t ∈ l
  source : ∀ a ∈ l, (∃ b ∈ telemetryBindings spec, ∃ t, b.elementType = some t ∧ a = .bound b t) ∨
    ∃ x ∈ externalFields spec, ∃ t, scalarType x.2.2.type = some t ∧ a = .external x.2.1 x.2.2 t

theorem typing {spec : Spec} {l : List TypedField} (h : typedFields spec = some l) : Typing spec l := by
  unfold typedFields at h
  obtain ⟨bound, hbound, h⟩ := Option.bind_eq_some_iff.mp h
  obtain ⟨external, hexternal, rfl⟩ := Option.map_eq_some_iff.mp h
  obtain ⟨g, rfl, hg⟩ := ListPass.exists_map_of_mapM hbound
  obtain ⟨g', rfl, hg'⟩ := ListPass.exists_map_of_mapM hexternal
  refine ⟨?_, ?_, ?_⟩
  · intro b hb
    obtain ⟨t, ht, hgb⟩ := Option.map_eq_some_iff.mp (hg b hb)
    exact ⟨t, ht, List.mem_append_left _ (List.mem_map.mpr ⟨b, hb, hgb.symm⟩)⟩
  · intro x hx
    obtain ⟨t, ht, hgx⟩ := Option.map_eq_some_iff.mp (hg' x hx)
    exact ⟨t, ht, List.mem_append_right _ (List.mem_map.mpr ⟨x, hx, hgx.symm⟩)⟩
  · intro a ha
    rcases List.mem_append.mp ha with ha | ha
    · obtain ⟨b, hb, rfl⟩ := List.mem_map.mp ha
      obtain ⟨t, ht, hgb⟩ := Option.map_eq_some_iff.mp (hg b hb)
      left
      exact ⟨b, hb, t, ht, hgb.symm⟩
    · obtain ⟨x, hx, rfl⟩ := List.mem_map.mp ha
      obtain ⟨t, ht, hgx⟩ := Option.map_eq_some_iff.mp (hg' x hx)
      right
      exact ⟨x, hx, t, ht, hgx.symm⟩

theorem record_mem {spec : Spec} {b : TelemetryBinding} (hb : b ∈ telemetryBindings spec) :
    b.record.2 ∈ fieldBindings spec :=
  List.mem_map.mpr ⟨b.record, List.mem_append_left _ (List.mem_map.mpr ⟨b, hb, rfl⟩), rfl⟩

theorem recordExternal_mem {spec : Spec} {x : String × Group × SnapshotField} (hx : x ∈ externalFields spec) :
    (recordExternal x).2 ∈ fieldBindings spec :=
  List.mem_map.mpr ⟨recordExternal x, List.mem_append_right _ (List.mem_map.mpr ⟨x, hx, rfl⟩), rfl⟩

theorem mem_fieldBindings {spec : Spec} {b : LedgerBinding} (h : b ∈ fieldBindings spec) :
    (∃ c ∈ telemetryBindings spec, b = c.record.2) ∨ ∃ x ∈ externalFields spec, b = (recordExternal x).2 := by
  obtain ⟨source, hsource, rfl⟩ := List.mem_map.mp h
  rcases List.mem_append.mp hsource with hsource | hsource
  · obtain ⟨c, hc, rfl⟩ := List.mem_map.mp hsource
    left
    exact ⟨c, hc, rfl⟩
  · obtain ⟨x, hx, rfl⟩ := List.mem_map.mp hsource
    right
    exact ⟨x, hx, rfl⟩

/-- **The keys of the field types** are the fields that are bound. -/
theorem mem_keys_fieldTypes {spec : Spec} {types : Dict FieldKey FieldType} (h : fieldTypes spec = some types)
    {k : FieldKey} : k ∈ Dict.keys types ↔ ∃ b ∈ fieldBindings spec, (b.group, b.field) = k := by
  obtain ⟨l, hl, rfl⟩ := Option.map_eq_some_iff.mp h
  obtain ⟨hbound, hexternal, hsource⟩ := typing hl
  rw [Dict.mem_keys_collect]
  constructor
  · rintro ⟨a, ha, rfl⟩
    rcases hsource a ha with ⟨b, hb, t, -, rfl⟩ | ⟨x, hx, t, -, rfl⟩
    · exact ⟨b.record.2, record_mem hb, rfl⟩
    · exact ⟨(recordExternal x).2, recordExternal_mem hx, rfl⟩
  · rintro ⟨b, hb, rfl⟩
    rcases mem_fieldBindings hb with ⟨c, hc, rfl⟩ | ⟨x, hx, rfl⟩
    · obtain ⟨t, -, ht⟩ := hbound c hc
      exact ⟨_, ht, rfl⟩
    · obtain ⟨t, -, ht⟩ := hexternal x hx
      exact ⟨_, ht, rfl⟩

theorem nodup_keys_fieldTypes {spec : Spec} {types : Dict FieldKey FieldType} (h : fieldTypes spec = some types) :
    (Dict.keys types).Nodup := by
  obtain ⟨l, -, rfl⟩ := Option.map_eq_some_iff.mp h
  exact Dict.nodup_keys_collect Dict.nodup_keys_nil l

theorem exists_scalarType {t : ProtoScalarType} (h : t ≠ .unspecified) : ∃ name, scalarType t = some name := by
  cases t <;> first | exact absurd rfl h | exact ⟨_, rfl⟩

/-- What a binding of a signal that is no bitfield is made of. -/
theorem mem_signalBindings {spec : Spec} {b : TelemetryBinding} :
    b ∈ signalBindings spec ↔ ∃ s t, (b.filename, b.message, s) ∈ spec.signals ∧ s.bitfieldType = none ∧
      s.telemetry = some t ∧ b = ⟨b.filename, b.message, .signal s, none, t⟩ := by
  unfold signalBindings
  rw [List.mem_filterMap]
  constructor
  · rintro ⟨⟨filename, m, s⟩, hmem, hb⟩
    by_cases hbitfield : s.bitfieldType.isSome = true
    · simp [hbitfield] at hb
    · simp only [hbitfield, Bool.false_eq_true, if_false, Option.map_eq_some_iff] at hb
      obtain ⟨t, ht, rfl⟩ := hb
      exact ⟨s, t, hmem, by simpa using hbitfield, ht, rfl⟩
  · rintro ⟨s, t, hmem, hbitfield, ht, hb⟩
    refine ⟨_, hmem, ?_⟩
    simp only [hbitfield, Option.isSome_none, Bool.false_eq_true, if_false, ht, Option.map_some]
    exact congrArg some hb.symm

/-- What a binding of a bit is made of. -/
theorem mem_bitBindings {spec : Spec} {b : TelemetryBinding} :
    b ∈ bitBindings spec ↔ ∃ fb ∈ spec.bitfieldTypes, ∃ bit ∈ fb.2.bit, bit.telemetry = some b.telemetry ∧
      b.bit = some bit ∧ (b.filename, b.message, b.source) = bitfieldWhere spec fb.1 fb.2 := by
  unfold bitBindings
  rw [List.mem_flatMap]
  apply exists_congr
  rintro ⟨filename, type⟩
  apply and_congr_right
  intro _
  dsimp only
  generalize bitfieldWhere spec filename type = place
  obtain ⟨file, m, source⟩ := place
  show b ∈ List.filterMap (fun bit : BitfieldBit =>
    bit.telemetry.map fun t => (⟨file, m, source, some bit, t⟩ : TelemetryBinding)) type.bit ↔ _
  rw [List.mem_filterMap]
  apply exists_congr
  intro bit
  apply and_congr_right
  intro _
  rw [Option.map_eq_some_iff]
  constructor
  · rintro ⟨t, ht, rfl⟩
    exact ⟨ht, rfl, rfl⟩
  · rintro ⟨ht, hbit, hwhere⟩
    obtain ⟨bfile, bm, bsource, bbit, bt⟩ := b
    simp only [Prod.mk.injEq] at hwhere
    obtain ⟨rfl, rfl, rfl⟩ := hwhere
    have hbit' : bbit = some bit := hbit
    exact ⟨bt, ht, by rw [hbit']⟩

theorem mem_telemetryBindings {spec : Spec} {b : TelemetryBinding} :
    b ∈ telemetryBindings spec ↔ b ∈ signalBindings spec ∨ b ∈ bitBindings spec :=
  List.mem_append

/-- **Every binding of a spec has an element type.** -/
theorem exists_elementType {spec : Spec} {b : TelemetryBinding} (hb : b ∈ telemetryBindings spec) :
    ∃ t, b.elementType = some t := by
  unfold TelemetryBinding.elementType
  by_cases hwire : b.telemetry.wireType ≠ .unspecified
  · rw [if_pos hwire]
    exact exists_scalarType hwire
  · rw [if_neg hwire]
    rcases mem_telemetryBindings.mp hb with hb | hb
    · obtain ⟨s, t, -, hbitfield, -, hb⟩ := mem_signalBindings.mp hb
      rw [hb]
      show ∃ t, protoType s = some t
      unfold protoType
      unfold Signal.bitfieldType at hbitfield
      split
      · exact ⟨_, rfl⟩
      · exact ⟨_, rfl⟩
      · rename_i name hkind
        rw [hkind] at hbitfield
        exact absurd hbitfield (by simp)
      · exact ⟨_, rfl⟩
    · obtain ⟨fb, -, bit, -, -, hbit, -⟩ := mem_bitBindings.mp hb
      rw [hbit]
      exact ⟨_, rfl⟩

/-- A spec whose external fields have a type gives every field one. -/
theorem exists_fieldTypes {spec : Spec} (h : ∀ x ∈ externalFields spec, ∃ t, scalarType x.2.2.type = some t) :
    ∃ types, fieldTypes spec = some types := by
  have hbound : ∀ b ∈ telemetryBindings spec, TypedField.ofBinding b = some ((TypedField.ofBinding b).getD default) := by
    intro b hb
    obtain ⟨t, ht⟩ := exists_elementType hb
    unfold TypedField.ofBinding
    rw [ht]
    rfl
  have hexternal : ∀ x ∈ externalFields spec,
      TypedField.ofExternal x = some ((TypedField.ofExternal x).getD default) := by
    intro x hx
    obtain ⟨t, ht⟩ := h x hx
    unfold TypedField.ofExternal
    rw [ht]
    rfl
  unfold fieldTypes typedFields
  rw [ListPass.mapM_eq_some hbound, ListPass.mapM_eq_some hexternal]
  exact ⟨_, rfl⟩

theorem Recorded.external_type {spec : Spec} (h : Recorded spec) {x : String × Group × SnapshotField}
    (hx : x ∈ externalFields spec) : ∃ t, scalarType x.2.2.type = some t := by
  have hfindings := (h.sources (recordExternal x) (List.mem_append_right _ (List.mem_map.mpr ⟨x, hx, rfl⟩))).1
  unfold recordExternal at hfindings
  rw [report_eq_nil] at hfindings
  exact exists_scalarType hfindings

/-- **Every field of an accepted spec has a type.** -/
theorem Recorded.exists_fieldTypes {spec : Spec} (h : Recorded spec) : ∃ types, fieldTypes spec = some types :=
  CanSpec.exists_fieldTypes fun _ hx => h.external_type hx

end Lhre.CanSpec
