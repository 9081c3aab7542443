import Lhre.CanSpec.Correctness.FrameLayout
import Lhre.CanSpec.Fields
import Lhre.Codegen.Telemetry

/-!
# `CanSpec.Correctness.IdLedger` — the telemetry ids of an accepted spec

The ids of a telemetry group are a ledger: live ids and tombstones fill the numbers below the next free one, each number
stands for one field, and a field stays in its group. So the generated proto gives the fields of a message numbers of
their own.

## Contents
- **The property.** `LedgerSound`.
- **The generated proto.** `snapshotFields_nodup`.
- **`id_ledger`.**
-/

namespace Lhre.CanSpec

open Codegen

/-! ## The property -/

/-- What holds of the telemetry bindings of a spec: those of CAN signals, of bitfield bits, and of the fields the gateway
    fills from elsewhere. The producer of a source is the name of its message. -/
structure LedgerSound (spec : Spec) : Prop where
  registered : ∀ b ∈ fieldBindings spec, ∃ fg ∈ spec.groups, fg.2.name = b.group
  groups : (spec.groups.map fun fg => fg.2.name).Nodup
  one_group : ∀ b ∈ fieldBindings spec, ∀ b' ∈ fieldBindings spec, b.field = b'.field → b.group = b'.group
  same_id : ∀ b ∈ fieldBindings spec, ∀ b' ∈ fieldBindings spec,
    b.group = b'.group → b.field = b'.field → b.id = b'.id
  distinct_ids : ∀ b ∈ fieldBindings spec, ∀ b' ∈ fieldBindings spec,
    b.group = b'.group → b.field ≠ b'.field → b.id ≠ b'.id
  partition : ∀ fg ∈ spec.groups, Partitioned (fieldBindings spec) fg.2
  again : (fieldBindings spec).Pairwise fun b b' => b.field = b'.field → Slots b b' ∨ Sources b b'
  messages : (spec.messages.map fun fm => fm.2.name).Nodup
  field_ids : ∀ k k' id, Dict.get? (fieldIds spec) k = some id → Dict.get? (fieldIds spec) k' = some id →
    k.1 = k'.1 → k = k'
  snapshot_fields : ∃ fields, snapshotFields spec = some fields ∧
    ∀ group ∈ fields, (group.2.map fun entry => (ofLex entry).1).Nodup

/-! ## Any two bindings -/

theorem Recorded.forall {spec : Spec} (h : Recorded spec) {b b' : LedgerBinding} (hb : b ∈ fieldBindings spec)
    (hb' : b' ∈ fieldBindings spec) : b = b' ∨ Consistent b b' := by
  by_cases heq : b = b'
  · left
    exact heq
  · right
    have hsymm : Std.Symm Consistent := ⟨fun _ _ => Consistent.symm⟩
    exact h.consistent.forall hb hb' heq

/-- **Two keys of one group with one id are one key.** -/
theorem Recorded.key_inj {spec : Spec} (h : Recorded spec) {k k' : FieldKey} {id : ℕ}
    (hk : Dict.get? (fieldIds spec) k = some id) (hk' : Dict.get? (fieldIds spec) k' = some id) (hgroup : k.1 = k'.1) :
    k = k' := by
  obtain ⟨b, hb, rfl⟩ := mem_keys_fieldIds.mp (Dict.mem_keys.mpr ⟨id, hk⟩)
  obtain ⟨b', hb', rfl⟩ := mem_keys_fieldIds.mp (Dict.mem_keys.mpr ⟨id, hk'⟩)
  rw [get?_fieldIds h hb, Option.some.injEq] at hk
  rw [get?_fieldIds h hb', Option.some.injEq] at hk'
  rcases h.forall hb hb' with rfl | hconsistent
  · rfl
  · by_cases hfield : b.field = b'.field
    · exact Prod.ext hgroup hfield
    · exact absurd (hk.trans hk'.symm) (hconsistent.ids hgroup hfield)

/-! ## The generated proto -/

theorem foldl_append_getD {α β : Type} (g : α → β) (l : List α) (o : Option (List β)) :
    (l.foldl (fun old a => some (old.getD [] ++ [g a])) o).getD [] = o.getD [] ++ l.map g := by
  induction l generalizing o with
  | nil => simp
  | cons a l ih =>
      rw [List.foldl_cons, ih, Option.getD_some, List.map_cons, List.append_assoc]
      rfl

/-- **The fields of a generated message have numbers of their own.** -/
theorem snapshotFields_nodup {spec : Spec} (h : Recorded spec) {types : Dict FieldKey FieldType}
    (htypes : fieldTypes spec = some types) {fields : SnapshotFields} (hfields : snapshotFields spec = some fields) :
    ∀ group ∈ fields, (group.2.map fun entry => (ofLex entry).1).Nodup := by
  unfold snapshotFields at hfields
  rw [htypes, Option.map_some, Option.some.injEq] at hfields
  subst hfields
  intro group hgroup
  obtain ⟨⟨name, entries⟩, hmem, rfl⟩ := List.mem_map.mp hgroup
  have hget := (Dict.mem_iff_get? (Dict.nodup_keys_collect Dict.nodup_keys_nil types)).mp hmem
  rw [Dict.get?_collect, Dict.get?_nil] at hget
  have hentries := congrArg (fun o => Option.getD o []) hget
  rw [foldl_append_getD, Option.getD_none, List.nil_append, Option.getD_some] at hentries
  rw [← hentries]
  -- the order of the entries does not matter
  refine (List.Perm.nodup_iff (List.Perm.map _ (List.perm_insertionSort _ _))).mpr ?_
  rw [List.map_map]
  refine List.Nodup.map_on ?_ ((List.Nodup.of_map _ (nodup_keys_fieldTypes htypes)).filter _)
  rintro ⟨k, t⟩ hkt ⟨k', t'⟩ hkt' heq
  rw [List.mem_filter, decide_eq_true_eq] at hkt hkt'
  have hkey : ∀ {k : FieldKey} {t : FieldType}, (k, t) ∈ types → ∃ id, Dict.get? (fieldIds spec) k = some id := by
    intro k t hkt
    obtain ⟨b, hb, rfl⟩ := (mem_keys_fieldTypes htypes).mp (List.mem_map.mpr ⟨(k, t), hkt, rfl⟩)
    exact ⟨b.id, get?_fieldIds h hb⟩
  obtain ⟨id, hid⟩ := hkey hkt.1
  obtain ⟨id', hid'⟩ := hkey hkt'.1
  have heq' : id = id' := by
    have hids : (Dict.get? (fieldIds spec) k).getD 0 = (Dict.get? (fieldIds spec) k').getD 0 := heq
    rw [hid, hid', Option.getD_some, Option.getD_some] at hids
    exact hids
  subst heq'
  have hkk : k = k' := h.key_inj hid hid' (hkt.2.trans hkt'.2.symm)
  subst hkk
  have hnodup := nodup_keys_fieldTypes htypes
  have ht := (Dict.mem_iff_get? hnodup).mp hkt.1
  rw [(Dict.mem_iff_get? hnodup).mp hkt'.1, Option.some.injEq] at ht
  rw [ht]

/-- **The telemetry ids of an accepted spec** form a ledger. -/
theorem id_ledger {spec : Spec} (h : spec.Valid) : LedgerSound spec := by
  have hrecorded := h.recorded
  have hreg := h.registries
  refine
    { registered := ?_
      groups := hreg.groups
      one_group := ?_
      same_id := ?_
      distinct_ids := ?_
      partition := hrecorded.partitioned
      again := hrecorded.consistent.imp fun hconsistent => hconsistent.again
      messages := hreg.messages
      field_ids := fun k k' id hk hk' hgroup => hrecorded.key_inj hk hk' hgroup
      snapshot_fields := ?_ }
  · intro b hb
    obtain ⟨source, hsource, rfl⟩ := List.mem_map.mp hb
    exact mem_groupNames (hrecorded.sources source hsource).2.group
  · intro b hb b' hb' hfield
    rcases hrecorded.forall hb hb' with rfl | hconsistent
    · rfl
    · exact hconsistent.group hfield
  · intro b hb b' hb' _ hfield
    rcases hrecorded.forall hb hb' with rfl | hconsistent
    · rfl
    · exact hconsistent.id hfield
  · intro b hb b' hb' hgroup hfield
    rcases hrecorded.forall hb hb' with rfl | hconsistent
    · exact absurd rfl hfield
    · exact hconsistent.ids hgroup hfield
  · obtain ⟨types, htypes⟩ := hrecorded.exists_fieldTypes
    have hfields : ∃ fields, snapshotFields spec = some fields := by
      unfold snapshotFields
      rw [htypes]
      exact ⟨_, rfl⟩
    obtain ⟨fields, hfields⟩ := hfields
    exact ⟨fields, hfields, snapshotFields_nodup hrecorded htypes hfields⟩

/-! ## A ledger with a shared field, an array and a tombstone -/

/-- A byte of telemetry. -/
def boundSignal (name : String) (startByte : ℕ) (telemetry : Telemetry) : Signal :=
  { byteSignal name startByte with telemetry := some telemetry }

/-- The speed of one inverter. -/
def speedSignal : Signal :=
  boundSignal "speed" 0 { group := "Dynamics", field := "motor_speed", id := 1, sharedSource := true }

/-- One slot of the cell temperatures. -/
def cellSignal (name : String) (slot : ℕ) : Signal :=
  boundSignal name (slot + 1) { group := "Dynamics", field := "cell_temps", id := 3, repeated := true, arrayIndex := slot }

def inverterMessage (name : String) (canId : ℕ) (signals : List Signal) : CanMessage where
  name := name
  canId := canId
  fromBoard := "Inverter"
  bus := "Critical"
  dlc := 8
  signal := signals

/-- Two sources of one speed, two slots of one array, a gateway field, and one id given up. -/
def ledgerSpec : Spec where
  files :=
    [("lib/spec/buses.textproto", { bus := [{ name := "Critical", bitrateBps := 1000000 }] }),
      ("lib/spec/groups.textproto",
        { group :=
            [{ name := "Dynamics", nextFreeId := 5, reservedIds := [2], reservedNames := ["old_speed"], snapshotId := 3,
               externalField := [{ name := "gps_speed", id := 4, type := .float }] }] }),
      ("lib/spec/messages/inverter.textproto",
        { message :=
            [inverterMessage "INVERTER_A" 0x100 [speedSignal, cellSignal "cell_a" 0, cellSignal "cell_b" 1],
              inverterMessage "INVERTER_B" 0x101 [speedSignal]] })]
  nodup := by simp

/-- The ledger theorem on that spec. -/
theorem id_ledger_inverters : LedgerSound ledgerSpec := id_ledger (by decide)

end Lhre.CanSpec
