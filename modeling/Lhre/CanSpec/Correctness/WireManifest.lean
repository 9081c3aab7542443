import Lhre.CanSpec.Correctness.IdLedger
import Lhre.CanSpec.Reordering

/-!
# `CanSpec.Correctness.WireManifest` — the lock file describes every binding

`field_types` keeps one entry for a field, the one of its last binding. The validator compares the sources of a shared
scalar, encoding by encoding, but of two slots of an array it compares the id and the index alone. So an array whose
slots differ in type is locked with the type of the slot that happens to be listed last.

## Contents
- **The property.** `Described`, `Uniform`.
- **Two bindings.** What the ledger says of the types of a field.
- **The entry.** `entry_view`, `described_iff`.
- **The order.** `manifest_reordered`.
- **`manifest_describes`.**
- **Two slots that differ.** `not_manifest_describes`.
-/

namespace Lhre.CanSpec

variable {spec spec' : Spec}

/-! ## The property -/

/-- An entry has the element type and the repetition a binding derives. -/
def FieldType.Describes (entry : FieldType) (b : TelemetryBinding) : Prop :=
  ∃ t, b.elementType = some t ∧ entry.ptype = if b.telemetry.repeated then s!"repeated {t}" else t

/-- Every binding is described by the entry of its field. -/
def Described (spec : Spec) : Prop :=
  ∃ types, fieldTypes spec = some types ∧
    ∀ b ∈ telemetryBindings spec, ∃ entry, Dict.get? types b.key = some entry ∧ entry.Describes b

/-- The slots of an array have one element type, and an external field of its name has it too. -/
structure Uniform (spec : Spec) : Prop where
  slots : ∀ b ∈ telemetryBindings spec, ∀ c ∈ telemetryBindings spec,
    b.telemetry.repeated = true → c.telemetry.repeated = true → b.key = c.key → b.elementType = c.elementType
  external : ∀ b ∈ telemetryBindings spec, ∀ x ∈ externalFields spec,
    b.telemetry.repeated = true → x.2.2.repeated = true → b.key = (x.2.1.name, x.2.2.name) →
      b.elementType = scalarType x.2.2.type

/-! ## Two bindings -/

/-- The type of a number does not depend on its place in the frame. -/
theorem numberType_congr {e e' : Encoding} (hlength : e.bitLength = e'.bitLength) (hsign : e.sign = e'.sign)
    (hscale : effectiveScale e = effectiveScale e') (hoffset : e.offset = e'.offset) :
    numberType e = numberType e' := by
  unfold numberType rawRange
  rw [hlength, hsign, hscale, hoffset]

theorem protoType_congr {s s' : Signal} (hlength : s.enc.bitLength = s'.enc.bitLength)
    (hsign : s.enc.sign = s'.enc.sign) (hscale : effectiveScale s.enc = effectiveScale s'.enc)
    (hoffset : s.enc.offset = s'.enc.offset) (hlog : s.log = s'.log) : protoType s = protoType s' := by
  have hkind : s.kind = s'.kind := congrArg Logical.kind hlog
  unfold protoType
  rw [hkind, numberType_congr hlength hsign hscale hoffset]

section Recorded

variable (h : Recorded spec)

include h

/-- A shared source is a signal. -/
theorem Recorded.signal_of_shared {b : TelemetryBinding} (hb : b ∈ telemetryBindings spec)
    (hshared : b.telemetry.sharedSource = true) : ∃ s, b.source = .signal s ∧ b.bit = none := by
  rcases mem_telemetryBindings.mp hb with hb' | hb'
  · obtain ⟨s, t, -, -, -, heq⟩ := mem_signalBindings.mp hb'
    rw [heq]
    exact ⟨s, rfl, rfl⟩
  · obtain ⟨-, -, bit, -, -, hbit, -⟩ := mem_bitBindings.mp hb'
    have hplain := h.bit_unshared hb (by rw [hbit]; rfl)
    exact nomatch hplain.symm.trans hshared

/-- **Two sources with one contract have one element type.** -/
theorem Recorded.elementType_of_contract {b c : TelemetryBinding} (hb : b ∈ telemetryBindings spec)
    (hc : c ∈ telemetryBindings spec) (hbs : b.telemetry.sharedSource = true) (hcs : c.telemetry.sharedSource = true)
    (hcontract : b.contract = c.contract) : b.elementType = c.elementType := by
  obtain ⟨s, hs, hbit⟩ := h.signal_of_shared hb hbs
  obtain ⟨s', hs', hbit'⟩ := h.signal_of_shared hc hcs
  unfold TelemetryBinding.contract at hcontract
  rw [hs, hs', hbit, hbit'] at hcontract
  dsimp only at hcontract
  rw [if_pos hbs, if_pos hcs, Option.some.injEq, SourceContract.mk.injEq] at hcontract
  obtain ⟨hlength, hsign, hscale, hoffset, hlog, hwire⟩ := hcontract
  unfold TelemetryBinding.elementType
  rw [hs, hs', hbit, hbit', hwire]
  dsimp only
  rw [protoType_congr hlength hsign hscale hoffset hlog]

/-- **Two bindings of a field** have one id, both are slots or neither is, and two scalars have one type. -/
theorem Recorded.same_field {b c : TelemetryBinding} (hb : b ∈ telemetryBindings spec)
    (hc : c ∈ telemetryBindings spec) (hkey : b.key = c.key) :
    b.telemetry.repeated = c.telemetry.repeated ∧ (b.telemetry.repeated = false → b.elementType = c.elementType) := by
  by_cases heq : b = c
  · rw [heq]
    exact ⟨rfl, fun _ => rfl⟩
  · have hsymm : Std.Symm fun b c : TelemetryBinding => Consistent b.record.2 c.record.2 :=
      ⟨fun _ _ => Consistent.symm⟩
    have hconsistent := h.bindings.forall hb hc heq
    rcases hconsistent.again (congrArg Prod.snd hkey) with hslots | hsources
    · have hleft : b.telemetry.repeated = true := hslots.left
      have hright : c.telemetry.repeated = true := hslots.right
      exact ⟨hleft.trans hright.symm, fun hno => nomatch hleft.symm.trans hno⟩
    · have hleft : b.telemetry.repeated = false := hsources.left
      have hright : c.telemetry.repeated = false := hsources.right
      exact ⟨hleft.trans hright.symm, fun _ =>
        h.elementType_of_contract hb hc hsources.shared.1 hsources.shared.2 hsources.contract⟩

/-- A field of CAN that is filled from elsewhere too is an array. -/
theorem Recorded.same_external {b : TelemetryBinding} {x : String × Group × SnapshotField}
    (hb : b ∈ telemetryBindings spec) (hx : x ∈ externalFields spec) (hkey : b.key = (x.2.1.name, x.2.2.name)) :
    b.telemetry.repeated = true ∧ x.2.2.repeated = true := by
  have hall := h.consistent
  unfold fieldBindings ledgerSources at hall
  rw [List.map_append, List.map_map, List.map_map] at hall
  have hconsistent := (List.pairwise_append.mp hall).2.2 _ (List.mem_map_of_mem hb) _ (List.mem_map_of_mem hx)
  rcases hconsistent.again (congrArg Prod.snd hkey) with hslots | hsources
  · exact ⟨hslots.left, hslots.right⟩
  · exact nomatch hsources.shared.2

/-- A field is filled from elsewhere once. -/
theorem Recorded.external_unique {x y : String × Group × SnapshotField} (hx : x ∈ externalFields spec)
    (hy : y ∈ externalFields spec) (hkey : (x.2.1.name, x.2.2.name) = (y.2.1.name, y.2.2.name)) : x = y := by
  by_contra hne
  have hall := h.consistent
  unfold fieldBindings ledgerSources at hall
  rw [List.map_append, List.map_map, List.map_map] at hall
  have hpairwise := List.pairwise_map.mp (List.pairwise_append.mp hall).2.1
  have hsymm : Std.Symm fun x y : String × Group × SnapshotField =>
      Consistent ((Prod.snd ∘ recordExternal) x) ((Prod.snd ∘ recordExternal) y) := ⟨fun _ _ => Consistent.symm⟩
  have hconsistent := hpairwise.forall hx hy hne
  rcases hconsistent.again (congrArg Prod.snd hkey) with hslots | hsources
  · exact hslots.index rfl
  · exact nomatch hsources.shared.1

/-- The views of a field have one id. -/
theorem Recorded.view_id {v w : FieldView} (hv : v ∈ fieldViews spec) (hw : w ∈ fieldViews spec)
    (hkey : v.key = w.key) : v.id = w.id := by
  have hbinding : ∀ v ∈ fieldViews spec, ∃ b ∈ fieldBindings spec, (b.group, b.field) = v.key ∧ b.id = v.id := by
    intro v hv
    rcases List.mem_append.mp hv with hv | hv
    · obtain ⟨b, hb, rfl⟩ := List.mem_map.mp hv
      exact ⟨b.record.2, record_mem hb, rfl, rfl⟩
    · obtain ⟨x, hx, rfl⟩ := List.mem_map.mp hv
      exact ⟨(recordExternal x).2, recordExternal_mem hx, rfl, rfl⟩
  obtain ⟨b, hb, hbk, hbid⟩ := hbinding v hv
  obtain ⟨c, hc, hck, hcid⟩ := hbinding w hw
  have hfield : b.field = c.field := congrArg Prod.snd (hbk.trans (hkey.trans hck.symm))
  rw [← hbid, ← hcid]
  rcases h.forall hb hc with rfl | hconsistent
  · rfl
  · exact hconsistent.id hfield

/-! ## The entry -/

/-- **The entry of a field** is that of one of its views, of the external one if there is one. -/
theorem Recorded.entry_view {types : Dict FieldKey FieldType} (htypes : fieldTypes spec = some types) {k : FieldKey}
    {entry : FieldType} (hget : Dict.get? types k = some entry) :
    ∃ v ∈ fieldViews spec, v.key = k ∧ entry.ptype = v.text ∧
      ∀ x ∈ externalFields spec, (x.2.1.name, x.2.2.name) = k → v = externalView x := by
  rw [get?_fieldTypes_views htypes] at hget
  obtain ⟨v, hlast, rfl⟩ := Option.map_eq_some_iff.mp hget
  have hmem := List.mem_filter.mp (List.mem_of_getLast? hlast)
  refine ⟨v, hmem.1, of_decide_eq_true hmem.2, rfl, ?_⟩
  intro x hx hk
  -- the views of external fields come last
  have hin : externalView x ∈ viewsOf k ((externalFields spec).map externalView) :=
    List.mem_filter.mpr ⟨List.mem_map_of_mem hx, decide_eq_true hk⟩
  obtain ⟨w, hw⟩ := exists_getLast?_of_mem hin
  unfold viewsOf fieldViews at hlast
  rw [List.filter_append, List.getLast?_append] at hlast
  have hw' : (((externalFields spec).map externalView).filter fun v => decide (v.key = k)).getLast? = some w := hw
  rw [hw', Option.some_or, Option.some.injEq] at hlast
  subst hlast
  obtain ⟨hwmem, hwk⟩ := List.mem_filter.mp (List.mem_of_getLast? hw)
  obtain ⟨y, hy, rfl⟩ := List.mem_map.mp hwmem
  rw [h.external_unique hx hy (hk.trans (of_decide_eq_true hwk).symm)]

/-- In a uniform spec the views of the bindings of a field agree. -/
theorem Recorded.view_agrees (hu : Uniform spec) {b c : TelemetryBinding} (hb : b ∈ telemetryBindings spec)
    (hc : c ∈ telemetryBindings spec) (hkey : b.key = c.key) :
    b.view.text = c.view.text ∧ b.view.counted = c.view.counted := by
  obtain ⟨hrepeated, hscalar⟩ := h.same_field hb hc hkey
  have htype : b.elementType = c.elementType := by
    cases hr : b.telemetry.repeated with
    | false => exact hscalar hr
    | true => exact hu.slots b hb c hc hr (hrepeated ▸ hr) hkey
  refine ⟨?_, hrepeated⟩
  show typeText _ _ = typeText _ _
  rw [hrepeated, htype]

/-- **Every binding is described** where the slots of each array agree, and only there. -/
theorem Recorded.described_iff : Described spec ↔ Uniform spec := by
  have htext {t u : String} (heq : s!"repeated {t}" = s!"repeated {u}") : t = u := by
    have hlist : (toString t).toList = (toString u).toList := by simpa using congrArg String.toList heq
    exact String.toList_inj.mp hlist
  constructor
  · rintro ⟨types, htypes, hall⟩
    refine ⟨?_, ?_⟩
    · intro b hb c hc hbr hcr hkey
      obtain ⟨entry, hget, t, ht, hp⟩ := hall b hb
      obtain ⟨entry', hget', t', ht', hp'⟩ := hall c hc
      rw [hkey, hget', Option.some.injEq] at hget
      subst hget
      rw [if_pos hbr] at hp
      rw [if_pos hcr] at hp'
      rw [ht, ht', htext (hp.symm.trans hp')]
    · intro b hb x hx hbr hxr hkey
      obtain ⟨entry, hget, t, ht, hp⟩ := hall b hb
      obtain ⟨v, -, -, hv, hexternal⟩ := h.entry_view htypes hget
      obtain ⟨u, ht'⟩ : ∃ u, scalarType x.2.2.type = some u := h.external_type hx
      rw [if_pos hbr, hv, hexternal x hx hkey.symm] at hp
      have hx' : (externalView x).text = s!"repeated {u}" := by
        show typeText x.2.2.repeated _ = _
        rw [hxr, ht']
        rfl
      rw [ht, ht', htext (hp.symm.trans hx')]
  · intro hu
    obtain ⟨types, htypes⟩ := h.exists_fieldTypes
    refine ⟨types, htypes, ?_⟩
    intro b hb
    obtain ⟨entry, hget⟩ := Dict.mem_keys.mp ((mem_keys_fieldTypes htypes).mpr ⟨b.record.2, record_mem hb, rfl⟩)
    obtain ⟨t, ht⟩ := exists_elementType hb
    obtain ⟨v, hv, hvk, hp, -⟩ := h.entry_view htypes hget
    refine ⟨entry, hget, t, ht, hp.trans ?_⟩
    have hview : b.view.text = if b.telemetry.repeated then s!"repeated {t}" else t := by
      show typeText _ _ = _
      rw [ht]
      rfl
    rcases List.mem_append.mp hv with hv | hv
    · obtain ⟨c, hc, rfl⟩ := List.mem_map.mp hv
      exact (h.view_agrees hu hc hb hvk).1.trans hview
    · obtain ⟨x, hx, rfl⟩ := List.mem_map.mp hv
      obtain ⟨hbr, hxr⟩ := h.same_external hb hx hvk.symm
      show typeText _ _ = _
      rw [← hu.external b hb x hx hbr hxr hvk.symm, ht, hxr, hbr]
      rfl

end Recorded

/-! ## The order -/

/-- The entry of a field is the same for every order of the bindings and of the external fields. -/
theorem entryOf_perm {bound bound' external external' : List FieldView} (hbound : bound.Perm bound')
    (hexternal : external.Perm external')
    (hagree : ∀ v ∈ bound, ∀ w ∈ bound, v.text = w.text ∧ v.counted = w.counted)
    (hagree' : ∀ v ∈ external, ∀ w ∈ external, v.text = w.text ∧ v.counted = w.counted) :
    entryOf (bound ++ external) = entryOf (bound' ++ external') := by
  have hsum : ((bound ++ external).map FieldView.slot).sum = ((bound' ++ external').map FieldView.slot).sum :=
    ((hbound.append hexternal).map _).sum_eq
  unfold entryOf
  rw [hsum, List.getLast?_append, List.getLast?_append, Option.map_or, Option.map_or]
  congr 1
  · refine Reordering.getLast?_map hexternal fun v hv w hw => ?_
    obtain ⟨htext, hcounted⟩ := hagree' v hv w hw
    rw [htext, hcounted]
  · refine Reordering.getLast?_map hbound fun v hv w hw => ?_
    obtain ⟨htext, hcounted⟩ := hagree v hv w hw
    rw [htext, hcounted]

/-- **Reordering keeps the types** of a uniform spec. -/
theorem Spec.Reordered.types (hr : spec.Reordered spec') (hv : spec.Valid) (hu : Uniform spec)
    {types types' : Dict FieldKey FieldType} (h : fieldTypes spec = some types) (h' : fieldTypes spec' = some types') :
    types.Perm types' := by
  refine Dict.perm_of_get? (nodup_keys_fieldTypes h) (nodup_keys_fieldTypes h') fun k => ?_
  rw [get?_fieldTypes_views h, get?_fieldTypes_views h']
  unfold fieldViews viewsOf
  rw [List.filter_append, List.filter_append]
  refine entryOf_perm ((hr.views hv).filter _) ((hr.externalFields.map _).filter _) ?_ ?_
  · intro v hv' w hw
    obtain ⟨hv', hvk⟩ := List.mem_filter.mp hv'
    obtain ⟨hw, hwk⟩ := List.mem_filter.mp hw
    obtain ⟨b, hb, rfl⟩ := List.mem_map.mp hv'
    obtain ⟨c, hc, rfl⟩ := List.mem_map.mp hw
    exact hv.recorded.view_agrees hu hb hc ((of_decide_eq_true hvk).trans (of_decide_eq_true hwk).symm)
  · intro v hv' w hw
    obtain ⟨hv', hvk⟩ := List.mem_filter.mp hv'
    obtain ⟨hw, hwk⟩ := List.mem_filter.mp hw
    obtain ⟨x, hx, rfl⟩ := List.mem_map.mp hv'
    obtain ⟨y, hy, rfl⟩ := List.mem_map.mp hw
    have hkey := (of_decide_eq_true hvk).trans (of_decide_eq_true hwk).symm
    rw [hv.recorded.external_unique hx hy hkey]
    exact ⟨rfl, rfl⟩

/-- Reordering keeps the ids. -/
theorem Spec.Reordered.ids (hr : spec.Reordered spec') (hv : spec.Valid) (k : FieldKey) :
    Dict.get? (fieldIds spec) k = Dict.get? (fieldIds spec') k := by
  rw [get?_fieldIds_views, get?_fieldIds_views]
  refine Reordering.getLast?_map (((hr.views hv).append (hr.externalFields.map _)).filter _) ?_
  intro v hv' w hw
  obtain ⟨hv', hvk⟩ := List.mem_filter.mp hv'
  obtain ⟨hw, hwk⟩ := List.mem_filter.mp hw
  exact hv.recorded.view_id hv' hw ((of_decide_eq_true hvk).trans (of_decide_eq_true hwk).symm)

/-- The groups are listed by name, and no two share one. -/
theorem Spec.Reordered.sortedGroups (hr : spec.Reordered spec') (hv : spec.Valid) :
    CanSpec.sortedGroups spec = CanSpec.sortedGroups spec' := by
  have htotal : Std.Total fun g h : Group => g.name ≤ h.name := ⟨fun g h => le_total g.name h.name⟩
  have htrans : IsTrans Group fun g h => g.name ≤ h.name := ⟨fun _ _ _ => le_trans⟩
  refine Reordering.insertionSort_eq (hr.groups.map Prod.snd) ?_
  intro g hg g' hg' hle hge
  have hnodup : ((spec.groups.map Prod.snd).map Group.name).Nodup := by
    rw [List.map_map]
    exact hv.registries.groups
  exact List.inj_on_of_nodup_map hnodup hg hg' (le_antisymm hle hge)

/-- The lines of a group are sorted, so the order of the entries does not matter. -/
theorem groupLines_perm {types types' : Dict FieldKey FieldType} {ids ids' : Dict FieldKey ℕ} (h : types.Perm types')
    (hids : ∀ k, Dict.get? ids k = Dict.get? ids' k) : groupLines types ids = groupLines types' ids' := by
  funext g
  have hentries : groupEntries types ids g.name = groupEntries types' ids' g.name := by
    unfold groupEntries
    simp only [hids]
    exact Reordering.insertionSort_eq ((h.filter _).map _) fun _ _ _ _ => le_antisymm
  unfold groupLines
  rw [hentries]

/-- **The lock file of a uniform spec** is the same for every order of its files, messages and signals. -/
theorem Spec.Reordered.manifest (hr : spec.Reordered spec') (hv : spec.Valid) (hu : Uniform spec) :
    CanSpec.manifest spec' = CanSpec.manifest spec := by
  obtain ⟨types, htypes⟩ := hv.recorded.exists_fieldTypes
  obtain ⟨types', htypes'⟩ : ∃ types, fieldTypes spec' = some types :=
    exists_fieldTypes fun x hx => hv.recorded.external_type (hr.externalFields.mem_iff.mpr hx)
  unfold CanSpec.manifest
  rw [htypes, htypes', Option.map_some, Option.map_some, hr.sortedGroups hv,
    groupLines_perm (hr.types hv hu htypes htypes') (hr.ids hv)]

/-! ## The claim -/

/-- **The lock file of an accepted spec** describes every binding whatever the order of the listing, exactly where the
    slots of each array have one element type. -/
theorem manifest_describes (h : spec.Valid) :
    (Described spec ∧ ∀ spec', spec.Reordered spec' → manifest spec' = manifest spec) ↔ Uniform spec := by
  constructor
  · rintro ⟨hdescribed, -⟩
    exact h.recorded.described_iff.mp hdescribed
  · intro hu
    exact ⟨h.recorded.described_iff.mpr hu, fun _ hr => hr.manifest h hu⟩

/-- On a spec with a shared speed, two cells and a gateway field. -/
theorem manifest_describes_inverters :
    (Described ledgerSpec ∧ ∀ spec', ledgerSpec.Reordered spec' → manifest spec' = manifest ledgerSpec) ↔
      Uniform ledgerSpec :=
  manifest_describes (by decide)

/-! ## Two slots that differ -/

/-- A cell of a wire type of its own. -/
def wideCellSignal (name : String) (slot : ℕ) : Signal :=
  boundSignal name (slot + 1)
    { group := "Dynamics", field := "cell_temps", id := 1, repeated := true, arrayIndex := slot, wireType := .double }

def narrowCellSignal (name : String) (slot : ℕ) : Signal :=
  boundSignal name (slot + 1)
    { group := "Dynamics", field := "cell_temps", id := 1, repeated := true, arrayIndex := slot, wireType := .float }

def mixedMessage : CanMessage :=
  inverterMessage "INVERTER_CELLS" 0x100 [narrowCellSignal "cell_a" 0, wideCellSignal "cell_b" 1]

/-- An array of a float and a double. -/
def mixedSpec : Spec where
  files :=
    [("lib/spec/buses.textproto", { bus := [{ name := "Critical", bitrateBps := 1000000 }] }),
      ("lib/spec/groups.textproto", { group := [{ name := "Dynamics", nextFreeId := 2, snapshotId := 3 }] }),
      ("lib/spec/messages/inverter.textproto", { message := [mixedMessage] })]
  nodup := by simp

/-- **The validator accepts an array of a float and a double**, and the lock file says it is one of doubles. -/
theorem not_manifest_describes : ¬ ∀ spec : Spec, spec.Valid →
    Described spec ∧ ∀ spec', spec.Reordered spec' → manifest spec' = manifest spec := by
  intro hall
  have hvalid : mixedSpec.Valid := by decide
  have hu := hvalid.recorded.described_iff.mp (hall mixedSpec hvalid).1
  have hfm : ("lib/spec/messages/inverter.textproto", mixedMessage) ∈ mixedSpec.messages := List.mem_cons_self
  have hnarrow := signalBinding_mem hfm (s := narrowCellSignal "cell_a" 0) List.mem_cons_self rfl rfl
  have hwide := signalBinding_mem hfm (s := wideCellSignal "cell_b" 1) (List.mem_cons_of_mem _ List.mem_cons_self) rfl rfl
  have htypes := hu.slots _ (mem_telemetryBindings.mpr (Or.inl hnarrow)) _ (mem_telemetryBindings.mpr (Or.inl hwide))
    rfl rfl rfl
  exact absurd htypes (by decide)

end Lhre.CanSpec
