import Lhre.CanSpec.Sharing
import Lhre.Theory.Reordering

/-!
# `CanSpec.Reordering` — what the wire contract sees of a reordered spec

The files of a spec, the messages of a file and the signals of a message may be listed in any order. `fieldTypes` and
`fieldIds` read off each binding the view below, and the views of a reordered spec are the same in another order.

## Contents
- **Entries.** What reordering leaves of the entries of a spec, and of its signals.
- **Views.** `FieldView`, what the wire contract reads off a binding or an external field.
- **Bits.** A bound bit is reported at one message, which reordering keeps.
- **Lookups.** The types and ids of the fields as functions of the views.
-/

namespace Lhre.CanSpec

variable {spec spec' : Spec}

/-! ## Entries -/

/-- A message but for its signals. -/
def CanMessage.bare (m : CanMessage) : CanMessage := { m with signal := [] }

theorem CanMessage.Reordered.bare_eq {m m' : CanMessage} (h : m.Reordered m') : m.bare = m'.bare := by
  rw [h.2]
  rfl

/-- A signal with its file and its message, but for the other signals. -/
def bareUse (use : String × CanMessage × Signal) : String × CanMessage × Signal := (use.1, use.2.1.bare, use.2.2)

/-- A section that reordering leaves alone lists the same entries in another order. -/
theorem Spec.Reordered.entries {α : Type} {entriesOf : SpecFile → List α}
    (hsame : ∀ f f', SpecFile.Reordered f f' → entriesOf f' = entriesOf f) (h : spec.Reordered spec') :
    (spec.entries entriesOf).Perm (spec'.entries entriesOf) := by
  obtain ⟨files, hperm, hfiles⟩ := h
  refine (hperm.flatMap_right _).trans (Reordering.flatMap_forall₂ (hfiles.imp ?_))
  rintro ⟨name, f⟩ ⟨name', f'⟩ ⟨hname, hf⟩
  obtain rfl : name = name' := hname
  show (List.map _ (entriesOf f)).Perm (List.map _ (entriesOf f'))
  rw [hsame f f' hf]

theorem Spec.Reordered.groups (h : spec.Reordered spec') : spec.groups.Perm spec'.groups :=
  h.entries fun f f' hf => by rw [hf.2]

theorem Spec.Reordered.bitfieldTypes (h : spec.Reordered spec') : spec.bitfieldTypes.Perm spec'.bitfieldTypes :=
  h.entries fun f f' hf => by rw [hf.2]

theorem Spec.Reordered.externalFields (h : spec.Reordered spec') : (externalFields spec).Perm (externalFields spec') :=
  h.groups.flatMap_right _

/-- The signals of a spec, file by file. -/
theorem signals_bare (spec : Spec) :
    spec.signals.map bareUse = spec.files.flatMap fun file => file.2.message.flatMap fun m =>
      m.signal.map fun s => (file.1, m.bare, s) := by
  unfold Spec.signals Spec.messages Spec.entries
  simp only [List.map_flatMap, List.flatMap_assoc, List.flatMap_map, List.map_map]
  rfl

/-- **Reordering keeps the signals**, with their files and messages. -/
theorem Spec.Reordered.signals (h : spec.Reordered spec') :
    (spec.signals.map bareUse).Perm (spec'.signals.map bareUse) := by
  obtain ⟨files, hperm, hfiles⟩ := h
  rw [signals_bare, signals_bare]
  refine (hperm.flatMap_right _).trans (Reordering.flatMap_forall₂ (hfiles.imp ?_))
  rintro ⟨name, f⟩ ⟨name', f'⟩ ⟨hname, ⟨messages, hmessages, hsignals⟩, -⟩
  obtain rfl : name = name' := hname
  refine (hmessages.flatMap_right _).trans (Reordering.flatMap_forall₂ (hsignals.imp ?_))
  intro m m' hm
  rw [hm.bare_eq]
  exact hm.1.map _

/-! ## Views -/

/-- What the wire contract reads off a binding or an external field. -/
structure FieldView where
  key : FieldKey
  text : String
  slot : ℕ
  counted : Bool
  id : ℕ

/-- The type a field is given, of its element type. -/
def typeText (repeated : Bool) (elementType : String) : String :=
  if repeated then s!"repeated {elementType}" else elementType

def TelemetryBinding.view (b : TelemetryBinding) : FieldView where
  key := b.key
  text := typeText b.telemetry.repeated (b.elementType.getD "")
  slot := if b.telemetry.repeated then effectiveQuantity b.message else 0
  counted := b.telemetry.repeated
  id := b.telemetry.id

def externalView (x : String × Group × SnapshotField) : FieldView where
  key := (x.2.1.name, x.2.2.name)
  text := typeText x.2.2.repeated ((scalarType x.2.2.type).getD "")
  slot := 0
  counted := false
  id := x.2.2.id

def TypedField.view (a : TypedField) : FieldView where
  key := a.key
  text := a.text
  slot := a.slot
  counted := a.counted
  id := a.binding.id

/-- The views of the bindings, then those of the external fields. -/
def fieldViews (spec : Spec) : List FieldView :=
  (telemetryBindings spec).map TelemetryBinding.view ++ (externalFields spec).map externalView

theorem view_bound {b : TelemetryBinding} {t : String} (h : b.elementType = some t) :
    (TypedField.bound b t).view = b.view := by
  unfold TypedField.view TelemetryBinding.view
  rw [h]
  rfl

theorem view_external {x : String × Group × SnapshotField} {t : String} (h : scalarType x.2.2.type = some t) :
    (TypedField.external x.2.1 x.2.2 t).view = externalView x := by
  unfold TypedField.view externalView
  rw [h]
  rfl

theorem map_view {l : List TypedField} (h : typedFields spec = some l) : l.map TypedField.view = fieldViews spec := by
  unfold typedFields at h
  obtain ⟨bound, hbound, h⟩ := Option.bind_eq_some_iff.mp h
  obtain ⟨external, hexternal, rfl⟩ := Option.map_eq_some_iff.mp h
  obtain ⟨g, rfl, hg⟩ := ListPass.exists_map_of_mapM hbound
  obtain ⟨g', rfl, hg'⟩ := ListPass.exists_map_of_mapM hexternal
  rw [List.map_append, List.map_map, List.map_map]
  unfold fieldViews
  congr 1
  · refine List.map_congr_left fun b hb => ?_
    obtain ⟨t, ht, hgb⟩ := Option.map_eq_some_iff.mp (hg b hb)
    show (g b).view = b.view
    rw [← hgb, view_bound ht]
  · refine List.map_congr_left fun x hx => ?_
    obtain ⟨t, ht, hgx⟩ := Option.map_eq_some_iff.mp (hg' x hx)
    show (g' x).view = externalView x
    rw [← hgx, view_external ht]

/-! ## Signals and bits -/

/-- The view of a signal does not depend on the other signals of its message. -/
theorem signalBindings_view (spec : Spec) :
    (signalBindings spec).map TelemetryBinding.view =
      (spec.signals.map bareUse).filterMap fun (filename, m, s) =>
        if s.bitfieldType.isSome then none
        else s.telemetry.map fun t => (⟨filename, m, .signal s, none, t⟩ : TelemetryBinding).view := by
  unfold signalBindings
  rw [List.map_filterMap, List.filterMap_map]
  refine List.filterMap_congr fun use _ => ?_
  obtain ⟨filename, m, s⟩ := use
  show Option.map _ (if s.bitfieldType.isSome = true then none else _) =
    if s.bitfieldType.isSome = true then none else s.telemetry.map _
  split
  · rfl
  · rw [Option.map_map]
    rfl

/-- The quantities of the messages that use a bitfield type. -/
def useQuantities (spec : Spec) : Dict String ℕ :=
  (bitfieldUses spec).map fun use => (use.1, effectiveQuantity use.2.2.1)

theorem useQuantities_eq (spec : Spec) :
    useQuantities spec = (spec.signals.map bareUse).filterMap fun use =>
      use.2.2.bitfieldType.map fun name => (name, effectiveQuantity use.2.1) := by
  unfold useQuantities bitfieldUses
  rw [List.map_filterMap, List.filterMap_map]
  refine List.filterMap_congr fun use _ => ?_
  rw [Option.map_map]
  rfl

/-- The frames a bit is reported in. -/
theorem quantity_where (spec : Spec) (filename : String) (b : BitfieldType) :
    effectiveQuantity (bitfieldWhere spec filename b).2.1 =
      (Dict.get? (useQuantities spec) b.name).getD (effectiveQuantity {}) := by
  have hget : Dict.get? (useQuantities spec) b.name =
      (Dict.get? (bitfieldUses spec) b.name).map fun use => effectiveQuantity use.2.1 :=
    Dict.get?_map (fun use : String × CanMessage × Signal => effectiveQuantity use.2.1) _ _
  rw [hget]
  unfold bitfieldWhere Dict.get?
  cases (bitfieldUses spec).lookup b.name <;> rfl

/-- **A bit that is bound is reported in the same frames** after reordering: its type has one user. -/
theorem Spec.Reordered.quantity (h : spec.Reordered spec') (hv : spec.Valid) {fb : String × BitfieldType}
    (hbound : fb.2.name ∈ telemetryBitfields spec) :
    effectiveQuantity (bitfieldWhere spec fb.1 fb.2).2.1 = effectiveQuantity (bitfieldWhere spec' fb.1 fb.2).2.1 := by
  have hperm : (useQuantities spec).Perm (useQuantities spec') := by
    rw [useQuantities_eq, useQuantities_eq]
    exact h.signals.filterMap _
  rw [quantity_where, quantity_where, Reordering.lookup_eq hperm]
  intro v w hmem hmem'
  obtain ⟨use, huse, heq⟩ := List.mem_map.mp hmem
  obtain ⟨use', huse', heq'⟩ := List.mem_map.mp hmem'
  obtain ⟨hname, rfl⟩ := Prod.mk.inj heq
  obtain ⟨hname', rfl⟩ := Prod.mk.inj heq'
  by_cases hsame : use = use'
  · rw [hsame]
  · have hsymm : Std.Symm fun u u' : String × String × CanMessage × Signal =>
        u.1 ∈ telemetryBitfields spec → u.1 ≠ u'.1 :=
      ⟨fun u u' huu hu' heq => huu (heq ▸ hu') heq.symm⟩
    have hne := hv.bitfield_uses.forall huse huse' hsame (hname ▸ hbound)
    exact absurd (hname.trans hname'.symm) hne

/-- The view of a bit depends on its message through the quantity alone. -/
theorem view_bit {m m' : CanMessage} (hq : effectiveQuantity m = effectiveQuantity m') (file file' : String)
    (source source' : Source) (bit : BitfieldBit) (t : Telemetry) :
    (⟨file, m, source, some bit, t⟩ : TelemetryBinding).view =
      (⟨file', m', source', some bit, t⟩ : TelemetryBinding).view := by
  unfold TelemetryBinding.view TelemetryBinding.elementType
  dsimp only
  rw [hq]
  rfl

theorem bitBindingsOf_view (h : spec.Reordered spec') (hv : spec.Valid) {fb : String × BitfieldType}
    (hfb : fb ∈ spec.bitfieldTypes) :
    (bitBindingsOf spec fb).map TelemetryBinding.view = (bitBindingsOf spec' fb).map TelemetryBinding.view := by
  unfold bitBindingsOf
  rw [List.map_filterMap, List.map_filterMap]
  refine List.filterMap_congr fun bit hbit => ?_
  rw [Option.map_map, Option.map_map]
  cases ht : bit.telemetry with
  | none => rfl
  | some t =>
      have hbound : fb.2.name ∈ telemetryBitfields spec := mem_telemetryBitfields hfb hbit (by rw [ht]; rfl)
      exact congrArg some (view_bit (h.quantity hv hbound) _ _ _ _ bit t)

/-- **Reordering keeps the views** of the bindings. -/
theorem Spec.Reordered.views (h : spec.Reordered spec') (hv : spec.Valid) :
    ((telemetryBindings spec).map TelemetryBinding.view).Perm
      ((telemetryBindings spec').map TelemetryBinding.view) := by
  unfold telemetryBindings
  rw [List.map_append, List.map_append]
  refine List.Perm.append ?_ ?_
  · rw [signalBindings_view, signalBindings_view]
    exact h.signals.filterMap _
  · rw [bitBindings_eq, bitBindings_eq, List.map_flatMap, List.map_flatMap]
    have hcongr : (spec.bitfieldTypes.flatMap fun fb => (bitBindingsOf spec fb).map TelemetryBinding.view) =
        spec.bitfieldTypes.flatMap fun fb => (bitBindingsOf spec' fb).map TelemetryBinding.view :=
      List.flatMap_congr fun fb hfb => bitBindingsOf_view h hv hfb
    rw [hcongr]
    exact h.bitfieldTypes.flatMap_right _

/-! ## Lookups -/

/-- What the views of one key come to. -/
def entryOf (views : List FieldView) : Option FieldType :=
  views.getLast?.map fun v =>
    ⟨v.text, if v.counted then some (views.map FieldView.slot).sum else none, (views.map FieldView.slot).sum⟩

/-- The views of one key. -/
def viewsOf (k : FieldKey) (views : List FieldView) : List FieldView := views.filter fun v => decide (v.key = k)

theorem get?_fieldTypes_views {types : Dict FieldKey FieldType} (h : fieldTypes spec = some types) (k : FieldKey) :
    Dict.get? types k = entryOf (viewsOf k (fieldViews spec)) := by
  obtain ⟨l, hl, -⟩ := Option.map_eq_some_iff.mp h
  have hviews : viewsOf k (fieldViews spec) = (itemsOf k l).map TypedField.view := by
    unfold viewsOf itemsOf
    rw [← map_view hl, List.filter_map]
    rfl
  rw [get?_fieldTypes hl h, hviews]
  unfold entryOf
  rw [List.getLast?_map, Option.map_map, List.map_map]
  rfl

/-- The ids that `field_ids` collects are those of the views. -/
theorem fieldIds_entries (spec : Spec) : (((telemetryBindings spec).map fun b => (b.key, b.telemetry.id)) ++
    (externalFields spec).map fun (_, g, field) => ((g.name, field.name), field.id)) =
      (fieldViews spec).map fun v => (v.key, v.id) := by
  unfold fieldViews
  rw [List.map_append, List.map_map, List.map_map]
  rfl

theorem get?_fieldIds_views (spec : Spec) (k : FieldKey) :
    Dict.get? (fieldIds spec) k = (viewsOf k (fieldViews spec)).getLast?.map FieldView.id := by
  unfold fieldIds viewsOf
  rw [fieldIds_entries, Dict.get?_collect, Dict.get?_nil, foldl_last_snd, Option.or_none, List.filter_map, List.getLast?_map,
    Option.map_map]
  rfl

end Lhre.CanSpec
