import Lhre.CanSpec.Fields

/-!
# `CanSpec.Sharing` — which signals and bits share a telemetry field

The ledger lets two bindings share a field if they are slots of one array, or scalar signals of different messages. Within
one message two bindings of a field are therefore slots, and a bit shares its field with slots alone.

## Contents
- **Slots.** `TwoSlots`, `SharesSlots`.
- **Bindings.** `signalBinding` and `bitBinding`; what the ledger says of any two.
- **Signals.** `Recorded.signals_slots`, for the signals of one message.
- **Bits.** `Spec.Valid.bitfield_uses`: a type with bound bits has one user. `Recorded.bits_slots`.
-/

namespace Lhre.CanSpec

/-! ## Slots -/

/-- Two bindings are different slots of an array. -/
structure TwoSlots (t t' : Telemetry) : Prop where
  left : t.repeated = true
  right : t'.repeated = true
  index : t.arrayIndex ≠ t'.arrayIndex

theorem TwoSlots.symm {t t' : Telemetry} (h : TwoSlots t t') : TwoSlots t' t := ⟨h.right, h.left, h.index.symm⟩

/-- Two bindings that bind one field are slots of it. -/
def SharesSlots (t t' : Telemetry) : Prop := t.field = t'.field → TwoSlots t t'

theorem SharesSlots.symm {t t' : Telemetry} (h : SharesSlots t t') : SharesSlots t' t := fun hfield =>
  (h hfield.symm).symm

/-! ## Bindings -/

theorem mem_signals {spec : Spec} {fm : String × CanMessage} (hfm : fm ∈ spec.messages) {s : Signal}
    (hs : s ∈ fm.2.signal) : (fm.1, fm.2, s) ∈ spec.signals :=
  List.mem_flatMap.mpr ⟨fm, hfm, List.mem_map.mpr ⟨s, hs, rfl⟩⟩

/-- The binding of a signal. -/
def signalBinding (fm : String × CanMessage) (s : Signal) (t : Telemetry) : TelemetryBinding :=
  ⟨fm.1, fm.2, .signal s, none, t⟩

theorem signalBinding_mem {spec : Spec} {fm : String × CanMessage} (hfm : fm ∈ spec.messages) {s : Signal}
    (hs : s ∈ fm.2.signal) (hnumber : s.bitfieldType = none) {t : Telemetry} (ht : s.telemetry = some t) :
    signalBinding fm s t ∈ signalBindings spec :=
  mem_signalBindings.mpr ⟨s, t, mem_signals hfm hs, hnumber, ht, rfl⟩

/-- The binding of a bit. -/
def bitBinding (spec : Spec) (fb : String × BitfieldType) (bit : BitfieldBit) (t : Telemetry) : TelemetryBinding :=
  let place := bitfieldWhere spec fb.1 fb.2
  ⟨place.1, place.2.1, place.2.2, some bit, t⟩

/-- The bindings of the bits of one type. -/
def bitBindingsOf (spec : Spec) (fb : String × BitfieldType) : List TelemetryBinding :=
  fb.2.bit.filterMap fun bit => bit.telemetry.map (bitBinding spec fb bit)

theorem bitBindings_eq (spec : Spec) : bitBindings spec = spec.bitfieldTypes.flatMap (bitBindingsOf spec) := rfl

theorem mem_bitBindingsOf {spec : Spec} {fb : String × BitfieldType} {bit : BitfieldBit} (hbit : bit ∈ fb.2.bit)
    {t : Telemetry} (ht : bit.telemetry = some t) : bitBinding spec fb bit t ∈ bitBindingsOf spec fb := by
  refine List.mem_filterMap.mpr ⟨bit, hbit, ?_⟩
  rw [ht, Option.map_some]

theorem bitBinding_mem {spec : Spec} {fb : String × BitfieldType} (hfb : fb ∈ spec.bitfieldTypes) {bit : BitfieldBit}
    (hbit : bit ∈ fb.2.bit) {t : Telemetry} (ht : bit.telemetry = some t) :
    bitBinding spec fb bit t ∈ bitBindings spec := by
  rw [bitBindings_eq]
  exact List.mem_flatMap.mpr ⟨fb, hfb, mem_bitBindingsOf hbit ht⟩

section Recorded

variable {spec : Spec} (h : Recorded spec)

include h

/-- The bindings of signals and bits are consistent. -/
theorem Recorded.bindings : (telemetryBindings spec).Pairwise fun b c => Consistent b.record.2 c.record.2 := by
  have hall := h.consistent
  unfold fieldBindings ledgerSources at hall
  rw [List.map_append, List.pairwise_append, List.map_map] at hall
  exact List.pairwise_map.mp hall.1

/-- **The bindings of a field are in one group**, and all of them are slots or none is. -/
theorem Recorded.field_agrees {b c : LedgerBinding} (hb : b ∈ fieldBindings spec) (hc : c ∈ fieldBindings spec)
    (hfield : b.field = c.field) : b.group = c.group ∧ b.repeated = c.repeated := by
  by_cases heq : b = c
  · rw [heq]
    exact ⟨rfl, rfl⟩
  · have hsymm : Std.Symm Consistent := ⟨fun _ _ => Consistent.symm⟩
    have hconsistent := h.consistent.forall hb hc heq
    refine ⟨hconsistent.group hfield, ?_⟩
    rcases hconsistent.again hfield with hslots | hsources
    · rw [hslots.left, hslots.right]
    · rw [hsources.left, hsources.right]

/-- A bit is no shared source. -/
theorem Recorded.bit_unshared {b : TelemetryBinding} (hb : b ∈ telemetryBindings spec) (hbit : b.bit.isSome) :
    b.telemetry.sharedSource = false := by
  have hfindings := (h.sources b.record (List.mem_append_left _ (List.mem_map.mpr ⟨b, hb, rfl⟩))).1
  unfold TelemetryBinding.record at hfindings
  rw [List.append_eq_nil_iff, report_eq_nil, report_eq_nil, not_and, not_or] at hfindings
  by_contra hshared
  exact (hfindings.2 (by simpa using hshared)).2 hbit

/-! ## Signals -/

/-- **Two signals of one message** that bind one field are slots of it. -/
theorem Recorded.signals_slots {fm : String × CanMessage} (hfm : fm ∈ spec.messages) :
    fm.2.signal.Pairwise fun s s' => ∀ t t', s.bitfieldType = none → s.telemetry = some t →
      s'.bitfieldType = none → s'.telemetry = some t' → SharesSlots t t' := by
  have hall := (List.pairwise_append.mp h.bindings).1
  unfold signalBindings at hall
  rw [List.pairwise_filterMap] at hall
  unfold Spec.signals at hall
  have hmessage := List.pairwise_map.mp ((List.pairwise_flatMap.mp hall).1 fm hfm)
  refine List.Pairwise.imp ?_ hmessage
  intro s s' hconsistent t t' hs ht hs' ht' hfield
  have hboth := hconsistent ⟨fm.1, fm.2, .signal s, none, t⟩ (by simp [hs, ht])
    ⟨fm.1, fm.2, .signal s', none, t'⟩ (by simp [hs', ht'])
  rcases hboth.again hfield with hslots | hsources
  · exact ⟨hslots.left, hslots.right, hslots.index⟩
  · -- sources of one field are in different messages
    exact absurd rfl hsources.producer

/-! ## Bits -/

/-- **A signal and a bit** that bind one field are slots of it. -/
theorem Recorded.signal_bit_slots {b c : TelemetryBinding} (hb : b ∈ signalBindings spec) (hc : c ∈ bitBindings spec) :
    SharesSlots b.telemetry c.telemetry := by
  intro hfield
  have hconsistent := (List.pairwise_append.mp h.bindings).2.2 b hb c hc
  rcases hconsistent.again hfield with hslots | hsources
  · exact ⟨hslots.left, hslots.right, hslots.index⟩
  · obtain ⟨-, -, bit, -, -, hbit, -⟩ := mem_bitBindings.mp hc
    have hplain := h.bit_unshared (mem_telemetryBindings.mpr (Or.inr hc)) (by rw [hbit]; rfl)
    have hshared : c.telemetry.sharedSource = true := hsources.shared.2
    rw [hplain] at hshared
    exact absurd hshared (by simp)

/-- Two consistent bits share slots alone. -/
theorem Recorded.consistent_bits {b c : TelemetryBinding} (hb : b ∈ bitBindings spec)
    (hconsistent : Consistent b.record.2 c.record.2) : SharesSlots b.telemetry c.telemetry := by
  intro hfield
  rcases hconsistent.again hfield with hslots | hsources
  · exact ⟨hslots.left, hslots.right, hslots.index⟩
  · obtain ⟨-, -, bit, -, -, hbit, -⟩ := mem_bitBindings.mp hb
    have hplain := h.bit_unshared (mem_telemetryBindings.mpr (Or.inr hb)) (by rw [hbit]; rfl)
    have hshared : b.telemetry.sharedSource = true := hsources.shared.1
    rw [hplain] at hshared
    exact absurd hshared (by simp)

/-- **Two bits of one type** that bind one field are slots of it. -/
theorem Recorded.bits_slots {fb : String × BitfieldType} (hfb : fb ∈ spec.bitfieldTypes) :
    fb.2.bit.Pairwise fun bit bit' => ∀ t t', bit.telemetry = some t → bit'.telemetry = some t' → SharesSlots t t' := by
  have hall := (List.pairwise_append.mp h.bindings).2.1
  rw [bitBindings_eq, List.pairwise_flatMap] at hall
  have hbits := List.pairwise_filterMap.mp (hall.1 fb hfb)
  refine List.Pairwise.imp_of_mem ?_ hbits
  intro bit bit' hbit _ hconsistent t t' ht ht'
  refine h.consistent_bits (bitBinding_mem hfb hbit ht) (hconsistent (bitBinding spec fb bit t) ?_
    (bitBinding spec fb bit' t') ?_)
  · rw [ht, Option.map_some]
  · rw [ht', Option.map_some]

/-- **Bits of two types** that bind one field are slots of it. -/
theorem Recorded.types_slots {fb fb' : String × BitfieldType} (hfb : fb ∈ spec.bitfieldTypes)
    (hfb' : fb' ∈ spec.bitfieldTypes) (hne : fb ≠ fb') {bit bit' : BitfieldBit} (hbit : bit ∈ fb.2.bit)
    (hbit' : bit' ∈ fb'.2.bit) {t t' : Telemetry} (ht : bit.telemetry = some t) (ht' : bit'.telemetry = some t') :
    SharesSlots t t' := by
  have hall := (List.pairwise_append.mp h.bindings).2.1
  rw [bitBindings_eq, List.pairwise_flatMap] at hall
  have hsymm : Std.Symm fun fb fb' : String × BitfieldType =>
      ∀ x ∈ bitBindingsOf spec fb, ∀ y ∈ bitBindingsOf spec fb', Consistent x.record.2 y.record.2 :=
    ⟨fun _ _ hab x hx y hy => (hab y hy x hx).symm⟩
  refine h.consistent_bits (bitBinding_mem hfb hbit ht) (hall.2.forall hfb hfb' hne (bitBinding spec fb bit t) ?_
    (bitBinding spec fb' bit' t') ?_)
  · exact mem_bitBindingsOf hbit ht
  · exact mem_bitBindingsOf hbit' ht'

end Recorded

/-! ## Uses -/

/-- **No second use of a type with bound bits** passes the check. -/
theorem checkBitfieldReferences_eq_nil {bound : List String} (uses : List (String × String × CanMessage × Signal))
    (users : Dict String String) (h : checkBitfieldReferences bound users uses = []) :
    (∀ u ∈ uses, u.1 ∈ bound → u.1 ∉ Dict.keys users) ∧ uses.Pairwise fun u u' => u.1 ∈ bound → u.1 ≠ u'.1 := by
  induction uses generalizing users with
  | nil => exact ⟨fun _ hu => absurd hu List.not_mem_nil, List.Pairwise.nil⟩
  | cons use uses ih =>
      obtain ⟨name, filename, m, s⟩ := use
      simp only [checkBitfieldReferences, List.append_eq_nil_iff, report_eq_nil, not_and, Option.not_isSome_iff_eq_none,
        Dict.get?_eq_none] at h
      obtain ⟨hnew, hrest⟩ := h
      obtain ⟨hall, hpairwise⟩ := ih _ hrest
      refine ⟨?_, List.pairwise_cons.mpr ⟨?_, hpairwise⟩⟩
      · refine List.forall_mem_cons.mpr ⟨hnew, ?_⟩
        intro u hu hbound hmem
        exact hall u hu hbound (Dict.mem_keys_set.mpr (Or.inr hmem))
      · intro u hu hbound heq
        have hname : name = u.1 := heq
        exact hall u hu (hname ▸ hbound) (Dict.mem_keys_set.mpr (Or.inl hname.symm))

/-- **A type with bound bits has one user.** -/
theorem Spec.Valid.bitfield_uses {spec : Spec} (h : spec.Valid) :
    (bitfieldUses spec).Pairwise fun u u' => u.1 ∈ telemetryBitfields spec → u.1 ≠ u'.1 :=
  (checkBitfieldReferences_eq_nil _ [] (Spec.valid_iff.mp h).2.2.1).2

theorem mem_telemetryBitfields {spec : Spec} {fb : String × BitfieldType} (hfb : fb ∈ spec.bitfieldTypes)
    {bit : BitfieldBit} (hbit : bit ∈ fb.2.bit) (ht : bit.telemetry.isSome) : fb.2.name ∈ telemetryBitfields spec := by
  refine List.mem_map.mpr ⟨fb, List.mem_filter.mpr ⟨hfb, ?_⟩, rfl⟩
  exact List.any_eq_true.mpr ⟨bit, hbit, ht⟩

/-- Two signals of one message do not use one type with bound bits. -/
theorem Spec.Valid.message_uses {spec : Spec} (h : spec.Valid) {fm : String × CanMessage} (hfm : fm ∈ spec.messages) :
    fm.2.signal.Pairwise fun s s' => ∀ name, s.bitfieldType = some name → s'.bitfieldType = some name →
      name ∉ telemetryBitfields spec := by
  have hall := h.bitfield_uses
  unfold bitfieldUses at hall
  rw [List.pairwise_filterMap] at hall
  unfold Spec.signals at hall
  have hmessage := List.pairwise_map.mp ((List.pairwise_flatMap.mp hall).1 fm hfm)
  refine List.Pairwise.imp ?_ hmessage
  intro s s' huses name hs hs' hname
  refine huses (name, fm.1, fm.2, s) ?_ (name, fm.1, fm.2, s') ?_ hname rfl
  · simp [hs]
  · simp [hs']

end Lhre.CanSpec
