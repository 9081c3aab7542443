import Lhre.Bevo.Correctness.Resolution
import Lhre.Bevo.Loggerd
import Lhre.Theory.Blocks

/-!
# `Bevo.Correctness.Arrays` — the elements of an indexed array

A message of quantity `N` has `N` frames of one layout, and each slot of a repeated field is one element per frame. The
documented element is `(frame id - CAN id) * S + array_index` with `S` the number of slots of the field. The gateway strides by
the highest index of any repeated field of the message instead, so the two agree where that is the number of slots.

## Contents
- **Slots.** `slotsOf`, `BoundBy`.
- **The property.** `writtenIndex`, `ArraysLand`; its condition is `Dense`.
- **The stride.** `lt_span`, `span_le`, `length_slots_le`.
- **The published bound.** `published_count`.
- **`arrays_land`**, and `Dense.covers`: no holes.
- **Two arrays in one message.** `not_arrays_land`.
-/

namespace Lhre.Bevo

open CanSpec Codegen

/-! ## Slots -/

/-- The slots of a field in a message: the numbers that are bound to it, with their bindings. -/
def slotsOf (m : CanMessage) (key : FieldKey) : List ((Signal × ℕ) × Telemetry) :=
  (places m).filterMap fun sp =>
    if sp.1.bitfieldType.isSome then none
    else (sp.1.telemetry.filter fun t => (t.group, t.field) = key).map fun t => (sp, t)

/-- A repeated field that one message alone binds. -/
structure BoundBy (spec : Spec) (fm : String × CanMessage) (key : FieldKey) : Prop where
  bindings : (telemetryBindings spec).filter (fun b => b.key = key) =
    (slotsOf fm.2 key).map fun slot => signalBinding fm slot.1.1 slot.2
  external : ∀ x ∈ externalFields spec, (x.2.1.name, x.2.2.name) ≠ key
  repeated : ∀ slot ∈ slotsOf fm.2 key, slot.2.repeated = true

theorem mem_slotsOf {m : CanMessage} {key : FieldKey} {slot : (Signal × ℕ) × Telemetry} :
    slot ∈ slotsOf m key ↔ slot.1 ∈ places m ∧ slot.1.1.bitfieldType = none ∧ slot.1.1.telemetry = some slot.2 ∧
      (slot.2.group, slot.2.field) = key := by
  unfold slotsOf
  rw [List.mem_filterMap]
  constructor
  · rintro ⟨sp, hsp, h⟩
    split at h
    · exact nomatch h
    · rename_i hnumber
      obtain ⟨t, ht, rfl⟩ := Option.map_eq_some_iff.mp h
      obtain ⟨htele, hkey⟩ := Option.filter_eq_some_iff.mp ht
      exact ⟨hsp, by simpa using hnumber, htele, of_decide_eq_true hkey⟩
  · rintro ⟨hsp, hnumber, htele, hkey⟩
    refine ⟨slot.1, hsp, ?_⟩
    rw [hnumber, htele]
    simp [hkey]

/-! ## The property -/

/-- The element that the gateway writes a slot of a frame to, `k` frames behind the first. -/
def writtenIndex (packet : PacketJson) (k : ℕ) (t : Telemetry) : ℕ :=
  t.arrayIndex + k * repeatedFieldSpan (PacketConfig.ofJson packet)

/-- A slot that the gateway writes: it has no conversion for a number of 64 bits. -/
def Written (slot : (Signal × ℕ) × Telemetry) : Prop := slot.1.1.enc.bitLength ≠ 64

instance (slot : (Signal × ℕ) × Telemetry) : Decidable (Written slot) := inferInstanceAs (Decidable (_ ≠ _))

/-- The elements of a field are those that are documented; none is written twice; they are below the published bound, and the
log has a column for each. -/
structure ArraysLand (spec : Spec) (fm : String × CanMessage) (packets : List PacketJson) (packet : PacketJson)
    (key : FieldKey) : Prop where
  index : ∀ k < effectiveQuantity fm.2, ∀ slot ∈ slotsOf fm.2 key, Written slot →
    writtenIndex packet k slot.2 = k * (slotsOf fm.2 key).length + slot.2.arrayIndex
  distinct : ∀ k < effectiveQuantity fm.2, ∀ k' < effectiveQuantity fm.2, ∀ slot ∈ slotsOf fm.2 key,
    ∀ slot' ∈ slotsOf fm.2 key, Written slot → Written slot' →
    writtenIndex packet k slot.2 = writtenIndex packet k' slot'.2 → k = k' ∧ slot = slot'
  bound : ∀ types type count, fieldTypes spec = some types → Dict.get? types key = some type → type.count = some count →
    ∀ k < effectiveQuantity fm.2, ∀ slot ∈ slotsOf fm.2 key, Written slot → writtenIndex packet k slot.2 < count
  column : ∀ path, ∀ k < effectiveQuantity fm.2, ∀ slot ∈ slotsOf fm.2 key, Written slot →
    s!"{path}[{writtenIndex packet k slot.2}]" ∈
      arrayColumns (repeatedFieldLengths (packets.map PacketConfig.ofJson)) path key.2

/-- Every written slot of the field has an index below the number of slots, and so has every repeated binding of the message,
where there is more than one frame and anything is written. -/
structure Dense (m : CanMessage) (key : FieldKey) : Prop where
  slots : ∀ slot ∈ slotsOf m key, Written slot → slot.2.arrayIndex < (slotsOf m key).length
  message : 1 < effectiveQuantity m → (∃ slot ∈ slotsOf m key, Written slot) →
    ∀ s ∈ m.signal, ∀ t, s.telemetry = some t → t.repeated = true → t.arrayIndex < (slotsOf m key).length

/-! ## The stride -/

section Stride

variable {spec : Spec} {fm : String × CanMessage} {packets : List PacketJson} {packet : PacketJson}
  {types : Dict FieldKey FieldType} {entry : Signal × ℕ → SignalJson}

/-- The indexes of the repeated fields of a packet. -/
theorem mem_indexes (l : Loading spec fm.2 packets packet types entry) {i : ℕ} :
    i ∈ ((PacketConfig.ofJson packet).bytes.filterMap fun signal =>
        signal.protobuf.bind fun pb => if pb.repeated then pb.fieldIndex else none) ↔
      ∃ s ∈ fm.2.signal, ∃ t, s.telemetry = some t ∧ t.repeated = true ∧ t.arrayIndex = i := by
  rw [l.config_bytes, List.filterMap_map, List.mem_filterMap]
  constructor
  · rintro ⟨sp, hsp, h⟩
    refine ⟨sp.1, mem_places hsp, ?_⟩
    rw [Function.comp_apply] at h
    cases ht : sp.1.telemetry with
    | none =>
        rw [config_protobuf_none (l.rendered sp hsp) ht] at h
        exact nomatch h
    | some t =>
        rw [config_protobuf (l.rendered sp hsp) ht, Option.bind_some] at h
        dsimp only at h
        split at h
        · rename_i hrep
          exact ⟨t, rfl, hrep, Option.some.inj h⟩
        · exact nomatch h
  · rintro ⟨s, hs, t, ht, hrep, rfl⟩
    obtain ⟨i, hsp⟩ := exists_place hs
    refine ⟨(s, i), hsp, ?_⟩
    rw [Function.comp_apply, config_protobuf (l.rendered (s, i) hsp) ht, Option.bind_some]
    simp [hrep]

theorem lt_span (l : Loading spec fm.2 packets packet types entry) {s : Signal} (hs : s ∈ fm.2.signal) {t : Telemetry}
    (ht : s.telemetry = some t) (hrep : t.repeated = true) :
    t.arrayIndex < repeatedFieldSpan (PacketConfig.ofJson packet) := by
  have hmem := (mem_indexes l).mpr ⟨s, hs, t, ht, hrep, rfl⟩
  unfold repeatedFieldSpan
  dsimp only
  obtain ⟨m, hm⟩ : ∃ m, ((PacketConfig.ofJson packet).bytes.filterMap fun signal =>
      signal.protobuf.bind fun pb => if pb.repeated then pb.fieldIndex else none).max? = some m :=
    Option.ne_none_iff_exists'.mp fun h => List.not_mem_nil ((List.max?_eq_none_iff.mp h) ▸ hmem)
  rw [hm, Option.map_some, Option.getD_some]
  exact Nat.lt_succ_of_le ((List.max?_eq_some_iff.mp hm).2 _ hmem)

/-- The stride is no more than a bound of the indexes. -/
theorem span_le (l : Loading spec fm.2 packets packet types entry) {n : ℕ}
    (h : ∀ s ∈ fm.2.signal, ∀ t, s.telemetry = some t → t.repeated = true → t.arrayIndex < n) :
    repeatedFieldSpan (PacketConfig.ofJson packet) ≤ n := by
  unfold repeatedFieldSpan
  dsimp only
  cases hm : ((PacketConfig.ofJson packet).bytes.filterMap fun signal =>
      signal.protobuf.bind fun pb => if pb.repeated then pb.fieldIndex else none).max? with
  | none => exact Nat.zero_le n
  | some m =>
      obtain ⟨s, hs, t, ht, hrep, rfl⟩ := (mem_indexes l).mp (List.max?_eq_some_iff.mp hm).1
      exact h s hs t ht hrep

/-- Different slots of a field have different indexes. -/
theorem slotsOf_nodup (hvalid : spec.Valid) (hfm : fm ∈ spec.messages) (key : FieldKey) :
    (slotsOf fm.2 key).Pairwise fun slot slot' => slot.2.arrayIndex ≠ slot'.2.arrayIndex := by
  unfold slotsOf
  refine List.pairwise_filterMap.mpr ((places_pairwise fm.2).imp_of_mem fun {sp tp} hsp htp hne slot hslot slot' hslot' => ?_)
  have hin : slot ∈ slotsOf fm.2 key := List.mem_filterMap.mpr ⟨sp, hsp, hslot⟩
  have hin' : slot' ∈ slotsOf fm.2 key := List.mem_filterMap.mpr ⟨tp, htp, hslot'⟩
  have hplace : slot.1 = sp := by
    split at hslot
    · exact nomatch hslot
    · obtain ⟨t, -, rfl⟩ := Option.map_eq_some_iff.mp hslot
      rfl
  have hplace' : slot'.1 = tp := by
    split at hslot'
    · exact nomatch hslot'
    · obtain ⟨t, -, rfl⟩ := Option.map_eq_some_iff.mp hslot'
      rfl
  obtain ⟨hs, hnumber, ht, hkey⟩ := mem_slotsOf.mp hin
  obtain ⟨hs', hnumber', ht', hkey'⟩ := mem_slotsOf.mp hin'
  have hfield : slot.2.field = slot'.2.field := congrArg Prod.snd (hkey.trans hkey'.symm)
  have hshare := signals_share hvalid hfm hs hs' (by rw [hplace, hplace']; exact hne)
    ((mem_boundTo_number hnumber).mpr ht) ((mem_boundTo_number hnumber').mpr ht')
  exact (hshare hfield).index

/-- There are no more slots than a bound of their indexes. -/
theorem length_slots_le (hvalid : spec.Valid) (hfm : fm ∈ spec.messages) {key : FieldKey} {n : ℕ}
    (h : ∀ slot ∈ slotsOf fm.2 key, slot.2.arrayIndex < n) : (slotsOf fm.2 key).length ≤ n := by
  have hnodup : ((slotsOf fm.2 key).map fun slot => slot.2.arrayIndex).Nodup :=
    List.pairwise_map.mpr (slotsOf_nodup hvalid hfm key)
  have hsub : ((slotsOf fm.2 key).map fun slot => slot.2.arrayIndex).toFinset ⊆ Finset.range n := by
    intro i hi
    obtain ⟨slot, hslot, rfl⟩ := List.mem_map.mp (List.mem_toFinset.mp hi)
    exact Finset.mem_range.mpr (h slot hslot)
  have hcard := Finset.card_le_card hsub
  rw [List.toFinset_card_of_nodup hnodup, List.length_map, Finset.card_range] at hcard
  exact hcard

end Stride

/-! ## The published bound -/

/-- **The published bound** of a field that one message binds: its slots, for every frame. -/
theorem published_count {spec : Spec} {fm : String × CanMessage} {key : FieldKey} (hkey : BoundBy spec fm key)
    (hslots : slotsOf fm.2 key ≠ []) {types : Dict FieldKey FieldType} (h : fieldTypes spec = some types) :
    ∃ type, Dict.get? types key = some type ∧
      type.count = some (effectiveQuantity fm.2 * (slotsOf fm.2 key).length) := by
  obtain ⟨l, hl, -⟩ := Option.map_eq_some_iff.mp h
  have hitems : ∃ g : TelemetryBinding → TypedField, (∀ b ∈ telemetryBindings spec, ∃ t, g b = .bound b t) ∧
      itemsOf key l = ((telemetryBindings spec).filter fun b => b.key = key).map g := by
    unfold typedFields at hl
    obtain ⟨bound, hbound, hl⟩ := Option.bind_eq_some_iff.mp hl
    obtain ⟨external, hexternal, rfl⟩ := Option.map_eq_some_iff.mp hl
    obtain ⟨g, rfl, hg⟩ := ListPass.exists_map_of_mapM hbound
    obtain ⟨g', rfl, hg'⟩ := ListPass.exists_map_of_mapM hexternal
    have htyped : ∀ b ∈ telemetryBindings spec, ∃ t, g b = .bound b t := fun b hb => by
      obtain ⟨t, -, ht⟩ := Option.map_eq_some_iff.mp (hg b hb)
      exact ⟨t, ht.symm⟩
    refine ⟨g, htyped, ?_⟩
    have hnone : ((externalFields spec).map g').filter (fun a => decide (a.key = key)) = [] := by
      refine List.filter_eq_nil_iff.mpr fun a ha => ?_
      obtain ⟨x, hx, rfl⟩ := List.mem_map.mp ha
      obtain ⟨t, -, ht⟩ := Option.map_eq_some_iff.mp (hg' x hx)
      rw [← ht]
      exact fun heq => hkey.external x hx (of_decide_eq_true heq)
    unfold itemsOf
    rw [List.filter_append, hnone, List.append_nil, List.filter_map]
    refine congrArg (List.map g) (List.filter_congr fun b hb => ?_)
    obtain ⟨t, ht⟩ := htyped b hb
    rw [Function.comp_apply, ht]
    rfl
  obtain ⟨g, hg, hitems⟩ := hitems
  have hslot : ∀ a ∈ itemsOf key l, a.slot = effectiveQuantity fm.2 ∧ a.counted = true := by
    intro a ha
    rw [hitems] at ha
    obtain ⟨b, hb, rfl⟩ := List.mem_map.mp ha
    obtain ⟨t, ht⟩ := hg b (List.mem_filter.mp hb).1
    rw [hkey.bindings] at hb
    obtain ⟨slot, hmem, rfl⟩ := List.mem_map.mp hb
    have hrep := hkey.repeated slot hmem
    rw [ht]
    exact ⟨if_pos hrep, hrep⟩
  have hlength : (itemsOf key l).length = (slotsOf fm.2 key).length := by
    rw [hitems, hkey.bindings, List.length_map, List.length_map]
  have hsum : ((itemsOf key l).map TypedField.slot).sum = effectiveQuantity fm.2 * (slotsOf fm.2 key).length := by
    rw [List.map_congr_left fun a ha => (hslot a ha).1, List.map_const', List.sum_replicate, hlength, smul_eq_mul, Nat.mul_comm]
  have hne : itemsOf key l ≠ [] := fun hnil => hslots (List.length_eq_zero_iff.mp (hlength ▸ hnil ▸ rfl))
  have hlast : (itemsOf key l).getLast? = some ((itemsOf key l).getLast hne) := List.getLast?_eq_getLast_of_ne_nil hne
  refine ⟨_, by rw [get?_fieldTypes hl h, hlast, Option.map_some], ?_⟩
  unfold TypedField.leaves
  rw [if_pos (hslot _ (List.getLast_mem hne)).2, hsum]

/-! ## The claim -/

section Land

variable {spec : Spec} {fm : String × CanMessage} {packets : List PacketJson} {packet : PacketJson} {key : FieldKey}
  {types : Dict FieldKey FieldType} {entry : Signal × ℕ → SignalJson}

/-- Where the elements are the documented ones, the field is dense. -/
theorem ArraysLand.dense (l : Loading spec fm.2 packets packet types entry) (hkey : BoundBy spec fm key)
    (hland : ArraysLand spec fm packets packet key) : Dense fm.2 key := by
  have hquantity := one_le_effectiveQuantity fm.2
  constructor
  · intro slot hslot hwritten
    obtain ⟨type, htype, hcount⟩ := published_count hkey (List.ne_nil_of_mem hslot) l.derived
    have hlast : effectiveQuantity fm.2 - 1 < effectiveQuantity fm.2 := by omega
    have hbound := hland.bound types type _ l.derived htype hcount _ hlast slot hslot hwritten
    rw [hland.index _ hlast slot hslot hwritten] at hbound
    have hsplit : effectiveQuantity fm.2 * (slotsOf fm.2 key).length =
        (effectiveQuantity fm.2 - 1) * (slotsOf fm.2 key).length + (slotsOf fm.2 key).length := by
      rw [← Nat.succ_mul, Nat.succ_eq_add_one, Nat.sub_add_cancel hquantity]
    omega
  · rintro hmany ⟨slot, hslot, hwritten⟩ s hs t ht hrep
    have hindex := hland.index 1 hmany slot hslot hwritten
    have hspan := lt_span l hs ht hrep
    unfold writtenIndex at hindex
    omega

/-- Where the field is dense, the element that is written is the documented one. -/
theorem Dense.index (h : Listed spec fm packets packet) (l : Loading spec fm.2 packets packet types entry)
    (hkey : BoundBy spec fm key) (hdense : Dense fm.2 key) {k : ℕ} (hk : k < effectiveQuantity fm.2)
    {slot : (Signal × ℕ) × Telemetry} (hslot : slot ∈ slotsOf fm.2 key) (hwritten : Written slot) :
    writtenIndex packet k slot.2 = k * (slotsOf fm.2 key).length + slot.2.arrayIndex := by
  unfold writtenIndex
  rcases Nat.eq_zero_or_pos k with rfl | hpos
  · rw [Nat.zero_mul, Nat.zero_mul, Nat.add_comm]
  · -- with more than one frame, the stride is the number of slots
    have hall := hdense.message (by omega) ⟨slot, hslot, hwritten⟩
    have hle := span_le l hall
    have hge : (slotsOf fm.2 key).length ≤ repeatedFieldSpan (PacketConfig.ofJson packet) :=
      length_slots_le h.valid h.message fun slot' hslot' => by
        obtain ⟨hsp, -, ht, -⟩ := mem_slotsOf.mp hslot'
        exact lt_span l (mem_places hsp) ht (hkey.repeated slot' hslot')
    rw [Nat.le_antisymm hle hge, Nat.add_comm]

/-- **Where the field is dense**, its elements are the documented ones. -/
theorem Dense.arraysLand (h : Listed spec fm packets packet) (l : Loading spec fm.2 packets packet types entry)
    (hquantity : packet.quantity = effectiveQuantity fm.2) (hpacket : packet ∈ packets) (hkey : BoundBy spec fm key)
    (hdense : Dense fm.2 key) : ArraysLand spec fm packets packet key := by
  have hindex : ∀ k < effectiveQuantity fm.2, ∀ slot ∈ slotsOf fm.2 key, Written slot →
      writtenIndex packet k slot.2 = k * (slotsOf fm.2 key).length + slot.2.arrayIndex :=
    fun k hk slot hslot hwritten => hdense.index h l hkey hk hslot hwritten
  have hbelow : ∀ k < effectiveQuantity fm.2, ∀ slot ∈ slotsOf fm.2 key, Written slot →
      writtenIndex packet k slot.2 < effectiveQuantity fm.2 * (slotsOf fm.2 key).length := by
    intro k hk slot hslot hwritten
    rw [hindex k hk slot hslot hwritten]
    exact Blocks.series_lt hk (hdense.slots slot hslot hwritten)
  refine ⟨hindex, ?_, ?_, ?_⟩
  · intro k hk k' hk' slot hslot slot' hslot' hwritten hwritten' heq
    rw [hindex k hk slot hslot hwritten, hindex k' hk' slot' hslot' hwritten'] at heq
    have hframes : k = k' :=
      Blocks.block_unique (hdense.slots slot hslot hwritten) (hdense.slots slot' hslot' hwritten') heq
    subst hframes
    refine ⟨rfl, ?_⟩
    by_contra hne
    have hsymm : Std.Symm fun a b : (Signal × ℕ) × Telemetry => a.2.arrayIndex ≠ b.2.arrayIndex := ⟨fun _ _ h => h.symm⟩
    exact (slotsOf_nodup h.valid h.message key).forall hslot hslot' hne (by omega)
  · intro types' type count htypes htype hcount k hk slot hslot hwritten
    obtain ⟨type', htype', hcount'⟩ := published_count hkey (List.ne_nil_of_mem hslot) htypes
    obtain rfl := Option.some.inj (htype.symm.trans htype')
    obtain rfl := Option.some.inj (hcount.symm.trans hcount')
    exact hbelow k hk slot hslot hwritten
  · intro path k hk slot hslot hwritten
    -- some slot has an index that is no less than all but one of their number
    obtain ⟨top, htop, hge⟩ : ∃ top ∈ slotsOf fm.2 key, (slotsOf fm.2 key).length ≤ top.2.arrayIndex + 1 := by
      by_contra hnone
      push Not at hnone
      have hpos : 0 < (slotsOf fm.2 key).length := List.length_pos_of_mem hslot
      have hle := length_slots_le h.valid h.message (n := (slotsOf fm.2 key).length - 1) fun slot' hslot' => by
        have := hnone slot' hslot'
        omega
      omega
    obtain ⟨hsp, -, ht, htopKey⟩ := mem_slotsOf.mp htop
    have hcell : (key.2, top.2.arrayIndex) ∈ cells (PacketConfig.ofJson packet) := by
      unfold cells
      rw [l.config_bytes, List.filterMap_map, List.mem_filterMap]
      refine ⟨top.1, hsp, ?_⟩
      rw [Function.comp_apply, config_protobuf (l.rendered top.1 hsp) ht, Option.bind_some]
      simp [hkey.repeated top htop, ← htopKey]
    refine exists_column (List.mem_map_of_mem hpacket) hcell ?_ path
    have hmax : max (PacketConfig.ofJson packet).quantity 1 = effectiveQuantity fm.2 := by
      show max packet.quantity 1 = _
      rw [hquantity]
      exact max_eq_left (one_le_effectiveQuantity fm.2)
    rw [hmax]
    exact lt_of_lt_of_le (hbelow k hk slot hslot hwritten) (Nat.mul_le_mul_left _ hge)

/-- **A dense field has no holes:** where every slot is written, the elements that the frames of the message write are all of
those below the published bound. -/
theorem Dense.covers (h : Listed spec fm packets packet) (l : Loading spec fm.2 packets packet types entry)
    (hkey : BoundBy spec fm key) (hdense : Dense fm.2 key) (hall : ∀ slot ∈ slotsOf fm.2 key, Written slot) (i : ℕ) :
    (∃ k < effectiveQuantity fm.2, ∃ slot ∈ slotsOf fm.2 key, writtenIndex packet k slot.2 = i) ↔
      i < effectiveQuantity fm.2 * (slotsOf fm.2 key).length := by
  have hnodup : ((slotsOf fm.2 key).map fun slot => slot.2.arrayIndex).Nodup :=
    List.pairwise_map.mpr (slotsOf_nodup h.valid h.message key)
  have hlt : ∀ a ∈ (slotsOf fm.2 key).map fun slot => slot.2.arrayIndex,
      a < ((slotsOf fm.2 key).map fun slot => slot.2.arrayIndex).length := by
    intro a ha
    obtain ⟨slot, hslot, rfl⟩ := List.mem_map.mp ha
    rw [List.length_map]
    exact hdense.slots slot hslot (hall slot hslot)
  have hfull := Blocks.mem_series_full (n := effectiveQuantity fm.2) hnodup hlt (i := i)
  rw [List.length_map, Blocks.mem_series] at hfull
  rw [← hfull]
  constructor
  · rintro ⟨k, hk, slot, hslot, rfl⟩
    exact ⟨k, hk, slot.2.arrayIndex, List.mem_map_of_mem hslot, hdense.index h l hkey hk hslot (hall slot hslot)⟩
  · rintro ⟨k, hk, a, ha, rfl⟩
    obtain ⟨slot, hslot, rfl⟩ := List.mem_map.mp ha
    exact ⟨k, hk, slot, hslot, hdense.index h l hkey hk hslot (hall slot hslot)⟩

/-- The packet of a message is in the table, under the message's id and with its quantity. -/
theorem Listed.in_table (h : Listed spec fm packets packet) :
    packet ∈ packets ∧ packet.packetId = fm.2.canId ∧ packet.quantity = effectiveQuantity fm.2 := by
  obtain ⟨types, render, htypes, rfl, hrender⟩ := renderJson_eq_some h.table
  have hpacket := h.packet
  unfold packetJson at hpacket
  rw [htypes, Option.bind_some, hrender fm h.message, Option.some.injEq] at hpacket
  have hrendered := renderMessage_eq_some (hrender fm h.message)
  rw [hpacket] at hrendered
  exact ⟨List.mem_map.mpr ⟨fm.2, mem_sortedMessages.mpr ⟨fm, h.message, rfl⟩, hpacket⟩, hrendered.packetId,
    hrendered.quantity⟩

/-- **The elements of an array** are the documented ones exactly where the field is dense. The gateway takes the frames of the
message for theirs, and writes the value of a slot to its element, whatever the snapshot held. -/
theorem arrays_land (h : Listed spec fm packets packet) (hkey : BoundBy spec fm key) :
    (∀ k < effectiveQuantity fm.2, fm.2.canId + k < 2 ^ 32 - 1 →
        claimed (fm.2.canId + k) (PacketConfig.ofJson packet) = some (PacketConfig.ofJson packet, k)) ∧
      (∀ slot ∈ slotsOf fm.2 key, Written slot → ∀ payload : List U8, fm.2.dlc ≤ payload.length →
        ∃ config ∈ (PacketConfig.ofJson packet).bytes, ∃ raw : ℤ, rawValue payload config = some (some raw) ∧
          ∀ (f32 : ℚ → ℚ) data k out,
            processRawData f32 (generateMapping packets) data payload (PacketConfig.ofJson packet) k = some out →
            out.element key.2 (writtenIndex packet k slot.2) = f32 (raw * config.precision)) ∧
      (ArraysLand spec fm packets packet key ↔ Dense fm.2 key) := by
  obtain ⟨types, entry, l⟩ := h.loading
  obtain ⟨hpacket, hid, hquantity⟩ := h.in_table
  refine ⟨fun k hk hsmall => ?_, fun slot hslot hwritten payload hlen => ?_, fun hland => hland.dense l hkey,
    fun hdense => hdense.arraysLand h l hquantity hpacket hkey⟩
  · have hone := one_le_effectiveQuantity fm.2
    unfold claimed
    show (if packet.packetId ≤ fm.2.canId + k ∧
        fm.2.canId + k < min (packet.packetId + max packet.quantity 1) (2 ^ 32 - 1) then
      some (PacketConfig.ofJson packet, fm.2.canId + k - packet.packetId) else none) = _
    rw [hid, hquantity, max_eq_left hone, if_pos ⟨Nat.le_add_right _ _, lt_min (by omega) hsmall⟩, Nat.add_sub_cancel_left]
  · obtain ⟨hsp, hnumber, ht, hslotKey⟩ := mem_slotsOf.mp hslot
    obtain ⟨raw, hraw, hrun⟩ := h.slot_written l hsp hlen hnumber hwritten ht (hkey.repeated slot hslot)
    refine ⟨configOf entry slot.1, ?_, raw, hraw, fun f32 data k out hout => ?_⟩
    · rw [l.config_bytes]
      exact List.mem_map_of_mem hsp
    · have hfield : key.2 = slot.2.field := congrArg Prod.snd hslotKey.symm
      rw [hfield]
      exact hrun f32 data k out hout

end Land

/-! ## Two arrays in one message -/

/-- A byte that is a slot of an array. -/
def slotSignal (name : String) (startBit : ℕ) (field : String) (id slot : ℕ) : Signal :=
  { numberSignal startBit 8 .unsigned 1 { floatField field id with repeated := true, arrayIndex := slot } with name := name }

/-- Two frames of two cells and one fan. -/
def cellsMessage : CanMessage where
  name := "HVC_CELLS"
  canId := 0x200
  fromBoard := "HVC"
  bus := "Critical"
  dlc := 8
  quantity := 2
  signal :=
    [slotSignal "cell_a" 0 "cell_temps" 1 0, slotSignal "cell_b" 8 "cell_temps" 1 1, slotSignal "fan" 16 "fan_speeds" 2 0]

def cellsSpec : Spec where
  files :=
    [("lib/spec/buses.textproto", { bus := [{ name := "Critical", bitrateBps := 1000000 }] }),
      ("lib/spec/groups.textproto", { group := [{ name := "Dynamics", nextFreeId := 3, snapshotId := 3 }] }),
      ("lib/spec/messages/hvc.textproto", { message := [cellsMessage] })]
  nodup := by simp

theorem cells_listed :
    Listed cellsSpec ("lib/spec/messages/hvc.textproto", cellsMessage) (tableOf cellsSpec) (packetOf cellsSpec cellsMessage) :=
  (deployed_of (by decide) (by simp [cellsSpec, Spec.messages, Spec.entries]) (by decide) (by decide)
    (by decide)).listed

theorem cells_boundBy :
    BoundBy cellsSpec ("lib/spec/messages/hvc.textproto", cellsMessage) ("Dynamics", "cell_temps") :=
  ⟨rfl, by decide, by decide⟩

theorem fans_boundBy :
    BoundBy cellsSpec ("lib/spec/messages/hvc.textproto", cellsMessage) ("Dynamics", "fan_speeds") :=
  ⟨rfl, by decide, by decide⟩

/-- The cells are where the documentation says. -/
theorem arrays_land_cells :
    ArraysLand cellsSpec ("lib/spec/messages/hvc.textproto", cellsMessage) (tableOf cellsSpec)
      (packetOf cellsSpec cellsMessage) ("Dynamics", "cell_temps") := by
  refine (arrays_land cells_listed cells_boundBy).2.2.mpr ⟨by decide, fun _ _ s hs t ht hrep => ?_⟩
  have hall : ∀ s ∈ cellsMessage.signal, ∀ t ∈ s.telemetry, t.repeated = true → t.arrayIndex < 2 := by decide
  exact hall s hs t ht hrep

/-- The fans are not: the second frame is written behind the cells' stride. -/
theorem not_arrays_land : ¬ ∀ spec fm packets packet key, Listed spec fm packets packet → BoundBy spec fm key →
    ArraysLand spec fm packets packet key := by
  intro hall
  obtain ⟨types, entry, l⟩ := cells_listed.loading
  have hdense := (hall _ _ _ _ _ cells_listed fans_boundBy).dense l fans_boundBy
  have hslot : ∃ slot ∈ slotsOf cellsMessage ("Dynamics", "fan_speeds"), Written slot := by decide
  have hless := hdense.message (by decide) hslot (slotSignal "cell_b" 8 "cell_temps" 1 1)
    (List.mem_cons_of_mem _ List.mem_cons_self) _ rfl rfl
  revert hless
  decide

end Lhre.Bevo
