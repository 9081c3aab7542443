import Lhre.Bevo.Gateway
import Lhre.CanSpec.Sharing
import Lhre.Codegen.DecodeTable
import Lhre.Codegen.Payload

/-!
# `Bevo.Loaded` — a message on both ends

A message of an accepted spec, the code the generator emitted for it, and the decode table the gateway runs on. Here is
what the configuration of a signal says of it, and what else in the message is written to the field of a signal.

## Contents
- **Messages.** `Listed`, `Deployed`, `SafeBits`.
- **Entries.** The configuration of a signal in terms of the signal.
- **Sharing.** `boundTo`, `signals_share`, `scalar_unshared`: a scalar is written by one signal of a message.
- **Dispatch.** `Loading.get?_scalarSignals`, `Loading.mem_repSignals`, `Loading.mem_boolSignals`.
- **Writing.** `isFlag`, `Loading.writeValue_scalar`, `Loading.writeValue_element`.
-/

namespace Lhre.Bevo

open CanSpec Codegen

/-! ## Messages -/

/-- The packet of a message. -/
def packetJson (spec : Spec) (m : CanMessage) : Option PacketJson :=
  (fieldTypes spec).bind fun types => renderMessage spec.registries types m

/-- **A message in the table**: its spec is accepted and the table is rendered. -/
structure Listed (spec : Spec) (fm : String × CanMessage) (packets : List PacketJson) (packet : PacketJson) : Prop where
  valid : spec.Valid
  message : fm ∈ spec.messages
  table : renderJson spec = some packets
  packet : packetJson spec fm.2 = some packet

/-- **A message on both ends**: its spec is accepted, the code is generated, and the table is rendered. -/
structure Deployed (spec : Spec) (fm : String × CanMessage) (c : Codec) (packets : List PacketJson)
    (packet : PacketJson) : Prop where
  valid : spec.Valid
  message : fm ∈ spec.messages
  codec : generate spec.registries fm.2 = some c
  table : renderJson spec = some packets
  packet : packetJson spec fm.2 = some packet

/-- No bit with an index of eight or more is bound to telemetry. -/
def SafeBits (reg : Registries) (m : CanMessage) : Prop := ∀ s ∈ m.signal, ∀ bit ∈ telemetryBits reg s, bit.2 < 8

instance (reg : Registries) (m : CanMessage) : Decidable (SafeBits reg m) :=
  inferInstanceAs (Decidable (∀ s ∈ m.signal, ∀ bit ∈ telemetryBits reg s, bit.2 < 8))

/-- What the gateway is loaded with for a message. -/
structure Loading (spec : Spec) (m : CanMessage) (packets : List PacketJson) (packet : PacketJson)
    (types : Dict FieldKey FieldType) (entry : Signal × ℕ → SignalJson) : Prop where
  derived : fieldTypes spec = some types
  bytes : packet.bytes = (places m).map entry
  rendered : ∀ sp ∈ places m, Rendered spec.registries types sp.1 (entry sp)
  known : ∀ sp ∈ places m, entry sp ∈ packets.flatMap PacketJson.bytes
  source : ∀ j ∈ packets.flatMap PacketJson.bytes, ∃ fm ∈ spec.messages, ∃ s ∈ fm.2.signal,
    Rendered spec.registries types s j

section Deployed

variable {spec : Spec} {fm : String × CanMessage} {c : Codec} {packets : List PacketJson} {packet : PacketJson}

theorem Deployed.listed (h : Deployed spec fm c packets packet) : Listed spec fm packets packet :=
  ⟨h.valid, h.message, h.table, h.packet⟩

theorem Listed.loading (h : Listed spec fm packets packet) :
    ∃ types entry, Loading spec fm.2 packets packet types entry := by
  obtain ⟨types, render, htypes, rfl, hrender⟩ := renderJson_eq_some h.table
  have hpacket := h.packet
  unfold packetJson at hpacket
  rw [htypes, Option.bind_some, hrender fm h.message, Option.some.injEq] at hpacket
  have hin : packet ∈ (sortedMessages spec).map render :=
    List.mem_map.mpr ⟨fm.2, mem_sortedMessages.mpr ⟨fm, h.message, rfl⟩, hpacket⟩
  obtain ⟨entry, hbytes, hentry⟩ := (renderMessage_eq_some (hrender fm h.message)).bytes
  rw [hpacket] at hbytes
  refine ⟨types, entry, htypes, hbytes, hentry, ?_, ?_⟩
  · intro sp hsp
    refine List.mem_flatMap.mpr ⟨packet, hin, ?_⟩
    rw [hbytes]
    exact List.mem_map.mpr ⟨sp, hsp, rfl⟩
  · intro j hj
    obtain ⟨p, hp, hjp⟩ := List.mem_flatMap.mp hj
    obtain ⟨m, hm, rfl⟩ := List.mem_map.mp hp
    obtain ⟨fm', hfm', rfl⟩ := mem_sortedMessages.mp hm
    obtain ⟨entry', hbytes', hentry'⟩ := (renderMessage_eq_some (hrender fm' hfm')).bytes
    rw [hbytes'] at hjp
    obtain ⟨sp, hsp, rfl⟩ := List.mem_map.mp hjp
    exact ⟨fm', hfm', sp.1, mem_places hsp, hentry' sp hsp⟩

theorem Deployed.loading (h : Deployed spec fm c packets packet) :
    ∃ types entry, Loading spec fm.2 packets packet types entry :=
  h.listed.loading

/-- The configuration of a signal. -/
abbrev configOf (entry : Signal × ℕ → SignalJson) (sp : Signal × ℕ) : SignalConfig := SignalConfig.ofJson (entry sp)

theorem Loading.config_bytes {types : Dict FieldKey FieldType} {entry : Signal × ℕ → SignalJson}
    (l : Loading spec fm.2 packets packet types entry) :
    (PacketConfig.ofJson packet).bytes = (places fm.2).map (configOf entry) := by
  show packet.bytes.map SignalConfig.ofJson = _
  rw [l.bytes, List.map_map]
  rfl

/-- A run is a run over the signals of the message. -/
theorem Loading.run_eq {types : Dict FieldKey FieldType} {entry : Signal × ℕ → SignalJson}
    (l : Loading spec fm.2 packets packet types entry) (f32 : ℚ → ℚ) (mp : Mapping) (data : Snapshot) (payload : List U8)
    (k : ℕ) :
    processRawData f32 mp data payload (PacketConfig.ofJson packet) k =
      (places fm.2).foldlM (fun d sp =>
        processSignal f32 mp payload (repeatedFieldSpan (PacketConfig.ofJson packet)) k d (configOf entry sp)) data := by
  unfold processRawData
  rw [l.config_bytes, List.foldlM_map]

/-! ## Entries -/

section Entry

variable {types : Dict FieldKey FieldType} {s : Signal} {j : SignalJson}

/-- A bitfield is converted as one. -/
theorem bitfield_conv (r : Rendered spec.registries types s j) {name : String} (hname : s.bitfieldType = some name) :
    (SignalConfig.ofJson j).convType = "bitfield" :=
  Option.some.inj (r.conversion.symm.trans (signalConvType_bitfield hname))

/-- A number is not. -/
theorem number_conv (r : Rendered spec.registries types s j) (hnumber : s.bitfieldType = none) :
    (SignalConfig.ofJson j).convType ≠ "bitfield" := by
  obtain ⟨width, hwidth⟩ := signalConvType_number r.conversion hnumber
  exact hwidth.ne_bitfield

/-- The binding of an entry is that of its signal. -/
theorem entry_protobuf (r : Rendered spec.registries types s j) :
    (s.telemetry = none ∧ j.protobuf = none) ∨
      ∃ t fieldType, s.telemetry = some t ∧ Dict.get? types (t.group, t.field) = some fieldType ∧
        j.protobuf = some
          { type := removePrefix "repeated " fieldType.ptype
            field := t.field
            protoId := t.id
            repeated := t.repeated
            fieldIndex := if t.repeated then some t.arrayIndex else none } := by
  have hprotobuf := r.protobuf
  unfold signalProtobuf at hprotobuf
  cases ht : s.telemetry with
  | none =>
      rw [ht] at hprotobuf
      left
      exact ⟨rfl, (Option.some.inj hprotobuf).symm⟩
  | some t =>
      rw [ht] at hprotobuf
      obtain ⟨pb, hpb, hj⟩ := Option.map_eq_some_iff.mp hprotobuf
      unfold renderProtobuf at hpb
      obtain ⟨fieldType, hfieldType, rfl⟩ := Option.map_eq_some_iff.mp hpb
      right
      exact ⟨t, fieldType, rfl, hfieldType, hj.symm⟩

/-- The bits of an entry are the bound bits of its signal. -/
theorem entry_bits (r : Rendered spec.registries types s j) {name : String} (hname : s.bitfieldType = some name) :
    (SignalConfig.ofJson j).bitfieldEncoding.getD [] =
      (telemetryBits spec.registries s).map fun bit => ⟨bit.1.field, bit.2⟩ := by
  show (j.bitfieldEncoding.map _).getD [] = _
  rw [r.bits name hname, Option.map_some, Option.getD_some, List.map_map]
  rfl

end Entry

/-! ## Sharing -/

/-- The scalars a signal of a message is written to. -/
def signalScalars (reg : Registries) (s : Signal) : List String :=
  match s.bitfieldType with
  | some _ => (telemetryBits reg s).map fun bit => bit.1.field
  | none => match s.telemetry with
    | some t => if t.repeated then [] else [t.field]
    | none => []

/-- The array elements a signal of a message is written to. -/
def signalElements (s : Signal) (offset : ℕ) : List (String × ℕ) :=
  match s.bitfieldType with
  | some _ => []
  | none => match s.telemetry with
    | some t => if t.repeated then [(t.field, t.arrayIndex + offset)] else []
    | none => []

/-- The binding of a number, as the gateway has it. -/
theorem config_protobuf {types : Dict FieldKey FieldType} {s : Signal} {j : SignalJson}
    (r : Rendered spec.registries types s j) {t : Telemetry} (ht : s.telemetry = some t) :
    (SignalConfig.ofJson j).protobuf = some ⟨t.field, t.repeated, if t.repeated then some t.arrayIndex else none⟩ := by
  show j.protobuf.map _ = _
  rcases entry_protobuf r with ⟨hnone, -⟩ | ⟨t₁, fieldType, ht₁, -, hpb⟩
  · rw [hnone] at ht
    exact absurd ht (by simp)
  · obtain rfl : t = t₁ := Option.some.inj (ht.symm.trans ht₁)
    rw [hpb, Option.map_some]

theorem config_protobuf_none {types : Dict FieldKey FieldType} {s : Signal} {j : SignalJson}
    (r : Rendered spec.registries types s j) (ht : s.telemetry = none) : (SignalConfig.ofJson j).protobuf = none := by
  show j.protobuf.map _ = none
  rcases entry_protobuf r with ⟨-, hpb⟩ | ⟨t₁, fieldType, ht₁, -, -⟩
  · rw [hpb, Option.map_none]
  · rw [ht] at ht₁
    exact absurd ht₁ (by simp)

theorem elements_eq {types : Dict FieldKey FieldType} {s : Signal} {j : SignalJson}
    (r : Rendered spec.registries types s j) (offset : ℕ) :
    (SignalConfig.ofJson j).elements offset = signalElements s offset := by
  unfold SignalConfig.elements signalElements
  cases hname : s.bitfieldType with
  | some name => rw [if_pos (bitfield_conv r hname)]
  | none =>
      rw [if_neg (number_conv r hname)]
      cases ht : s.telemetry with
      | none => rw [config_protobuf_none r ht]
      | some t =>
          rw [config_protobuf r ht]
          by_cases hrep : t.repeated = true
          · simp [hrep]
          · simp [hrep]

theorem scalars_eq {types : Dict FieldKey FieldType} {s : Signal} {j : SignalJson}
    (r : Rendered spec.registries types s j) :
    (SignalConfig.ofJson j).scalars = signalScalars spec.registries s := by
  unfold SignalConfig.scalars signalScalars
  cases hname : s.bitfieldType with
  | some name =>
      rw [if_pos (bitfield_conv r hname), entry_bits r hname, List.map_map]
      rfl
  | none =>
      rw [if_neg (number_conv r hname)]
      cases ht : s.telemetry with
      | none => rw [config_protobuf_none r ht]
      | some t => rw [config_protobuf r ht]

/-- A bound bit is a bit of a type of the spec. -/
theorem mem_telemetryBits {s : Signal} {bit : Telemetry × ℕ} (h : bit ∈ telemetryBits spec.registries s) :
    ∃ name fb, s.bitfieldType = some name ∧ fb ∈ spec.bitfieldTypes ∧ fb.2.name = name ∧
      ∃ b, (b, bit.2) ∈ fb.2.bit.zipIdx ∧ b.telemetry = some bit.1 := by
  unfold telemetryBits at h
  cases hname : s.bitfieldType with
  | none =>
      rw [hname] at h
      exact absurd h List.not_mem_nil
  | some name =>
      simp only [hname] at h
      cases hget : Dict.get? spec.registries.bitfields name with
      | none =>
          rw [hget] at h
          exact absurd h (by simp)
      | some type =>
          rw [hget] at h
          obtain ⟨⟨file, hfile⟩, htype⟩ := of_get?_bitfields hget
          obtain ⟨⟨b, i⟩, hb, heq⟩ := List.mem_filterMap.mp h
          obtain ⟨t, ht, rfl⟩ := Option.map_eq_some_iff.mp heq
          exact ⟨name, (file, type), rfl, hfile, htype, b, hb, ht⟩

/-- A bit of a signal is known by its index. -/
theorem telemetryBits_inj {reg : Registries} {s : Signal} {bit bit' : Telemetry × ℕ} (h : bit ∈ telemetryBits reg s)
    (h' : bit' ∈ telemetryBits reg s) (hindex : bit.2 = bit'.2) : bit = bit' := by
  unfold telemetryBits at h h'
  cases hname : s.bitfieldType with
  | none =>
      rw [hname] at h
      exact absurd h List.not_mem_nil
  | some name =>
      simp only [hname] at h h'
      obtain ⟨⟨b, i⟩, hb, heq⟩ := List.mem_filterMap.mp h
      obtain ⟨⟨b', i'⟩, hb', heq'⟩ := List.mem_filterMap.mp h'
      obtain ⟨t, ht, rfl⟩ := Option.map_eq_some_iff.mp heq
      obtain ⟨t', ht', rfl⟩ := Option.map_eq_some_iff.mp heq'
      obtain rfl : i = i' := hindex
      rw [List.mem_zipIdx_iff_getElem?] at hb hb'
      obtain rfl : b = b' := Option.some.inj (hb.symm.trans hb')
      rw [Option.some.inj (ht.symm.trans ht')]

/-- What a signal binds, itself or by its bits. -/
def boundTo (reg : Registries) (s : Signal) : List Telemetry :=
  match s.bitfieldType with
  | some _ => (telemetryBits reg s).map Prod.fst
  | none => s.telemetry.toList

theorem mem_boundTo_number {reg : Registries} {s : Signal} (hnumber : s.bitfieldType = none) {t : Telemetry} :
    t ∈ boundTo reg s ↔ s.telemetry = some t := by
  unfold boundTo
  rw [hnumber]
  exact Option.mem_toList

theorem mem_boundTo_bitfield {reg : Registries} {s : Signal} {name : String} (hname : s.bitfieldType = some name)
    {t : Telemetry} : t ∈ boundTo reg s ↔ ∃ i, (t, i) ∈ telemetryBits reg s := by
  unfold boundTo
  simp [hname]

/-- A signal is written to fields it binds. -/
theorem exists_boundTo {reg : Registries} {s : Signal} {f : String} (h : f ∈ signalScalars reg s) :
    ∃ t ∈ boundTo reg s, t.field = f := by
  unfold signalScalars at h
  cases hname : s.bitfieldType with
  | some name =>
      simp only [hname] at h
      obtain ⟨bit, hbit, rfl⟩ := List.mem_map.mp h
      exact ⟨bit.1, (mem_boundTo_bitfield hname).mpr ⟨bit.2, hbit⟩, rfl⟩
  | none =>
      simp only [hname] at h
      cases ht : s.telemetry with
      | none =>
          rw [ht] at h
          exact absurd h List.not_mem_nil
      | some t =>
          by_cases hrep : t.repeated = true
          · simp [ht, hrep] at h
          · simp only [ht, hrep, Bool.false_eq_true, if_false, List.mem_singleton] at h
            exact ⟨t, (mem_boundTo_number hname).mpr ht, h.symm⟩

/-- A signal is written to an element it binds. -/
theorem mem_signalElements {reg : Registries} {s : Signal} {e : String × ℕ} {offset : ℕ} (h : e ∈ signalElements s offset) :
    s.bitfieldType = none ∧ ∃ t ∈ boundTo reg s, t.repeated = true ∧ e = (t.field, t.arrayIndex + offset) := by
  unfold signalElements at h
  cases hname : s.bitfieldType with
  | some name =>
      rw [hname] at h
      exact absurd h List.not_mem_nil
  | none =>
      simp only [hname] at h
      cases ht : s.telemetry with
      | none =>
          rw [ht] at h
          exact absurd h List.not_mem_nil
      | some t =>
          by_cases hrep : t.repeated = true
          · simp only [ht, hrep, if_true, List.mem_singleton] at h
            exact ⟨rfl, t, (mem_boundTo_number hname).mpr ht, hrep, h⟩
          · simp [ht, hrep] at h

/-- The binding of a bound bit. -/
theorem exists_bitBinding {s : Signal} {bit : Telemetry × ℕ} (h : bit ∈ telemetryBits spec.registries s) :
    ∃ b ∈ bitBindings spec, b.telemetry = bit.1 := by
  obtain ⟨-, fb, -, hfb, -, b, hb, ht⟩ := mem_telemetryBits h
  exact ⟨bitBinding spec fb b bit.1, bitBinding_mem hfb (List.fst_mem_of_mem_zipIdx hb) ht, rfl⟩

/-- **Two bits of one signal** that bind one field are slots of it. -/
theorem bits_share (hvalid : spec.Valid) {s : Signal} {bit bit' : Telemetry × ℕ}
    (hbit : bit ∈ telemetryBits spec.registries s) (hbit' : bit' ∈ telemetryBits spec.registries s)
    (hne : bit.2 ≠ bit'.2) : SharesSlots bit.1 bit'.1 := by
  obtain ⟨name, fb, hname, hfb, hfbname, b, hb, ht⟩ := mem_telemetryBits hbit
  obtain ⟨name', fb', hname', hfb', hfbname', b', hb', ht'⟩ := mem_telemetryBits hbit'
  have hsame : fb = fb' := by
    rw [hname, Option.some.injEq] at hname'
    exact List.inj_on_of_nodup_map hvalid.registries.bitfieldTypes hfb hfb' (by rw [hfbname, hfbname', hname'])
  subst hsame
  have hpair := ListPass.forall_zipIdx (fun _ _ hab t t' ht ht' => (hab t' t ht' ht).symm)
    (hvalid.recorded.bits_slots hfb) hb hb' hne
  exact hpair _ _ ht ht'

/-- **Two signals of one message** share slots of an array alone. -/
theorem signals_share (hvalid : spec.Valid) (hfm : fm ∈ spec.messages) {sp tp : Signal × ℕ} (hsp : sp ∈ places fm.2)
    (htp : tp ∈ places fm.2) (hne : sp.2 ≠ tp.2) {t t' : Telemetry} (ht : t ∈ boundTo spec.registries sp.1)
    (ht' : t' ∈ boundTo spec.registries tp.1) : SharesSlots t t' := by
  have hrecorded := hvalid.recorded
  cases hname : sp.1.bitfieldType with
  | none =>
      have hs := (mem_boundTo_number hname).mp ht
      have hsmem := signalBinding_mem hfm (mem_places hsp) hname hs
      cases hname' : tp.1.bitfieldType with
      | none =>
          have hs' := (mem_boundTo_number hname').mp ht'
          have hpair := ListPass.forall_zipIdx (fun _ _ hab t t' hs ht hs' ht' => (hab t' t hs' ht' hs ht).symm)
            (hrecorded.signals_slots hfm) hsp htp hne
          exact hpair t t' hname hs hname' hs'
      | some name' =>
          obtain ⟨i', hbit'⟩ := (mem_boundTo_bitfield hname').mp ht'
          obtain ⟨b', hb', rfl⟩ := exists_bitBinding hbit'
          exact hrecorded.signal_bit_slots hsmem hb'
  | some name =>
      obtain ⟨i, hbit⟩ := (mem_boundTo_bitfield hname).mp ht
      cases hname' : tp.1.bitfieldType with
      | none =>
          have hs' := (mem_boundTo_number hname').mp ht'
          have hsmem' := signalBinding_mem hfm (mem_places htp) hname' hs'
          obtain ⟨b, hb, rfl⟩ := exists_bitBinding hbit
          exact (hrecorded.signal_bit_slots hsmem' hb).symm
      | some name' =>
          obtain ⟨i', hbit'⟩ := (mem_boundTo_bitfield hname').mp ht'
          obtain ⟨n, fb, hn, hfb, hfbname, b, hb, hbt⟩ := mem_telemetryBits hbit
          obtain ⟨n', fb', hn', hfb', hfbname', b', hb', hbt'⟩ := mem_telemetryBits hbit'
          have hb := List.fst_mem_of_mem_zipIdx hb
          have hb' := List.fst_mem_of_mem_zipIdx hb'
          refine hrecorded.types_slots hfb hfb' ?_ hb hb' hbt hbt'
          -- a type with bound bits has one user
          rintro rfl
          have huses := ListPass.forall_zipIdx (fun _ _ hab name h h' => hab name h' h) (hvalid.message_uses hfm)
            hsp htp hne
          refine huses fb.2.name (hfbname ▸ hn) (hfbname' ▸ hn') ?_
          exact mem_telemetryBitfields hfb hb (by rw [hbt]; rfl)

/-- **A scalar is written by one signal of a message.** -/
theorem scalar_unshared (hvalid : spec.Valid) (hfm : fm ∈ spec.messages) {sp tp : Signal × ℕ} (hsp : sp ∈ places fm.2)
    (htp : tp ∈ places fm.2) (hne : tp.2 ≠ sp.2) {t : Telemetry} (ht : t ∈ boundTo spec.registries sp.1)
    (hscalar : t.repeated = false) : t.field ∉ signalScalars spec.registries tp.1 := by
  intro hmem
  obtain ⟨t', ht', hfield⟩ := exists_boundTo hmem
  have hslots := signals_share hvalid hfm htp hsp hne ht' ht hfield
  rw [hslots.right] at hscalar
  exact absurd hscalar (by simp)

/-- **An element is written by one signal of a message.** -/
theorem element_unshared (hvalid : spec.Valid) (hfm : fm ∈ spec.messages) {sp tp : Signal × ℕ} (hsp : sp ∈ places fm.2)
    (htp : tp ∈ places fm.2) (hne : tp.2 ≠ sp.2) {t : Telemetry} (ht : t ∈ boundTo spec.registries sp.1) (offset : ℕ) :
    (t.field, t.arrayIndex + offset) ∉ signalElements tp.1 offset := by
  intro hmem
  obtain ⟨-, t', ht', -, heq⟩ := mem_signalElements hmem
  rw [Prod.mk.injEq] at heq
  have hslots := signals_share hvalid hfm hsp htp (Ne.symm hne) ht ht' heq.1
  exact hslots.index (by omega)

/-! ## Dispatch -/

/-- The bindings of a field by signals are in one group, and all of them are slots or none is. -/
theorem signal_field_agrees (hvalid : spec.Valid) {fm' : String × CanMessage} (hfm : fm ∈ spec.messages)
    (hfm' : fm' ∈ spec.messages) {s s' : Signal} (hs : s ∈ fm.2.signal) (hs' : s' ∈ fm'.2.signal)
    (hnumber : s.bitfieldType = none) (hnumber' : s'.bitfieldType = none) {t t' : Telemetry}
    (ht : s.telemetry = some t) (ht' : s'.telemetry = some t') (hfield : t.field = t'.field) :
    t.group = t'.group ∧ t.repeated = t'.repeated := by
  have hb := record_mem (mem_telemetryBindings.mpr (Or.inl (signalBinding_mem hfm hs hnumber ht)))
  have hb' := record_mem (mem_telemetryBindings.mpr (Or.inl (signalBinding_mem hfm' hs' hnumber' ht')))
  exact hvalid.recorded.field_agrees hb hb' hfield

variable {types : Dict FieldKey FieldType} {entry : Signal × ℕ → SignalJson} {sp : Signal × ℕ} {t : Telemetry}

/-- **The dispatch has the type of every scalar** as the table has it. -/
theorem Loading.get?_scalarSignals (l : Loading spec fm.2 packets packet types entry) (hvalid : spec.Valid)
    (hfm : fm ∈ spec.messages) (hsp : sp ∈ places fm.2) (hnumber : sp.1.bitfieldType = none)
    (ht : sp.1.telemetry = some t) (hscalar : t.repeated = false) {fieldType : FieldType}
    (htype : Dict.get? types (t.group, t.field) = some fieldType) :
    Dict.get? (generateMapping packets).scalarSignals t.field =
      some (lower (removePrefix "repeated " fieldType.ptype)) := by
  have hlearnt := learnt_generateMapping packets
  have r := l.rendered sp hsp
  rcases entry_protobuf r with ⟨hnone, -⟩ | ⟨t₁, ft₁, ht₁, hft₁, hpb⟩
  · rw [hnone] at ht
    exact absurd ht (by simp)
  · obtain rfl : t = t₁ := Option.some.inj (ht.symm.trans ht₁)
    obtain ⟨type, hget⟩ := hlearnt.scalar_known _ (l.known sp hsp) _ ⟨number_conv r hnumber, hpb, hscalar⟩
    obtain ⟨j, hj, pb, ⟨hconv, hjpb, -⟩, hname, htext⟩ := hlearnt.scalar _ _ hget
    obtain ⟨fm', hfm', s', hs', r'⟩ := l.source j hj
    have hnumber' : s'.bitfieldType = none := by
      cases hs'' : s'.bitfieldType with
      | none => rfl
      | some name => exact absurd (bitfield_conv r' hs'') hconv
    rcases entry_protobuf r' with ⟨-, hnone⟩ | ⟨t', ft', ht', hft', hpb'⟩
    · rw [hnone] at hjpb
      exact absurd hjpb (by simp)
    · obtain rfl := Option.some.inj (hpb'.symm.trans hjpb)
      have hfield : t'.field = t.field := hname
      have hgroup := (signal_field_agrees hvalid hfm' hfm hs' (mem_places hsp) hnumber' hnumber ht' ht hfield).1
      rw [hgroup, hfield, htype, Option.some.injEq] at hft'
      subst hft'
      rw [hget, ← htext]

theorem Loading.mem_repSignals (l : Loading spec fm.2 packets packet types entry) (hsp : sp ∈ places fm.2)
    (hnumber : sp.1.bitfieldType = none) (ht : sp.1.telemetry = some t) (hrepeated : t.repeated = true) :
    t.field ∈ (generateMapping packets).repSignals := by
  have r := l.rendered sp hsp
  rcases entry_protobuf r with ⟨hnone, -⟩ | ⟨t₁, ft₁, ht₁, -, hpb⟩
  · rw [hnone] at ht
    exact absurd ht (by simp)
  · obtain rfl : t = t₁ := Option.some.inj (ht.symm.trans ht₁)
    exact (learnt_generateMapping packets).repeated _ (l.known sp hsp) _ (number_conv r hnumber) hpb hrepeated

theorem Loading.mem_boolSignals (l : Loading spec fm.2 packets packet types entry) (hsp : sp ∈ places fm.2)
    {bit : Telemetry × ℕ} (hbit : bit ∈ telemetryBits spec.registries sp.1) :
    bit.1.field ∈ (generateMapping packets).boolSignals := by
  have r := l.rendered sp hsp
  obtain ⟨name, -, hname, -⟩ := mem_telemetryBits hbit
  refine (learnt_generateMapping packets).bits _ (l.known sp hsp) (bitfield_conv r hname) ⟨bit.1.field, bit.2, bit.1.id⟩ ?_
  rw [r.bits name hname]
  exact List.mem_map.mpr ⟨bit, hbit, rfl⟩

/-! ## Writing -/

/-- The field a signal is bound to is a bool. -/
def isFlag (spec : Spec) (t : Telemetry) : Bool :=
  ((fieldTypes spec).bind fun types => Dict.get? types (t.group, t.field)).any fun fieldType =>
    lower (removePrefix "repeated " fieldType.ptype) = "bool"

/-- **A scalar is written to its field**, as what the field is. -/
theorem Loading.writeValue_scalar (l : Loading spec fm.2 packets packet types entry) (hvalid : spec.Valid)
    (hfm : fm ∈ spec.messages) (hsp : sp ∈ places fm.2) (hnumber : sp.1.bitfieldType = none)
    (ht : sp.1.telemetry = some t) (hscalar : t.repeated = false) (span k : ℕ) (val : ℚ) (data : Snapshot) :
    (writeValue (generateMapping packets) span k (configOf entry sp) val data).scalar t.field =
      if isFlag spec t then .flag (val ≠ 0) else .number val := by
  have r := l.rendered sp hsp
  rcases entry_protobuf r with ⟨hnone, -⟩ | ⟨t₁, fieldType, ht₁, hfieldType, -⟩
  · rw [hnone] at ht
    exact absurd ht (by simp)
  · obtain rfl : t = t₁ := Option.some.inj (ht.symm.trans ht₁)
    have hget := l.get?_scalarSignals hvalid hfm hsp hnumber ht hscalar hfieldType
    have hisFlag : isFlag spec t = decide (lower (removePrefix "repeated " fieldType.ptype) = "bool") := by
      unfold isFlag
      rw [l.derived, Option.bind_some, hfieldType]
      rfl
    unfold writeValue
    simp only [config_protobuf r ht, hscalar, Bool.false_eq_true, if_false]
    unfold updateProtoField
    simp only [Bool.false_eq_true, if_false, hget, Function.update_self, hisFlag, decide_eq_true_eq]

/-- **A slot is written to its element.** -/
theorem Loading.writeValue_element (l : Loading spec fm.2 packets packet types entry) (hsp : sp ∈ places fm.2)
    (hnumber : sp.1.bitfieldType = none) (ht : sp.1.telemetry = some t) (hrepeated : t.repeated = true) (span k : ℕ)
    (val : ℚ) (data : Snapshot) :
    (writeValue (generateMapping packets) span k (configOf entry sp) val data).element t.field (t.arrayIndex + k * span) =
      val := by
  have hin := l.mem_repSignals hsp hnumber ht hrepeated
  unfold writeValue
  simp only [config_protobuf (l.rendered sp hsp) ht, hrepeated, if_true]
  unfold updateProtoField Snapshot.element
  simp only [if_true, hin, Function.update_self, getD_setVecIndex]

end Deployed

end Lhre.Bevo
