import Lhre.Bevo.Bytes

/-!
# `Bevo.Writes` — what a run writes

A run over a payload that is long enough writes every bound signal of the message, but for the numbers of 64 bits, and no
two signals are written to one place. So what is in a place after a run is what its signal put there.

## Contents
- **Places.** `Untouched`, `Unheard`.
- **Frames.** `Listed.others_keep`, `Listed.others_keep_element`: the other signals of a message.
- **Writes.** `Listed.bit_written`, `Listed.number_written`, `Listed.scalar_written`, `Listed.slot_written`.
- **Changes.** `Listed.written` and `Listed.unheard_untouched`: which signals change a snapshot.
-/

namespace Lhre.Bevo

open CanSpec Codegen

/-! ## Places -/

/-- What a signal is written to holds what it held: its field, the fields of its bits, or its element. -/
def Untouched (reg : Registries) (s : Signal) (offset : ℕ) (data out : Snapshot) : Prop :=
  (∀ f ∈ signalScalars reg s, out.scalar f = data.scalar f) ∧
    ∀ e ∈ signalElements s offset, out.element e.1 e.2 = data.element e.1 e.2

/-- The gateway never writes a signal: it binds nothing, or it is a number of 64 bits. -/
def Unheard (reg : Registries) (s : Signal) : Prop :=
  boundTo reg s = [] ∨ s.bitfieldType = none ∧ s.enc.bitLength = 64

variable {spec : Spec} {fm : String × CanMessage} {packets : List PacketJson} {packet : PacketJson}
  {types : Dict FieldKey FieldType} {entry : Signal × ℕ → SignalJson} {f32 : ℚ → ℚ} {sp : Signal × ℕ} {t : Telemetry}

/-! ## Frames -/

/-- The other signals of the message leave a scalar alone. -/
theorem Listed.others_keep (h : Listed spec fm packets packet) (l : Loading spec fm.2 packets packet types entry)
    (hsp : sp ∈ places fm.2) (ht : t ∈ boundTo spec.registries sp.1) (hscalar : t.repeated = false) (f32 : ℚ → ℚ)
    (mp : Mapping) (payload : List U8) (span k : ℕ) :
    ∀ tp ∈ places fm.2, tp ≠ sp → ∀ data data',
      processSignal f32 mp payload span k data (configOf entry tp) = some data' →
      data'.scalar t.field = data.scalar t.field := by
  intro tp htp hne data data' hstep
  apply processSignal_scalar hstep
  rw [scalars_eq (l.rendered tp htp)]
  exact scalar_unshared h.valid h.message hsp htp (fun heq => hne (eq_of_place_eq htp hsp heq)) ht hscalar

/-- The other signals of the message leave an element alone. -/
theorem Listed.others_keep_element (h : Listed spec fm packets packet)
    (l : Loading spec fm.2 packets packet types entry) (hsp : sp ∈ places fm.2) (ht : t ∈ boundTo spec.registries sp.1)
    (f32 : ℚ → ℚ) (mp : Mapping) (payload : List U8) (span k : ℕ) :
    ∀ tp ∈ places fm.2, tp ≠ sp → ∀ data data',
      processSignal f32 mp payload span k data (configOf entry tp) = some data' →
      data'.element t.field (t.arrayIndex + k * span) = data.element t.field (t.arrayIndex + k * span) := by
  intro tp htp hne data data' hstep
  apply processSignal_element hstep
  rw [elements_eq (l.rendered tp htp)]
  exact element_unshared h.valid h.message hsp htp (fun heq => hne (eq_of_place_eq htp hsp heq)) ht (k * span)

/-! ## Writes -/

/-- Writing a bit leaves a flag a flag. -/
theorem updateProtoBool_flag {mp : Mapping} {f : String} {data : Snapshot} (hflag : ∃ b, data.scalar f = .flag b)
    (name : String) (isSet : Bool) : ∃ b, (updateProtoBool mp data name isSet).scalar f = .flag b := by
  by_cases hf : f = name
  · subst hf
    unfold updateProtoBool
    split
    · exact ⟨isSet, Function.update_self _ _ _⟩
    · exact hflag
  · rw [updateProtoBool_scalar_of_ne hf]
    exact hflag

/-- The other signals of the message leave the flag of a bit a flag. -/
theorem Listed.flag_kept (h : Listed spec fm packets packet) (l : Loading spec fm.2 packets packet types entry)
    (hsp : sp ∈ places fm.2) (ht : t ∈ boundTo spec.registries sp.1) (hbitfield : sp.1.bitfieldType.isSome)
    {tp : Signal × ℕ} (htp : tp ∈ places fm.2) {mp : Mapping} {payload : List U8} {span k : ℕ} {data data' : Snapshot}
    (hflag : ∃ b, data.scalar t.field = .flag b)
    (hpass : processSignal f32 mp payload span k data (configOf entry tp) = some data') :
    ∃ b, data'.scalar t.field = .flag b := by
  have r := l.rendered tp htp
  cases hname : tp.1.bitfieldType with
  | some name =>
      unfold processSignal at hpass
      split at hpass
      · rw [← Option.some.inj hpass]
        exact hflag
      · rw [if_pos (bitfield_conv r hname)] at hpass
        refine ListPass.foldlM_invariant (P := fun d => ∃ b, d.scalar t.field = .flag b) ?_ hflag hpass
        intro d bit d' _ hd hstep
        obtain ⟨isSet, -, rfl⟩ := Option.map_eq_some_iff.mp hstep
        exact updateProtoBool_flag hd _ _
  | none =>
      -- a number that shares the field is a slot of an array
      rw [processSignal_scalar hpass]
      · exact hflag
      · rw [scalars_eq r]
        intro hmem
        have hne : tp.2 ≠ sp.2 := by
          intro hplace
          rw [eq_of_place_eq htp hsp hplace] at hname
          simp [hname] at hbitfield
        obtain ⟨t', ht', hfield⟩ := exists_boundTo hmem
        have hslots := signals_share h.valid h.message htp hsp hne ht' ht hfield
        have htele := (mem_boundTo_number hname).mp ht'
        unfold signalScalars at hmem
        simp [hname, htele, hslots.left] at hmem

section Runs

variable (h : Listed spec fm packets packet) (l : Loading spec fm.2 packets packet types entry) (hsp : sp ∈ places fm.2)
  {payload : List U8} (hlen : fm.2.dlc ≤ payload.length)

include h l hsp hlen

/-- **The field of a bound bit is a flag** after any run. -/
theorem Listed.bit_written {bit : Telemetry × ℕ} (hbit : bit ∈ telemetryBits spec.registries sp.1) {data out : Snapshot}
    {k : ℕ}
    (hrun : processRawData f32 (generateMapping packets) data payload (PacketConfig.ofJson packet) k = some out) :
    ∃ b, out.scalar bit.1.field = .flag b := by
  rw [l.run_eq] at hrun
  obtain ⟨name, -, hname, -⟩ := mem_telemetryBits hbit
  have hbound : bit.1 ∈ boundTo spec.registries sp.1 := (mem_boundTo_bitfield hname).mpr ⟨bit.2, hbit⟩
  refine ListPass.foldlM_reaches (P := fun d => ∃ b, d.scalar bit.1.field = .flag b) hsp ?_ ?_ hrun
  · intro d d' hstep
    have r := l.rendered sp hsp
    have hlong := h.in_payload l hsp hlen
    unfold processSignal at hstep
    rw [if_neg (by omega), if_pos (bitfield_conv r hname)] at hstep
    unfold processBits at hstep
    rw [entry_bits r hname, List.foldlM_map] at hstep
    refine ListPass.foldlM_reaches (P := fun d => ∃ b, d.scalar bit.1.field = .flag b) hbit ?_ ?_ hstep
    · intro e e' hwrite
      obtain ⟨isSet, -, rfl⟩ := Option.map_eq_some_iff.mp hwrite
      refine ⟨isSet, ?_⟩
      show (updateProtoBool _ e bit.1.field isSet).scalar bit.1.field = _
      unfold updateProtoBool
      rw [if_pos (l.mem_boolSignals hsp hbit)]
      exact Function.update_self _ _ _
    · intro other _ e e' he hwrite
      obtain ⟨isSet, -, rfl⟩ := Option.map_eq_some_iff.mp hwrite
      exact updateProtoBool_flag he _ _
  · intro tp htp d d' hd hstep
    exact h.flag_kept l hsp hbound (by rw [hname]; rfl) htp hd hstep

variable (hnumber : sp.1.bitfieldType = none) (hnarrow : sp.1.enc.bitLength ≠ 64)

include hnumber hnarrow

/-- **A number is where it is written** after any run, if the write shows there and the other signals leave the place alone. -/
theorem Listed.number_written {γ : Type*} (place : ℕ → Snapshot → γ) (value : ℚ → γ)
    (hwrite : ∀ k val data, place k (writeValue (generateMapping packets) (repeatedFieldSpan (PacketConfig.ofJson packet)) k
      (configOf entry sp) val data) = value val)
    (hkeep : ∀ f32 k, ∀ tp ∈ places fm.2, tp ≠ sp → ∀ data data',
      processSignal f32 (generateMapping packets) payload (repeatedFieldSpan (PacketConfig.ofJson packet)) k data
        (configOf entry tp) = some data' → place k data' = place k data) :
    ∃ raw : ℤ, rawValue payload (configOf entry sp) = some (some raw) ∧ ∀ (f32 : ℚ → ℚ) data k out,
      processRawData f32 (generateMapping packets) data payload (PacketConfig.ofJson packet) k = some out →
      place k out = value (f32 (raw * (configOf entry sp).precision)) := by
  obtain ⟨raw, hread, hpass⟩ := narrow_pass (l.rendered sp hsp) hnumber hnarrow (h.in_payload l hsp hlen)
  refine ⟨raw, hread, ?_⟩
  intro f32 data k out hrun
  rw [l.run_eq] at hrun
  refine ListPass.foldlM_written hsp ?_ (hkeep f32 k) hrun
  intro d d' hstep
  rw [hpass, Option.some.injEq] at hstep
  rw [← hstep]
  exact hwrite k _ d

variable (ht : sp.1.telemetry = some t)

include ht

/-- **A number is in its field** after any run. -/
theorem Listed.scalar_written (hscalar : t.repeated = false) :
    ∃ raw : ℤ, rawValue payload (configOf entry sp) = some (some raw) ∧ ∀ (f32 : ℚ → ℚ) data k out,
      processRawData f32 (generateMapping packets) data payload (PacketConfig.ofJson packet) k = some out →
      out.scalar t.field = if isFlag spec t then .flag (f32 (raw * (configOf entry sp).precision) ≠ 0)
        else .number (f32 (raw * (configOf entry sp).precision)) := by
  have hbound : t ∈ boundTo spec.registries sp.1 := (mem_boundTo_number hnumber).mpr ht
  exact h.number_written l hsp hlen hnumber hnarrow (fun _ data => data.scalar t.field)
    (fun val => if isFlag spec t then .flag (val ≠ 0) else .number val)
    (fun k val data => l.writeValue_scalar h.valid h.message hsp hnumber ht hscalar _ k val data)
    fun f32 k => h.others_keep l hsp hbound hscalar f32 _ _ _ k

/-- **A slot is in its element** after any run, past those of the frames before it. -/
theorem Listed.slot_written (hrepeated : t.repeated = true) :
    ∃ raw : ℤ, rawValue payload (configOf entry sp) = some (some raw) ∧ ∀ (f32 : ℚ → ℚ) data k out,
      processRawData f32 (generateMapping packets) data payload (PacketConfig.ofJson packet) k = some out →
      out.element t.field (t.arrayIndex + k * repeatedFieldSpan (PacketConfig.ofJson packet)) =
        f32 (raw * (configOf entry sp).precision) := by
  have hbound : t ∈ boundTo spec.registries sp.1 := (mem_boundTo_number hnumber).mpr ht
  exact h.number_written l hsp hlen hnumber hnarrow
    (fun k data => data.element t.field (t.arrayIndex + k * repeatedFieldSpan (PacketConfig.ofJson packet))) (fun val => val)
    (fun k val data => l.writeValue_element hsp hnumber ht hrepeated _ k val data)
    fun f32 k => h.others_keep_element l hsp hbound f32 _ _ _ k

end Runs

/-! ## Changes -/

/-- An array that holds a value at one place. -/
theorem element_replicate (scalar : String → Value) (f : String) (i : ℕ) (x : ℚ) :
    (⟨scalar, fun _ => List.replicate (i + 1) x⟩ : Snapshot).element f i = x := by
  simp [Snapshot.element, List.getD_eq_getElem?_getD]

/-- **What the gateway writes a signal to does not survive a frame**: some snapshot is changed there. -/
theorem Listed.written (h : Listed spec fm packets packet) (hsp : sp ∈ places fm.2)
    (hheard : ¬ Unheard spec.registries sp.1) {payload : List U8} (hlen : fm.2.dlc ≤ payload.length) (f32 : ℚ → ℚ)
    (k : ℕ) :
    ∃ data, ∀ out,
      processRawData f32 (generateMapping packets) data payload (PacketConfig.ofJson packet) k = some out →
      ¬ Untouched spec.registries sp.1 (k * repeatedFieldSpan (PacketConfig.ofJson packet)) data out := by
  obtain ⟨types, entry, l⟩ := h.loading
  unfold Unheard at hheard
  rw [not_or] at hheard
  obtain ⟨hbinds, hwidth⟩ := hheard
  obtain ⟨t, ht⟩ := List.exists_mem_of_ne_nil _ hbinds
  cases hname : sp.1.bitfieldType with
  | some name =>
      obtain ⟨i, hbit⟩ := (mem_boundTo_bitfield hname).mp ht
      refine ⟨⟨fun _ => .number 0, fun _ => []⟩, ?_⟩
      rintro out hrun ⟨hkept, -⟩
      obtain ⟨b, hb⟩ := h.bit_written l hsp hlen hbit hrun
      have hsame := hkept t.field (by
        unfold signalScalars
        rw [hname]
        exact List.mem_map.mpr ⟨(t, i), hbit, rfl⟩)
      rw [hb] at hsame
      exact absurd hsame (by simp)
  | none =>
      have htele := (mem_boundTo_number hname).mp ht
      have hnarrow : sp.1.enc.bitLength ≠ 64 := fun heq => hwidth ⟨hname, heq⟩
      cases hrep : t.repeated with
      | false =>
          obtain ⟨raw, -, hwritten⟩ := h.scalar_written l hsp hlen hname hnarrow htele hrep
          have hother : ∃ other, other ≠ if isFlag spec t then
              Value.flag (f32 (raw * (configOf entry sp).precision) ≠ 0)
              else .number (f32 (raw * (configOf entry sp).precision)) := by
            split
            · exact ⟨.number 0, by simp⟩
            · exact ⟨.flag false, by simp⟩
          obtain ⟨other, hother⟩ := hother
          refine ⟨⟨fun _ => other, fun _ => []⟩, ?_⟩
          rintro out hrun ⟨hkept, -⟩
          have hsame := hkept t.field (by
            unfold signalScalars
            simp [hname, htele, hrep])
          exact hother (hsame.symm.trans (hwritten f32 _ k out hrun))
      | true =>
          obtain ⟨raw, -, hwritten⟩ := h.slot_written l hsp hlen hname hnarrow htele hrep
          let val := f32 (raw * (configOf entry sp).precision)
          let i := t.arrayIndex + k * repeatedFieldSpan (PacketConfig.ofJson packet)
          refine ⟨⟨fun _ => .flag false, fun _ => List.replicate (i + 1) (val + 1)⟩, ?_⟩
          rintro out hrun ⟨-, hkept⟩
          have hsame := hkept (t.field, i) (by
            unfold signalElements
            simp [hname, htele, hrep, i])
          rw [element_replicate] at hsame
          have hclash : val = val + 1 := (hwritten f32 _ k out hrun).symm.trans hsame
          linarith

end Lhre.Bevo
