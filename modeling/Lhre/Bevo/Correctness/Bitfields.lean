import Lhre.Bevo.Correctness.Scalars

/-!
# `Bevo.Correctness.Bitfields` — a packed bit reaches its snapshot field

What the gateway leaves in the field of a bound bit of an unmuxed bitfield after a frame of its message. It looks for every
bit in the first byte of the signal, so it panics at a bound bit past the seventh, in whatever bitfield of the message
that is.

## Contents
- **The property.** `BitDelivers`.
- **Runs.** `Deployed.bit_after`.
- **`bit_delivered`.**
-/

namespace Lhre.Bevo

open CanSpec Codegen

/-! ## The property -/

/-- What a snapshot holds of a bit: a flag, or an element of an array in the first frame of a series. -/
def HoldsBit (out : Snapshot) (t : Telemetry) (k : ℕ) (value : Bool) : Prop :=
  if t.repeated then k = 0 → out.element t.field t.arrayIndex = if value then 1 else 0
  else out.scalar t.field = .flag value

/-- Whatever the snapshot held, after the frame it holds the bit; no byte is looked for outside the payload or shifted by
    eight or more. -/
def BitDelivers (f32 : ℚ → ℚ) (packets : List PacketJson) (packet : PacketJson) (payload : List U8) (t : Telemetry)
    (value : Bool) : Prop :=
  ∀ data k, ∃ out, processRawData f32 (generateMapping packets) data payload (PacketConfig.ofJson packet) k = some out ∧
    HoldsBit out t k value

/-! ## Runs -/

section Runs

variable {spec : Spec} {fm : String × CanMessage} {c : Codec} {packets : List PacketJson} {packet : PacketJson}
  {types : Dict FieldKey FieldType} {entry : Signal × ℕ → SignalJson} {f32 : ℚ → ℚ} {sp : Signal × ℕ}
  {bit : Telemetry × ℕ}

/-- **The pass of a bitfield** writes each of its bound bits. -/
theorem Deployed.processBits_bit (h : Deployed spec fm c packets packet)
    (l : Loading spec fm.2 packets packet types entry) (v : Struct) (hsp : sp ∈ places fm.2)
    (hmuxed : sp.1.muxed = false) (hbit : bit ∈ telemetryBits spec.registries sp.1) (hscalar : bit.1.repeated = false)
    (hsafe : bit.2 < 8) {span k : ℕ} {data data' : Snapshot}
    (hpass : processSignal f32 (generateMapping packets) (c.frameData v) span k data (configOf entry sp) = some data') :
    data'.scalar bit.1.field = .flag (v ⟨sp.2, some bit.2⟩ ≠ 0) := by
  have r := l.rendered sp hsp
  have hlong := h.frame_long l hsp v
  obtain ⟨name, -, hname, -⟩ := mem_telemetryBits hbit
  unfold processSignal at hpass
  rw [if_neg (by omega), if_pos (bitfield_conv r hname)] at hpass
  unfold processBits at hpass
  rw [entry_bits r hname, List.foldlM_map] at hpass
  refine ListPass.foldlM_written (g := fun d => d.scalar bit.1.field) hbit ?_ ?_ hpass
  · intro d d' hstep
    obtain ⟨isSet, hread, rfl⟩ := Option.map_eq_some_iff.mp hstep
    rw [h.bitAt_frameData l v hsp hmuxed hbit hsafe, Option.some.injEq] at hread
    subst hread
    show (updateProtoBool _ d bit.1.field _).scalar bit.1.field = _
    unfold updateProtoBool
    rw [if_pos (l.mem_boolSignals hsp hbit)]
    exact Function.update_self _ _ _
  · -- no other bit of the signal has the field
    intro other hother hne d d' hstep
    obtain ⟨isSet, -, rfl⟩ := Option.map_eq_some_iff.mp hstep
    apply updateProtoBool_scalar_of_ne
    intro hfield
    have hslots := bits_share h.valid hbit hother ?_ hfield
    · rw [hslots.left] at hscalar
      exact absurd hscalar (by simp)
    · intro hindex
      exact hne (telemetryBits_inj hother hbit hindex.symm)

/-- **What the gateway leaves in the field of a bound bit** after a frame of the message. -/
theorem Deployed.bit_after (h : Deployed spec fm c packets packet) (v : Struct) (hsp : sp ∈ places fm.2)
    (hmuxed : sp.1.muxed = false) (hbit : bit ∈ telemetryBits spec.registries sp.1) (hscalar : bit.1.repeated = false)
    (hsafe : bit.2 < 8) {data out : Snapshot} {k : ℕ}
    (hrun : processRawData f32 (generateMapping packets) data (c.frameData v) (PacketConfig.ofJson packet) k = some out) :
    out.scalar bit.1.field = .flag (v ⟨sp.2, some bit.2⟩ ≠ 0) := by
  obtain ⟨types, entry, l⟩ := h.loading
  rw [l.run_eq] at hrun
  have hbound : bit.1 ∈ boundTo spec.registries sp.1 := by
    obtain ⟨name, -, hname, -⟩ := mem_telemetryBits hbit
    exact (mem_boundTo_bitfield hname).mpr ⟨bit.2, hbit⟩
  refine ListPass.foldlM_written (g := fun d => d.scalar bit.1.field) hsp ?_ ?_ hrun
  · intro d d' hstep
    exact h.processBits_bit l v hsp hmuxed hbit hscalar hsafe hstep
  · exact h.listed.others_keep l hsp hbound hscalar f32 (generateMapping packets) (c.frameData v)
      (repeatedFieldSpan (PacketConfig.ofJson packet)) k

/-- **No bit is written to an array**, nor is anything else to its element. -/
theorem Deployed.bit_element_kept (h : Deployed spec fm c packets packet) {v : Struct} (hsp : sp ∈ places fm.2)
    (hbit : bit ∈ telemetryBits spec.registries sp.1) {data out : Snapshot}
    (hrun : processRawData f32 (generateMapping packets) data (c.frameData v) (PacketConfig.ofJson packet) 0 = some out) :
    out.element bit.1.field bit.1.arrayIndex = data.element bit.1.field bit.1.arrayIndex := by
  obtain ⟨types, entry, l⟩ := h.loading
  rw [l.run_eq] at hrun
  obtain ⟨name, -, hname, -⟩ := mem_telemetryBits hbit
  have hbound : bit.1 ∈ boundTo spec.registries sp.1 := (mem_boundTo_bitfield hname).mpr ⟨bit.2, hbit⟩
  refine ListPass.foldlM_invariant
    (P := fun d => d.element bit.1.field bit.1.arrayIndex = data.element bit.1.field bit.1.arrayIndex) ?_ rfl hrun
  intro d tp d' htp hd hstep
  rw [← hd]
  apply processSignal_element hstep
  rw [Nat.zero_mul, elements_eq (l.rendered tp htp)]
  by_cases heq : tp = sp
  · subst heq
    unfold signalElements
    rw [hname]
    exact List.not_mem_nil
  · exact element_unshared h.valid h.message hsp htp (fun hplace => heq (eq_of_place_eq htp hsp hplace)) hbound 0

/-- **A packed bit reaches its field** exactly when no bound bit of the message is past the seventh, and the bit is no
    slot of an array. -/
theorem bit_delivered (h : Deployed spec fm c packets packet) (v : Struct) (hsp : sp ∈ places fm.2)
    (hmuxed : sp.1.muxed = false) (hbit : bit ∈ telemetryBits spec.registries sp.1) :
    BitDelivers f32 packets packet (c.frameData v) bit.1 (v ⟨sp.2, some bit.2⟩ ≠ 0) ↔
      SafeBits spec.registries fm.2 ∧ bit.1.repeated = false := by
  constructor
  · intro hdelivers
    obtain ⟨out, hrun, hholds⟩ := hdelivers ⟨fun _ => .number 0, fun _ => List.replicate (bit.1.arrayIndex + 1) 2⟩ 0
    refine ⟨?_, ?_⟩
    · rw [← h.isSome_iff f32 (generateMapping packets) v _ _, hrun]
      rfl
    · -- an array that held 2 there still does
      by_contra hrepeated
      unfold HoldsBit at hholds
      rw [if_pos (by simpa using hrepeated), h.bit_element_kept hsp hbit hrun] at hholds
      have hheld := hholds rfl
      have htwo : (List.replicate (bit.1.arrayIndex + 1) (2 : ℚ)).getD bit.1.arrayIndex 0 = 2 := by
        simp [List.getD_eq_getElem?_getD]
      unfold Snapshot.element at hheld
      rw [htwo] at hheld
      split at hheld <;> norm_num at hheld
  · rintro ⟨hsafe, hscalar⟩ data k
    obtain ⟨out, hrun⟩ := Option.isSome_iff_exists.mp
      ((h.isSome_iff f32 (generateMapping packets) v data k).mpr hsafe)
    refine ⟨out, hrun, ?_⟩
    unfold HoldsBit
    rw [hscalar]
    exact h.bit_after v hsp hmuxed hbit hscalar (hsafe sp.1 (mem_places hsp) bit hbit) hrun

end Runs

/-! ## Relays and faults -/

def flagField (name : String) (id : ℕ) : Telemetry where
  group := "Pack"
  field := name
  id := id

/-- A bitfield of a type. -/
def bitfieldSignal (name : String) (startBit bitLength : ℕ) (type : String) : Signal where
  name := name
  encoding := some { startBit := startBit, bitLength := bitLength }
  logical := some { kind := some (.bitfield type) }

def hvcMessage (name : String) (canId : ℕ) (signals : List Signal) : CanMessage where
  name := name
  canId := canId
  fromBoard := "HVC"
  bus := "Critical"
  dlc := 8
  signal := signals

/-- Two bits, the second of which is bound. -/
def relayType : BitfieldType where
  name := "Relays"
  bit := [{ name := "precharge" }, { name := "main", telemetry := some (flagField "main_relay" 1) }]

/-- Nine bits, the last of which is bound. -/
def faultType : BitfieldType where
  name := "Faults"
  bit :=
    (List.range 8).map (fun i => { name := "reserved_" ++ String.ofList (List.replicate i 'x') }) ++
      [{ name := "imd", telemetry := some (flagField "imd_fault" 2) }]

def relayMessage : CanMessage := hvcMessage "HVC_RELAYS" 0x110 [bitfieldSignal "relays" 8 2 "Relays"]

def faultMessage : CanMessage := hvcMessage "HVC_FAULTS" 0x111 [bitfieldSignal "faults" 0 16 "Faults"]

def hvcSpec : Spec where
  files :=
    [("lib/spec/buses.textproto", { bus := [{ name := "Critical", bitrateBps := 1000000 }] }),
      ("lib/spec/groups.textproto", { group := [{ name := "Pack", nextFreeId := 3, snapshotId := 3 }] }),
      ("lib/spec/types.textproto", { bitfieldType := [relayType, faultType] }),
      ("lib/spec/messages/hvc.textproto", { message := [relayMessage, faultMessage] })]
  nodup := by simp

/-- The main relay that is closed is seen closed. -/
theorem bit_delivered_relay :
    BitDelivers (fun x => x) (tableOf hvcSpec) (packetOf hvcSpec relayMessage)
      ((codecOf hvcSpec relayMessage).frameData fun x => if x.bit = some 1 then 1 else 0) (flagField "main_relay" 1)
      true := by
  have hdeployed : Deployed hvcSpec ("lib/spec/messages/hvc.textproto", relayMessage) (codecOf hvcSpec relayMessage)
      (tableOf hvcSpec) (packetOf hvcSpec relayMessage) :=
    deployed_of (by decide) (by simp [hvcSpec, Spec.messages, Spec.entries]) (by decide)
      (by decide) (by decide)
  have hsp : (bitfieldSignal "relays" 8 2 "Relays", 0) ∈ places relayMessage := mem_places_iff.mpr rfl
  have hbit : (flagField "main_relay" 1, 1) ∈
      telemetryBits hvcSpec.registries (bitfieldSignal "relays" 8 2 "Relays", 0).1 := by
    decide
  exact (bit_delivered hdeployed _ hsp rfl hbit).mpr ⟨by decide, rfl⟩

/-- Every bound bit of an unmuxed bitfield reaches its field, whatever the spec. -/
def BitsDelivered (f32 : ℚ → ℚ) : Prop :=
  ∀ spec fm c packets packet sp bit v, Deployed spec fm c packets packet → sp ∈ places fm.2 → sp.1.muxed = false →
    bit ∈ telemetryBits spec.registries sp.1 → Typed c v →
    BitDelivers f32 packets packet (c.frameData v) bit.1 (v ⟨sp.2, some bit.2⟩ ≠ 0)

/-- The ninth bit brings the gateway down. -/
theorem not_bits_delivered : ¬ ∃ f32, BitsDelivered f32 := by
  rintro ⟨f32, hall⟩
  have hdeployed : Deployed hvcSpec ("lib/spec/messages/hvc.textproto", faultMessage) (codecOf hvcSpec faultMessage)
      (tableOf hvcSpec) (packetOf hvcSpec faultMessage) :=
    deployed_of (by decide) (by simp [hvcSpec, Spec.messages, Spec.entries]) (by decide)
      (by decide) (by decide)
  have hsp : (bitfieldSignal "faults" 0 16 "Faults", 0) ∈ places faultMessage := mem_places_iff.mpr rfl
  have hbit : (flagField "imd_fault" 2, 8) ∈
      telemetryBits hvcSpec.registries (bitfieldSignal "faults" 0 16 "Faults", 0).1 := by
    decide
  have htyped : Typed (codecOf hvcSpec faultMessage) fun _ => 1 := by
    unfold Typed
    decide
  obtain ⟨out, hrun, -⟩ := hall _ _ _ _ _ _ _ _ hdeployed hsp rfl hbit htyped ⟨fun _ => .flag false, fun _ => []⟩ 0
  have hsafe := (hdeployed.isSome_iff f32 (generateMapping (tableOf hvcSpec)) (fun _ => 1) _ 0).mp (by
    rw [hrun]
    rfl)
  exact absurd (hsafe _ (mem_places hsp) _ hbit) (by decide)

end Lhre.Bevo
