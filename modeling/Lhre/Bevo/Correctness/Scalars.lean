import Lhre.Bevo.Writes

/-!
# `Bevo.Correctness.Scalars` — a packed scalar reaches its snapshot field

What the gateway leaves in the field of an unmuxed scalar signal after a frame of its message, and when that is the value
that was packed. Three things come between: a signal of 64 bits, which the gateway has no conversion for, a negative value
in fewer than eight bits, whose sign the gateway does not see, and a bound bit past the seventh anywhere in the message,
at which the run panics.

## Contents
- **The property.** `Delivers`, `scalarValue`.
- **The condition.** `ScalarReads`.
- **Runs.** `Deployed.scalar_after`.
- **`scalar_delivered`.**
-/

namespace Lhre.Bevo

open CanSpec Codegen

/-! ## The property -/

/-- Whatever the snapshot held, after the frame the field has the value. -/
def Delivers (f32 : ℚ → ℚ) (packets : List PacketJson) (packet : PacketJson) (payload : List U8) (name : String)
    (value : Value) : Prop :=
  ∀ data k, ∃ out, processRawData f32 (generateMapping packets) data payload (PacketConfig.ofJson packet) k = some out ∧
    out.scalar name = value

/-- The value of a field for a raw value: true or false, or the scaled number as a single. -/
def scalarValue (f32 : ℚ → ℚ) (flag : Bool) (scale : ℚ) (raw : ℤ) : Value :=
  if flag then .flag (raw ≠ 0) else .number (f32 (raw * scale))

/-! ## The condition -/

/-- The gateway makes of a raw value what the signal means by it. -/
structure ScalarReads (f32 : ℚ → ℚ) (spec : Spec) (m : CanMessage) (s : Signal) (t : Telemetry) (raw : ℤ) : Prop where
  width : s.enc.bitLength ≠ 64
  bits : SafeBits spec.registries m
  number : isFlag spec t = false → f32 (readBack s.enc raw * effectiveScale s.enc) = f32 (raw * effectiveScale s.enc)
  flag : isFlag spec t = true → (f32 (readBack s.enc raw * effectiveScale s.enc) ≠ 0 ↔ raw ≠ 0)

/-! ## Runs -/

section Runs

variable {spec : Spec} {fm : String × CanMessage} {c : Codec} {packets : List PacketJson} {packet : PacketJson}
  {types : Dict FieldKey FieldType} {entry : Signal × ℕ → SignalJson} {f32 : ℚ → ℚ} {sp : Signal × ℕ} {t : Telemetry}
  {v : Struct}

/-- The value of a number of an accepted message is in its range. -/
theorem Deployed.raw_in_range (h : Deployed spec fm c packets packet) (hsp : sp ∈ places fm.2)
    (hnumber : sp.1.bitfieldType = none) (htyped : Typed c v) (hrep : Representable v sp) :
    (rawRange sp.1.enc).1 ≤ v ⟨sp.2, none⟩ ∧ v ⟨sp.2, none⟩ ≤ (rawRange sp.1.enc).2 ∧
      ∀ value, sp.1.kind = some (.boolean value) → v ⟨sp.2, none⟩ = 0 ∨ v ⟨sp.2, none⟩ = 1 := by
  have hok := ((h.valid.message h.message).signals sp.1 (mem_places hsp)).ok
  obtain ⟨-, ⟨f, hfields, hf⟩, -, -⟩ := generate_eq_some h.codec
  obtain ⟨kind, hkind, hkindOk⟩ := hok.kind
  have hflag : ∀ value, sp.1.kind = some (.boolean value) → v ⟨sp.2, none⟩ = 0 ∨ v ⟨sp.2, none⟩ = 1 := by
    intro value hvalue
    have hfield := hf sp hsp
    simp only [signalFields, hvalue, Option.some.injEq] at hfield
    refine htyped ⟨sp.1.name, .bool, ⟨sp.2, none⟩⟩ ?_
    rw [hfields]
    refine List.mem_flatten.mpr ⟨f sp, List.mem_map.mpr ⟨sp, hsp, rfl⟩, ?_⟩
    rw [← hfield]
    exact List.mem_singleton_self _
  unfold Representable at hrep
  cases kind with
  | physical unit =>
      rw [hkind] at hrep
      exact ⟨hrep.1, hrep.2, hflag⟩
  | enumType name =>
      rw [hkind] at hrep
      exact ⟨hrep.1, hrep.2, hflag⟩
  | bitfield name => simp [Signal.bitfieldType, hkind] at hnumber
  | boolean value =>
      have hone : sp.1.enc.bitLength = 1 := hkindOk
      have hsign : sp.1.enc.sign = .unsigned := by
        cases hsigned : sp.1.enc.sign with
        | unsigned => rfl
        | signed =>
            have hwide := hok.signed hsigned
            omega
      have hrange : rawRange sp.1.enc = (0, 1) := by
        unfold rawRange
        rw [hsign, hone]
        rfl
      rw [hrange]
      refine ⟨?_, ?_, hflag⟩
      · show 0 ≤ v ⟨sp.2, none⟩
        rcases hflag value hkind with hv | hv <;> omega
      · show v ⟨sp.2, none⟩ ≤ 1
        rcases hflag value hkind with hv | hv <;> omega

/-- **The pass of a scalar signal** writes what was read of it, if anything was. -/
theorem Deployed.processSignal_number (h : Deployed spec fm c packets packet)
    (l : Loading spec fm.2 packets packet types entry) (hsp : sp ∈ places fm.2) (hmuxed : sp.1.muxed = false)
    (hnumber : sp.1.bitfieldType = none) (ht : sp.1.telemetry = some t) (hscalar : t.repeated = false)
    (htyped : Typed c v) (hrep : Representable v sp) (f32 : ℚ → ℚ) (span k : ℕ) (data : Snapshot) :
    ∃ data', processSignal f32 (generateMapping packets) (c.frameData v) span k data (configOf entry sp) = some data' ∧
      data'.scalar t.field = if sp.1.enc.bitLength = 64 then data.scalar t.field
        else if isFlag spec t then .flag (f32 (readBack sp.1.enc (v ⟨sp.2, none⟩) * effectiveScale sp.1.enc) ≠ 0)
        else .number (f32 (readBack sp.1.enc (v ⟨sp.2, none⟩) * effectiveScale sp.1.enc)) := by
  obtain ⟨hlo, hhi, hflag⟩ := h.raw_in_range hsp hnumber htyped hrep
  have r := l.rendered sp hsp
  have hlong := h.frame_long l hsp v
  unfold processSignal
  rw [if_neg (by omega), if_neg (number_conv r hnumber), h.rawValue_frameData l hsp hmuxed hnumber hflag hlo hhi]
  by_cases hwide : sp.1.enc.bitLength = 64
  · rw [if_pos hwide, if_pos hwide]
    exact ⟨data, rfl, rfl⟩
  · rw [if_neg hwide, if_neg hwide]
    have hprecision : (configOf entry sp).precision = effectiveScale sp.1.enc := r.precision
    refine ⟨_, rfl, ?_⟩
    rw [← hprecision]
    exact l.writeValue_scalar h.valid h.message hsp hnumber ht hscalar span k _ data

/-- **What the gateway leaves in the field of an unmuxed scalar signal** after a frame of the message. -/
theorem Deployed.scalar_after (h : Deployed spec fm c packets packet) (hsp : sp ∈ places fm.2)
    (hmuxed : sp.1.muxed = false) (hnumber : sp.1.bitfieldType = none) (ht : sp.1.telemetry = some t)
    (hscalar : t.repeated = false) (htyped : Typed c v) (hrep : Representable v sp) {data out : Snapshot} {k : ℕ}
    (hrun : processRawData f32 (generateMapping packets) data (c.frameData v) (PacketConfig.ofJson packet) k = some out) :
    out.scalar t.field = if sp.1.enc.bitLength = 64 then data.scalar t.field
      else if isFlag spec t then .flag (f32 (readBack sp.1.enc (v ⟨sp.2, none⟩) * effectiveScale sp.1.enc) ≠ 0)
      else .number (f32 (readBack sp.1.enc (v ⟨sp.2, none⟩) * effectiveScale sp.1.enc)) := by
  obtain ⟨types, entry, l⟩ := h.loading
  rw [l.run_eq] at hrun
  have hbound : t ∈ boundTo spec.registries sp.1 := (mem_boundTo_number hnumber).mpr ht
  have hothers := h.listed.others_keep l hsp hbound hscalar f32 (generateMapping packets) (c.frameData v)
    (repeatedFieldSpan (PacketConfig.ofJson packet)) k
  by_cases hwide : sp.1.enc.bitLength = 64
  · rw [if_pos hwide]
    refine ListPass.foldlM_invariant (P := fun d => d.scalar t.field = data.scalar t.field) ?_ rfl hrun
    intro d tp d' htp hd hstep
    by_cases heq : tp = sp
    · subst heq
      obtain ⟨d'', hpass, hvalue⟩ := h.processSignal_number l hsp hmuxed hnumber ht hscalar htyped hrep f32
        (repeatedFieldSpan (PacketConfig.ofJson packet)) k d
      rw [hstep, Option.some.injEq] at hpass
      rw [hpass, hvalue, if_pos hwide, hd]
    · rw [hothers tp htp heq d d' hstep, hd]
  · refine ListPass.foldlM_written (g := fun d => d.scalar t.field) hsp ?_ hothers hrun
    intro d d' hstep
    obtain ⟨d'', hpass, hvalue⟩ := h.processSignal_number l hsp hmuxed hnumber ht hscalar htyped hrep f32
      (repeatedFieldSpan (PacketConfig.ofJson packet)) k d
    rw [hstep, Option.some.injEq] at hpass
    show d'.scalar t.field = _
    rw [hpass, hvalue, if_neg hwide, if_neg hwide]

/-- **A packed scalar reaches its field** exactly when the gateway reads it for what it is. -/
theorem scalar_delivered (h : Deployed spec fm c packets packet) (hsp : sp ∈ places fm.2)
    (hmuxed : sp.1.muxed = false) (hnumber : sp.1.bitfieldType = none) (ht : sp.1.telemetry = some t)
    (hscalar : t.repeated = false) (htyped : Typed c v) (hrep : Representable v sp) :
    Delivers f32 packets packet (c.frameData v) t.field
        (scalarValue f32 (isFlag spec t) (effectiveScale sp.1.enc) (v ⟨sp.2, none⟩)) ↔
      ScalarReads f32 spec fm.2 sp.1 t (v ⟨sp.2, none⟩) := by
  constructor
  · intro hdelivers
    -- a snapshot whose field holds something else
    have hother : ∃ other, other ≠ scalarValue f32 (isFlag spec t) (effectiveScale sp.1.enc) (v ⟨sp.2, none⟩) := by
      unfold scalarValue
      split
      · exact ⟨.number 0, by simp⟩
      · exact ⟨.flag false, by simp⟩
    obtain ⟨other, hother⟩ := hother
    obtain ⟨out, hrun, hvalue⟩ := hdelivers ⟨fun _ => other, fun _ => []⟩ 0
    have hafter := h.scalar_after hsp hmuxed hnumber ht hscalar htyped hrep hrun
    have hwidth : sp.1.enc.bitLength ≠ 64 := by
      intro hwide
      rw [if_pos hwide] at hafter
      exact hother (hafter.symm.trans hvalue)
    rw [if_neg hwidth, hvalue] at hafter
    unfold scalarValue at hafter
    refine ⟨hwidth, ?_, ?_, ?_⟩
    · rw [← h.isSome_iff f32 (generateMapping packets) v _ _, hrun]
      rfl
    · intro hflag
      simp only [hflag, Bool.false_eq_true, if_false, Value.number.injEq] at hafter
      exact hafter.symm
    · intro hflag
      simp only [hflag, if_true, Value.flag.injEq, decide_eq_decide] at hafter
      exact hafter.symm
  · intro hreads data k
    have hsome := (h.isSome_iff f32 (generateMapping packets) v data k).mpr hreads.bits
    obtain ⟨out, hrun⟩ := Option.isSome_iff_exists.mp hsome
    refine ⟨out, hrun, ?_⟩
    rw [h.scalar_after hsp hmuxed hnumber ht hscalar htyped hrep hrun, if_neg hreads.width]
    unfold scalarValue
    cases hflag : isFlag spec t with
    | true =>
        simp only [if_true, Value.flag.injEq, decide_eq_decide]
        exact hreads.flag hflag
    | false =>
        simp only [Bool.false_eq_true, if_false, Value.number.injEq]
        exact hreads.number hflag

end Runs

/-! ## A speed, a gear and an odometer -/

/-- A number that is bound to a field of its own name. -/
def numberSignal (startBit bitLength : ℕ) (sign : Sign) (scale : ℚ) (t : Telemetry) : Signal where
  name := t.field
  encoding := some { startBit := startBit, bitLength := bitLength, sign := sign, scale := scale }
  logical := some { kind := some (.physical "") }
  telemetry := some t

def floatField (name : String) (id : ℕ) : Telemetry where
  group := "Dynamics"
  field := name
  id := id
  wireType := .float

/-- The speed in half units, and the gear, which is -1 in reverse. -/
def driveMessage : CanMessage where
  name := "VCU_DRIVE"
  canId := 0x100
  fromBoard := "VCU"
  bus := "Critical"
  dlc := 8
  signal :=
    [numberSignal 0 16 .signed (1 / 2) (floatField "speed" 1), numberSignal 16 4 .signed 1 (floatField "gear" 2)]

/-- The distance in all 64 bits of a frame. -/
def odometerMessage : CanMessage where
  name := "VCU_ODOMETER"
  canId := 0x101
  fromBoard := "VCU"
  bus := "Critical"
  dlc := 8
  signal := [numberSignal 0 64 .unsigned 1 (floatField "odometer" 3)]

def driveSpec : Spec where
  files :=
    [("lib/spec/buses.textproto", { bus := [{ name := "Critical", bitrateBps := 1000000 }] }),
      ("lib/spec/groups.textproto", { group := [{ name := "Dynamics", nextFreeId := 4, snapshotId := 3 }] }),
      ("lib/spec/messages/vcu.textproto", { message := [driveMessage, odometerMessage] })]
  nodup := by simp

/-- The code generated for a message, where there is any. -/
def codecOf (spec : Spec) (m : CanMessage) : Codec := (generate spec.registries m).getD ⟨0, [], [], []⟩

/-- The decode table of a spec, where there is one. -/
def tableOf (spec : Spec) : List PacketJson := (renderJson spec).getD []

/-- The packet of a message, where there is one. -/
def packetOf (spec : Spec) (m : CanMessage) : PacketJson := (packetJson spec m).getD default

theorem deployed_of {spec : Spec} {fm : String × CanMessage} (hvalid : spec.Valid) (hfm : fm ∈ spec.messages)
    (hcodec : (generate spec.registries fm.2).isSome) (htable : (renderJson spec).isSome)
    (hpacket : (packetJson spec fm.2).isSome) :
    Deployed spec fm (codecOf spec fm.2) (tableOf spec) (packetOf spec fm.2) where
  valid := hvalid
  message := hfm
  codec := by
    obtain ⟨c, hc⟩ := Option.isSome_iff_exists.mp hcodec
    rw [codecOf, hc, Option.getD_some]
  table := by
    obtain ⟨packets, hpackets⟩ := Option.isSome_iff_exists.mp htable
    rw [tableOf, hpackets, Option.getD_some]
  packet := by
    obtain ⟨packet, hp⟩ := Option.isSome_iff_exists.mp hpacket
    rw [packetOf, hp, Option.getD_some]

theorem drive_deployed :
    Deployed driveSpec ("lib/spec/messages/vcu.textproto", driveMessage) (codecOf driveSpec driveMessage) (tableOf driveSpec)
      (packetOf driveSpec driveMessage) :=
  deployed_of (by decide +kernel) (by simp [driveSpec, Spec.messages, Spec.entries]) (by decide +kernel) (by decide +kernel)
    (by decide)

/-- Rolling backwards at 2, in reverse. -/
def reverseStruct : Struct := fun x => if x.signal = 0 then -4 else if x.signal = 1 then -1 else 0

/-- The speed of the reversing car arrives. -/
theorem scalar_delivered_speed :
    Delivers (fun x => x) (tableOf driveSpec) (packetOf driveSpec driveMessage)
      ((codecOf driveSpec driveMessage).frameData reverseStruct) "speed" (.number (-2)) := by
  have hsp : (numberSignal 0 16 .signed (1 / 2) (floatField "speed" 1), 0) ∈ places driveMessage :=
    mem_places_iff.mpr rfl
  have htyped : Typed (codecOf driveSpec driveMessage) reverseStruct := by
    unfold Typed
    decide
  have hrep : Representable reverseStruct (numberSignal 0 16 .signed (1 / 2) (floatField "speed" 1), 0) := by
    show (-2 ^ (16 - 1) : ℤ) ≤ -4 ∧ (-4 : ℤ) ≤ 2 ^ (16 - 1) - 1
    decide
  have hnumber : isFlag driveSpec (floatField "speed" 1) = false := by decide
  have hreads : ScalarReads (fun x => x) driveSpec driveMessage
      (numberSignal 0 16 .signed (1 / 2) (floatField "speed" 1)) (floatField "speed" 1) (reverseStruct ⟨0, none⟩) := by
    refine ⟨by decide, by decide, fun _ => rfl, ?_⟩
    intro hflag
    rw [hnumber] at hflag
    exact absurd hflag (by simp)
  have hvalue : scalarValue (fun x => x) (isFlag driveSpec (floatField "speed" 1))
      (effectiveScale (numberSignal 0 16 .signed (1 / 2) (floatField "speed" 1)).enc) (reverseStruct ⟨0, none⟩) =
        .number (-2) := by
    decide +kernel
  rw [← hvalue]
  exact (scalar_delivered drive_deployed hsp rfl rfl rfl rfl htyped hrep).mpr hreads

/-- Every packed scalar reaches its field, whatever the spec. -/
def ScalarsDelivered (f32 : ℚ → ℚ) : Prop :=
  ∀ spec fm c packets packet sp t v, Deployed spec fm c packets packet → sp ∈ places fm.2 → sp.1.muxed = false →
    sp.1.bitfieldType = none → sp.1.telemetry = some t → t.repeated = false → Typed c v → Representable v sp →
    Delivers f32 packets packet (c.frameData v) t.field
      (scalarValue f32 (isFlag spec t) (effectiveScale sp.1.enc) (v ⟨sp.2, none⟩))

/-- The odometer does not arrive. -/
theorem not_scalars_delivered : ¬ ∃ f32, ScalarsDelivered f32 := by
  rintro ⟨f32, hall⟩
  have hdeployed : Deployed driveSpec ("lib/spec/messages/vcu.textproto", odometerMessage)
      (codecOf driveSpec odometerMessage) (tableOf driveSpec) (packetOf driveSpec odometerMessage) :=
    deployed_of (by decide +kernel) (by simp [driveSpec, Spec.messages, Spec.entries]) (by decide +kernel)
      (by decide) (by decide)
  have hsp : (numberSignal 0 64 .unsigned 1 (floatField "odometer" 3), 0) ∈ places odometerMessage :=
    mem_places_iff.mpr rfl
  have htyped : Typed (codecOf driveSpec odometerMessage) fun _ => 1 := by
    unfold Typed
    decide
  have hrep : Representable (fun _ => 1) (numberSignal 0 64 .unsigned 1 (floatField "odometer" 3), 0) := by
    show (0 : ℤ) ≤ 1 ∧ (1 : ℤ) ≤ 2 ^ 64 - 1
    decide
  have hdelivers := hall _ _ _ _ _ _ _ _ hdeployed hsp rfl rfl rfl rfl htyped hrep
  -- the field is a number, and keeps whatever it held
  have hnumber : isFlag driveSpec (floatField "odometer" 3) = false := by decide
  obtain ⟨out, hrun, hvalue⟩ := hdelivers ⟨fun _ => .flag false, fun _ => []⟩ 0
  change out.scalar "odometer" = _ at hvalue
  have hafter := hdeployed.scalar_after hsp rfl rfl rfl rfl htyped hrep hrun
  have hkept : out.scalar "odometer" = .flag false := hafter.trans (if_pos rfl)
  rw [hnumber, hkept] at hvalue
  exact absurd hvalue (by simp [scalarValue])

end Lhre.Bevo
