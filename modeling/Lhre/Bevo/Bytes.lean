import Lhre.Bevo.Loaded

/-!
# `Bevo.Bytes` — what the gateway reads of a packed frame

The decode table lets a signal start at whole bytes only, so the bytes of a narrow signal hold nothing else. What the
gateway reads there is the raw value, except that it knows no sign bit below the eighth.

## Contents
- **Runs.** `Listed.isSome_iff`: a run on a frame of the message panics at a bound bit past the seventh, and nowhere else.
  `narrow_pass` and `wide_pass`: what the pass of a number does.
- **Bytes.** `leBytes_frameData`: the bytes of an unmuxed number hold its wire value.
- **Values.** `readBack`, `rawValue_frameData`.
-/

namespace Lhre.Bevo

open CanSpec Codegen

variable {spec : Spec} {fm : String × CanMessage} {c : Codec} {packets : List PacketJson} {packet : PacketJson}
  {types : Dict FieldKey FieldType} {entry : Signal × ℕ → SignalJson} {f32 : ℚ → ℚ} {mp : Mapping} {sp : Signal × ℕ}

/-! ## Runs -/

/-- **The bytes of a signal are in the frame.** -/
theorem bytes_in_frame {s : Signal} {j : SignalJson} (r : Rendered spec.registries types s j) {dlc : ℕ}
    (hfits : SignalFits spec.registries dlc s) :
    (SignalConfig.ofJson j).startByte + (SignalConfig.ofJson j).length ≤ dlc := by
  show j.startByte + j.length ≤ dlc
  rw [r.startByte, r.length]
  have hpos := hfits.ok.length_pos
  have hlast := hfits.inFrame _ (bitPlace_mem (j := s.enc.bitLength - 1) (by omega))
  rw [bitPlace, r.little, BitLayout.place_little] at hlast
  have haligned := r.aligned
  omega

theorem bitAt_isSome_iff {payload : List U8} {start i : ℕ} (h : start < payload.length) :
    (bitAt payload start i).isSome ↔ i < 8 := by
  unfold bitAt
  rw [List.getElem?_eq_getElem h, Option.bind_some]
  by_cases hi : 8 ≤ i
  · simp [hi]
  · simp [hi]
    omega

/-- What is read of a number, in a payload that holds its bytes. -/
theorem rawValue_eq {payload : List U8} {s : Signal} {j : SignalJson} {width : ℕ} (hconv : Conversion s j.convType width)
    {x : ℕ} (hx : leBytes payload j.startByte (width / 8) = some x) :
    rawValue payload (SignalConfig.ofJson j) =
      if width = 64 then some none
      else some (some (if s.enc.sign = .signed then (BitVec.ofNat width x).toInt else x)) := by
  have hname : (SignalConfig.ofJson j).convType = conversionName s.enc.sign width := hconv.name
  have hx' : leBytes payload (SignalConfig.ofJson j).startByte (width / 8) = some x := hx
  unfold rawValue
  rw [hname]
  cases s.enc.sign with
  | signed =>
      obtain rfl | rfl | rfl | rfl := hconv.known
      all_goals
        simp only [conversionName]
        first
          | rfl
          | exact congrArg (Option.map _) hx'
  | unsigned =>
      obtain rfl | rfl | rfl | rfl := hconv.known
      all_goals
        simp only [conversionName]
        first
          | rfl
          | exact congrArg (Option.map _) hx'

/-- The bytes of a number are there as long as the payload is. -/
theorem exists_leBytes {payload : List U8} (start n : ℕ) (h : start + n ≤ payload.length) :
    ∃ x, leBytes payload start n = some x := by
  obtain ⟨x, hx, -⟩ := leBytes_eq_some payload (fun i => payload.getD i 0) start n (by
    intro i hi
    rw [List.getElem?_eq_getElem (by omega), List.getD_eq_getElem?_getD, List.getElem?_eq_getElem (by omega)]
    rfl)
  exact ⟨x, hx⟩

theorem conversion_bytes {s : Signal} {convType : String} {width : ℕ} (h : Conversion s convType width) :
    width / 8 = max 1 ((s.enc.bitLength + 7) / 8) := by
  have heq := h.eq
  obtain hw | hw | hw | hw := h.known <;> omega

/-- **What is read of a number**: something, unless it has 64 bits. -/
theorem exists_rawValue {s : Signal} {j : SignalJson} (r : Rendered spec.registries types s j)
    (hnumber : s.bitfieldType = none) {payload : List U8}
    (hlen : (SignalConfig.ofJson j).startByte + (SignalConfig.ofJson j).length ≤ payload.length) :
    ∃ raw, rawValue payload (SignalConfig.ofJson j) = some raw ∧ (raw = none ↔ s.enc.bitLength = 64) := by
  obtain ⟨width, hwidth⟩ := signalConvType_number r.conversion hnumber
  have hbytes : j.length = width / 8 := r.length.trans (conversion_bytes hwidth).symm
  obtain ⟨x, hx⟩ := exists_leBytes j.startByte (width / 8) (by
    rw [← hbytes]
    exact hlen)
  have hmax := hwidth.eq
  rw [rawValue_eq hwidth hx]
  by_cases hwide : width = 64
  · refine ⟨_, if_pos hwide, ?_⟩
    simp only [true_iff]
    omega
  · refine ⟨_, if_neg hwide, ?_⟩
    simp only [reduceCtorEq, false_iff]
    omega

/-- **A pass panics at a bound bit past the seventh**, and nowhere else. -/
theorem processSignal_isSome_iff {s : Signal} {j : SignalJson} (r : Rendered spec.registries types s j)
    {payload : List U8} (hlen : (SignalConfig.ofJson j).startByte + (SignalConfig.ofJson j).length ≤ payload.length)
    (span k : ℕ) (data : Snapshot) :
    (processSignal f32 mp payload span k data (SignalConfig.ofJson j)).isSome ↔
      ∀ bit ∈ telemetryBits spec.registries s, bit.2 < 8 := by
  unfold processSignal
  rw [if_neg (by omega)]
  have hpos : 1 ≤ (SignalConfig.ofJson j).length := by
    show 1 ≤ j.length
    rw [r.length]
    omega
  cases hname : s.bitfieldType with
  | some name =>
      rw [if_pos (bitfield_conv r hname)]
      unfold processBits
      rw [entry_bits r hname, ListPass.foldlM_isSome_iff (P := fun bit : BitfieldMapping => bit.bitIndex < 8)]
      · rw [List.forall_mem_map]
      · intro d bit _
        rw [Option.isSome_map, bitAt_isSome_iff (by omega)]
  | none =>
      rw [if_neg (number_conv r hname), Option.isSome_map]
      obtain ⟨raw, hraw, -⟩ := exists_rawValue r hname hlen
      have hnone : telemetryBits spec.registries s = [] := by
        unfold telemetryBits
        rw [hname]
      rw [hraw, hnone]
      simp

theorem length_frameData (c : Codec) (v : Struct) : (c.frameData v).length = c.dlc := by
  unfold Codec.frameData
  rw [List.length_map, List.length_range]

theorem getElem?_frameData {c : Codec} {v : Struct} {i : ℕ} (h : i < c.dlc) :
    (c.frameData v)[i]? = some (c.pack v (fun _ => 0) i) := by
  unfold Codec.frameData
  rw [List.getElem?_map, List.getElem?_range h, Option.map_some]

/-- **A payload of the message's length** holds the bytes of its signals. -/
theorem Listed.in_payload (h : Listed spec fm packets packet) (l : Loading spec fm.2 packets packet types entry)
    (hsp : sp ∈ places fm.2) {payload : List U8} (hlen : fm.2.dlc ≤ payload.length) :
    (configOf entry sp).startByte + (configOf entry sp).length ≤ payload.length := by
  have hok := h.valid.message h.message
  exact le_trans (bytes_in_frame (l.rendered sp hsp) (hok.signals sp.1 (mem_places hsp))) hlen

/-- **A run on a frame of the message** panics at a bound bit past the seventh, and nowhere else. -/
theorem Listed.isSome_iff (h : Listed spec fm packets packet) {payload : List U8} (hlen : fm.2.dlc ≤ payload.length)
    (f32 : ℚ → ℚ) (mp : Mapping) (data : Snapshot) (k : ℕ) :
    (processRawData f32 mp data payload (PacketConfig.ofJson packet) k).isSome ↔ SafeBits spec.registries fm.2 := by
  obtain ⟨types, entry, l⟩ := h.loading
  rw [l.run_eq,
    ListPass.foldlM_isSome_iff (P := fun sp : Signal × ℕ => ∀ bit ∈ telemetryBits spec.registries sp.1, bit.2 < 8)]
  · constructor
    · intro hsafe s hs
      obtain ⟨i, hi⟩ := exists_place hs
      exact hsafe (s, i) hi
    · intro hsafe sp hsp
      exact hsafe sp.1 (mem_places hsp)
  · intro data sp hsp
    exact processSignal_isSome_iff (l.rendered sp hsp) (h.in_payload l hsp hlen) _ _ _

/-- A packed frame has the message's length. -/
theorem Deployed.dlc_le (h : Deployed spec fm c packets packet) (v : Struct) : fm.2.dlc ≤ (c.frameData v).length := by
  rw [length_frameData, (h.valid.message h.message).dlc_eq h.codec]

/-- A frame of the message is as long as its signals need. -/
theorem Deployed.frame_long (h : Deployed spec fm c packets packet)
    (l : Loading spec fm.2 packets packet types entry) (hsp : sp ∈ places fm.2) (v : Struct) :
    (configOf entry sp).startByte + (configOf entry sp).length ≤ (c.frameData v).length :=
  h.listed.in_payload l hsp (h.dlc_le v)

theorem Deployed.isSome_iff (h : Deployed spec fm c packets packet) (f32 : ℚ → ℚ) (mp : Mapping) (v : Struct)
    (data : Snapshot) (k : ℕ) :
    (processRawData f32 mp data (c.frameData v) (PacketConfig.ofJson packet) k).isSome ↔
      SafeBits spec.registries fm.2 :=
  h.listed.isSome_iff (h.dlc_le v) f32 mp data k

/-- The pass of a number the gateway has a conversion for writes what is read of it. -/
theorem narrow_pass {s : Signal} {j : SignalJson} (r : Rendered spec.registries types s j)
    (hnumber : s.bitfieldType = none) (hnarrow : s.enc.bitLength ≠ 64) {payload : List U8}
    (hlen : (SignalConfig.ofJson j).startByte + (SignalConfig.ofJson j).length ≤ payload.length) :
    ∃ raw : ℤ, rawValue payload (SignalConfig.ofJson j) = some (some raw) ∧
      ∀ (f32 : ℚ → ℚ) mp span k data, processSignal f32 mp payload span k data (SignalConfig.ofJson j) =
        some (writeValue mp span k (SignalConfig.ofJson j) (f32 (raw * (SignalConfig.ofJson j).precision)) data) := by
  obtain ⟨read, hread, hwide⟩ := exists_rawValue r hnumber hlen
  cases read with
  | none => exact absurd (hwide.mp rfl) hnarrow
  | some raw =>
      refine ⟨raw, hread, ?_⟩
      intro f32 mp span k data
      unfold processSignal
      rw [if_neg (by omega), if_neg (number_conv r hnumber), hread]
      rfl

/-- The pass of a number of 64 bits does nothing. -/
theorem wide_pass {s : Signal} {j : SignalJson} (r : Rendered spec.registries types s j)
    (hnumber : s.bitfieldType = none) (hwide : s.enc.bitLength = 64) (f32 : ℚ → ℚ) (mp : Mapping) (payload : List U8)
    (span k : ℕ) (data : Snapshot) :
    processSignal f32 mp payload span k data (SignalConfig.ofJson j) = some data := by
  unfold processSignal
  by_cases hlen : payload.length < (SignalConfig.ofJson j).startByte + (SignalConfig.ofJson j).length
  · rw [if_pos hlen]
  · rw [if_neg hlen, if_neg (number_conv r hnumber)]
    obtain ⟨read, hread, hnone⟩ := exists_rawValue r hnumber (not_lt.mp hlen)
    rw [hread, hnone.mpr hwide]
    rfl

/-! ## Bytes -/

/-- A number is packed as its low bits. -/
theorem wireBit_number {reg : Registries} {v : Struct} {sp : Signal × ℕ} (hnumber : sp.1.bitfieldType = none)
    (hlittle : sp.1.enc.big = false) (hflag : ∀ value, sp.1.kind = some (.boolean value) →
      sp.1.enc.bitLength = 1 ∧ (v ⟨sp.2, none⟩ = 0 ∨ v ⟨sp.2, none⟩ = 1)) {j : ℕ} (hj : j < sp.1.enc.bitLength) :
    wireBit reg v sp j = (BitVec.ofInt 64 (v ⟨sp.2, none⟩)).getLsbD j := by
  unfold wireBit
  split
  · rename_i name hkind
    simp [Signal.bitfieldType, hkind] at hnumber
  · rename_i value hkind
    obtain ⟨hone, hv⟩ := hflag value hkind
    obtain rfl : j = 0 := by omega
    rcases hv with hv | hv <;> simp [hv, hlittle]
  · rfl

/-- An unmuxed signal shares no bit with another one. -/
theorem unmuxed_alone {reg : Registries} {m : CanMessage} (hok : MessageOk reg m) {sp : Signal × ℕ} (hsp : sp ∈ places m)
    (hmuxed : sp.1.muxed = false) :
    ∀ tp ∈ places m, tp ≠ sp → (occupiedBits tp.1.enc).Disjoint (occupiedBits sp.1.enc) := by
  intro tp htp hne
  refine ListPass.forall_zipIdx ?_ hok.disjoint_of_unmuxed htp hsp (fun heq => hne (eq_of_place_eq htp hsp heq))
    (Or.inr hmuxed)
  intro a b hab hplain
  exact (hab hplain.symm).symm

/-- **The bits of an unmuxed signal** are in the frame as they were packed. -/
theorem Deployed.bitAt_pack (h : Deployed spec fm c packets packet)
    (l : Loading spec fm.2 packets packet types entry) {v : Struct} (hsp : sp ∈ places fm.2)
    (hmuxed : sp.1.muxed = false) {j : ℕ} (hj : j < sp.1.enc.bitLength) :
    BitLayout.bitAt (c.pack v fun _ => 0) (sp.1.enc.startBit + j) = wireBit spec.registries v sp j := by
  have hok := h.valid.message h.message
  have hpack := Codec.bitAt_pack_place h.codec hok.codable hsp (Active.of_unmuxed hmuxed v)
    (fun tp htp hne _ => unmuxed_alone hok hsp hmuxed tp htp hne) (fun p hp => by
      rw [hok.dlc_eq h.codec, Nat.mul_comm]
      exact (hok.signals sp.1 (mem_places hsp)).inFrame p hp) (fun _ => 0) hj
  rwa [bitPlace, (l.rendered sp hsp).little, BitLayout.place_little] at hpack

/-- **An unmuxed number has its bytes to itself**: a signal that starts at a whole byte and touches one of them covers its
    first bit. -/
theorem Deployed.bit_frameData (h : Deployed spec fm c packets packet)
    (l : Loading spec fm.2 packets packet types entry) {v : Struct} (hsp : sp ∈ places fm.2)
    (hmuxed : sp.1.muxed = false) (hnumber : sp.1.bitfieldType = none)
    (hflag : ∀ value, sp.1.kind = some (.boolean value) → v ⟨sp.2, none⟩ = 0 ∨ v ⟨sp.2, none⟩ = 1) {width : ℕ}
    (hwidth : Conversion sp.1 (entry sp).convType width) {j : ℕ} (hj : j < width) :
    BitLayout.bitAt (c.pack v fun _ => 0) (8 * (entry sp).startByte + j) =
      (decide (j < sp.1.enc.bitLength) && (BitVec.ofInt 64 (v ⟨sp.2, none⟩)).getLsbD j) := by
  have hok := h.valid.message h.message
  have hfits := hok.signals sp.1 (mem_places hsp)
  have r := l.rendered sp hsp
  have hstart : 8 * (entry sp).startByte = sp.1.enc.startBit := by
    have haligned := r.aligned
    rw [r.startByte]
    omega
  rw [hstart]
  by_cases hin : j < sp.1.enc.bitLength
  · rw [h.bitAt_pack l hsp hmuxed hin, wireBit_number hnumber r.little _ hin]
    · simp [hin]
    · intro value hkind
      refine ⟨?_, hflag value hkind⟩
      obtain ⟨kind, hkind', hkindOk⟩ := hfits.ok.kind
      rw [hkind, Option.some.injEq] at hkind'
      subst hkind'
      exact hkindOk
  · -- what lies above a narrow signal is nobody's
    have hfalse : BitLayout.bitAt (c.pack v fun _ => 0) (sp.1.enc.startBit + j) = false := by
      rw [Bool.eq_false_iff, ne_eq, Codec.bitAt_pack h.codec hok.codable]
      rintro (⟨-, hzero⟩ | ⟨tp, htp, -, k, hk, hplace, -⟩)
      · simp [BitLayout.bitAt] at hzero
      · have r' := l.rendered tp htp
        rw [r'.little, BitLayout.place_little] at hplace
        by_cases heq : tp = sp
        · subst heq
          omega
        · have hnarrow : width = 8 := by
            have hmax := hwidth.eq
            omega
          have haligned := r.aligned
          have haligned' := r'.aligned
          have hpos := hfits.ok.length_pos
          have hmine : sp.1.enc.startBit ∈ occupiedBits sp.1.enc := by
            have hfirst := bitPlace_mem (s := sp.1) (j := 0) hpos
            rwa [bitPlace, r.little, BitLayout.place_little, Nat.add_zero] at hfirst
          have htheirs : sp.1.enc.startBit ∈ occupiedBits tp.1.enc := by
            have hfirst := bitPlace_mem (s := tp.1) (j := sp.1.enc.startBit - tp.1.enc.startBit) (by omega)
            rw [bitPlace, r'.little, BitLayout.place_little] at hfirst
            rwa [Nat.add_sub_cancel' (by omega)] at hfirst
          exact unmuxed_alone hok hsp hmuxed tp htp heq htheirs hmine
    rw [hfalse]
    simp [hin]

/-- **The bytes of an unmuxed number** hold its wire value. -/
theorem Deployed.leBytes_frameData (h : Deployed spec fm c packets packet)
    (l : Loading spec fm.2 packets packet types entry) {v : Struct} (hsp : sp ∈ places fm.2)
    (hmuxed : sp.1.muxed = false) (hnumber : sp.1.bitfieldType = none)
    (hflag : ∀ value, sp.1.kind = some (.boolean value) → v ⟨sp.2, none⟩ = 0 ∨ v ⟨sp.2, none⟩ = 1) {width : ℕ}
    (hwidth : Conversion sp.1 (entry sp).convType width) :
    ∃ x, leBytes (c.frameData v) (entry sp).startByte (width / 8) = some x ∧
      (x : ℤ) = v ⟨sp.2, none⟩ % 2 ^ sp.1.enc.bitLength := by
  have hok := h.valid.message h.message
  have hfits := hok.signals sp.1 (mem_places hsp)
  have r := l.rendered sp hsp
  have hlong := bytes_in_frame r hfits
  have hbytes : (SignalConfig.ofJson (entry sp)).length = width / 8 := r.length.trans (conversion_bytes hwidth).symm
  rw [hbytes] at hlong
  have hlong' : (entry sp).startByte + width / 8 ≤ fm.2.dlc := hlong
  obtain ⟨x, hx, hlt, hbits⟩ := leBytes_eq_some (c.frameData v) (c.pack v fun _ => 0) (entry sp).startByte
    (width / 8) (by
      intro i hi
      apply getElem?_frameData
      rw [hok.dlc_eq h.codec]
      omega)
  have hwhole : 8 * (width / 8) = width := by
    obtain hw | hw | hw | hw := hwidth.known <;> omega
  rw [hwhole] at hlt hbits
  refine ⟨x, hx, ?_⟩
  rw [← toNat_ofInt_mod hfits.ok.length_le]
  congr 1
  apply Nat.eq_of_testBit_eq
  intro j
  rw [Nat.testBit_mod_two_pow, BitVec.testBit_toNat]
  by_cases hj : j < width
  · rw [hbits j hj]
    exact h.bit_frameData l hsp hmuxed hnumber hflag hwidth hj
  · have hmax := hwidth.eq
    have hout : ¬ j < sp.1.enc.bitLength := by omega
    rw [Nat.testBit_lt_two_pow (lt_of_lt_of_le hlt (Nat.pow_le_pow_right (by decide) (by omega)))]
    simp [hout]

/-- **A bit of an unmuxed bitfield**, where the gateway looks for it. -/
theorem Deployed.bitAt_frameData (h : Deployed spec fm c packets packet)
    (l : Loading spec fm.2 packets packet types entry) (v : Struct) (hsp : sp ∈ places fm.2)
    (hmuxed : sp.1.muxed = false) {bit : Telemetry × ℕ} (hbit : bit ∈ telemetryBits spec.registries sp.1)
    (hsafe : bit.2 < 8) :
    bitAt (c.frameData v) (configOf entry sp).startByte bit.2 = some (decide (v ⟨sp.2, some bit.2⟩ ≠ 0)) := by
  have hok := h.valid.message h.message
  have r := l.rendered sp hsp
  have haligned := r.aligned
  have hstart : (configOf entry sp).startByte = sp.1.enc.startBit / 8 := r.startByte
  obtain ⟨name, fb, hname, hfb, hfbname, b, hb, -⟩ := mem_telemetryBits hbit
  have hkind : sp.1.kind = some (.bitfield name) := bitfieldType_eq_some.mp hname
  have hget : Dict.get? spec.registries.bitfields name = some fb.2 := by
    rw [← hfbname]
    exact h.valid.registries.get?_bitfields hfb
  have hdeclared : declaredBits spec.registries name = fb.2.bit.length := by simp [declaredBits, hget]
  have hindex : bit.2 < fb.2.bit.length := by
    rw [List.mem_zipIdx_iff_getElem?] at hb
    exact (List.getElem?_eq_some_iff.mp hb).1
  have hcodable := hok.codable sp.1 (mem_places hsp)
  have hin : bit.2 < sp.1.enc.bitLength := by
    have hle := hcodable.bits name hkind
    omega
  have hlong := h.frame_long l hsp v
  have hpos : 1 ≤ (configOf entry sp).length := by
    show 1 ≤ (entry sp).length
    rw [r.length]
    omega
  rw [length_frameData] at hlong
  have hplace := h.bitAt_pack (v := v) l hsp hmuxed hin
  unfold wireBit at hplace
  simp only [hkind, hdeclared, hindex, true_and] at hplace
  unfold bitAt
  rw [getElem?_frameData (by omega), Option.bind_some, if_neg (by omega), hstart, ← hplace]
  unfold BitLayout.bitAt
  have hdiv : (sp.1.enc.startBit + bit.2) / 8 = sp.1.enc.startBit / 8 := by omega
  have hmod : (sp.1.enc.startBit + bit.2) % 8 = bit.2 := by omega
  rw [hdiv, hmod]

/-! ## Values -/

/-- The raw value the gateway takes a signal to have: a sign bit below the eighth is none. -/
def readBack (e : Encoding) (raw : ℤ) : ℤ :=
  if e.sign = .signed ∧ e.bitLength < 8 ∧ raw < 0 then raw + 2 ^ e.bitLength else raw

/-- **The gateway reads a number back**, but for a narrow negative one. -/
theorem decode_eq_readBack {s : Signal} {convType : String} {width : ℕ} (hwidth : Conversion s convType width)
    (hpos : 1 ≤ s.enc.bitLength) {raw : ℤ} (hlo : (rawRange s.enc).1 ≤ raw) (hhi : raw ≤ (rawRange s.enc).2) {x : ℕ}
    (hx : (x : ℤ) = raw % 2 ^ s.enc.bitLength) :
    (if s.enc.sign = .signed then (BitVec.ofNat width x).toInt else x) = readBack s.enc raw := by
  unfold readBack
  have hmax := hwidth.eq
  cases hsign : s.enc.sign with
  | unsigned =>
      simp only [rawRange, hsign] at hlo hhi
      simp only [reduceCtorEq, if_false, false_and]
      rw [hx]
      exact Int.emod_eq_of_lt hlo (by omega)
  | signed =>
      simp only [rawRange, hsign] at hlo hhi
      simp only [if_true, true_and]
      have hpow : (2 : ℤ) ^ s.enc.bitLength = 2 * 2 ^ (s.enc.bitLength - 1) := by
        rw [← pow_succ', Nat.sub_add_cancel hpos]
      rw [BitVec.toInt_ofNat', hx]
      by_cases hnarrow : s.enc.bitLength < 8
      · have hw : width = 8 := by omega
        subst hw
        have hbyte : (2 : ℤ) ^ s.enc.bitLength ≤ 2 ^ 7 := pow_le_pow_right₀ (by decide) (by omega)
        have hmod : raw % 2 ^ s.enc.bitLength = if raw < 0 then raw + 2 ^ s.enc.bitLength else raw := by
          by_cases hneg : raw < 0
          · rw [if_pos hneg, ← Int.add_emod_right]
            exact Int.emod_eq_of_lt (by omega) (by omega)
          · rw [if_neg hneg]
            exact Int.emod_eq_of_lt (by omega) (by omega)
        rw [hmod]
        simp only [hnarrow, true_and]
        apply Int.bmod_eq_of_le_mul_two
        · split <;> omega
        · split <;> omega
      · have hw : width = s.enc.bitLength := by omega
        rw [if_neg (by omega), hw]
        have hcast : ((2 : ℤ) ^ s.enc.bitLength) = ((2 ^ s.enc.bitLength : ℕ) : ℤ) := by push_cast; rfl
        rw [hcast, Int.emod_bmod]
        apply Int.bmod_eq_of_le_mul_two
        · push_cast
          omega
        · push_cast
          omega

/-- **What the gateway reads of an unmuxed number**: nothing of one of 64 bits. -/
theorem Deployed.rawValue_frameData (h : Deployed spec fm c packets packet)
    (l : Loading spec fm.2 packets packet types entry) {v : Struct} (hsp : sp ∈ places fm.2)
    (hmuxed : sp.1.muxed = false) (hnumber : sp.1.bitfieldType = none)
    (hflag : ∀ value, sp.1.kind = some (.boolean value) → v ⟨sp.2, none⟩ = 0 ∨ v ⟨sp.2, none⟩ = 1)
    (hlo : (rawRange sp.1.enc).1 ≤ v ⟨sp.2, none⟩) (hhi : v ⟨sp.2, none⟩ ≤ (rawRange sp.1.enc).2) :
    rawValue (c.frameData v) (configOf entry sp) =
      if sp.1.enc.bitLength = 64 then some none else some (some (readBack sp.1.enc (v ⟨sp.2, none⟩))) := by
  obtain ⟨width, hwidth⟩ := signalConvType_number (l.rendered sp hsp).conversion hnumber
  obtain ⟨x, hx, hvalue⟩ := h.leBytes_frameData l hsp hmuxed hnumber hflag hwidth
  have hfits := (h.valid.message h.message).signals sp.1 (mem_places hsp)
  rw [rawValue_eq hwidth hx, decode_eq_readBack hwidth hfits.ok.length_pos hlo hhi hvalue]
  have hmax := hwidth.eq
  have hwide : width = 64 ↔ sp.1.enc.bitLength = 64 := by omega
  simp only [hwide]

end Lhre.Bevo
