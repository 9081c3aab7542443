import Lhre.Bevo.Cand
import Lhre.Theory.BitLayout
import Lhre.Theory.ListPass

/-!
# `Bevo.Gateway` — what the gateway does with a payload

`process_raw_data` is a run of passes, one for each signal of the packet. Here is what each pass touches, what it reads
of the payload, and where the generated dispatch takes what it has read.

## Contents
- **Frames.** `SignalConfig.scalars`, `SignalConfig.elements`: what a pass touches.
- **Reading.** `leBytes_eq_some`: the bytes of a number, bit by bit.
- **Dispatch.** What `generateMapping` knows of the fields in the table.
-/

namespace Lhre.Bevo

open CanSpec Codegen BitLayout

/-! ## Frames -/

/-- The scalar fields a signal is written to. -/
def SignalConfig.scalars (s : SignalConfig) : List String :=
  if s.convType = "bitfield" then (s.bitfieldEncoding.getD []).map BitfieldMapping.protobufField
  else match s.protobuf with
  | none => []
  | some pb => if pb.repeated then [] else [pb.fieldName]

/-- The array elements a signal is written to in a frame whose elements start at an offset. -/
def SignalConfig.elements (s : SignalConfig) (offset : ℕ) : List (String × ℕ) :=
  if s.convType = "bitfield" then []
  else match s.protobuf with
  | none => []
  | some pb => if pb.repeated then (pb.fieldIndex.map fun i => (pb.fieldName, i + offset)).toList else []

/-- An element of an array; what is past the end is still zero. -/
def Snapshot.element (data : Snapshot) (name : String) (i : ℕ) : ℚ := (data.array name).getD i 0

theorem getD_setVecIndex (v : List ℚ) (i : ℕ) (val : ℚ) (j : ℕ) :
    (setVecIndex v i val).getD j 0 = if j = i then val else v.getD j 0 := by
  unfold setVecIndex
  simp only [List.getD_eq_getElem?_getD]
  rw [List.getElem?_set]
  have hlong : i < (if v.length ≤ i then v ++ List.replicate (i + 1 - v.length) 0 else v).length := by
    split
    · rw [List.length_append, List.length_replicate]
      omega
    · omega
  by_cases hji : j = i
  · rw [if_pos hji.symm, if_pos hji, if_pos (hji ▸ hlong)]
    rfl
  · rw [if_neg (Ne.symm hji), if_neg hji]
    split
    · by_cases hj : j < v.length
      · rw [List.getElem?_append_left hj]
      · rw [List.getElem?_append_right (by omega), List.getElem?_replicate, List.getElem?_eq_none (by omega)]
        split <;> rfl
    · rfl

section Frames

variable {m : Mapping} {data data' : Snapshot} {f : String}

theorem updateProtoBool_array (name : String) (val : Bool) : (updateProtoBool m data name val).array = data.array := by
  unfold updateProtoBool
  split <;> rfl

theorem updateProtoBool_scalar_of_ne {name : String} (h : f ≠ name) (val : Bool) :
    (updateProtoBool m data name val).scalar f = data.scalar f := by
  unfold updateProtoBool
  split
  · exact Function.update_of_ne h _ _
  · rfl

theorem updateProtoField_element {name : String} {val : ℚ} {config : ProtobufMapping} {i j : ℕ}
    (hindex : config.fieldIndex = some i) (h : (f, j) ≠ (name, i)) :
    (updateProtoField m data name val config).element f j = data.element f j := by
  unfold updateProtoField
  split
  · simp only [hindex]
    split
    · show (Function.update data.array name (setVecIndex (data.array name) i val) f).getD j 0 = (data.array f).getD j 0
      by_cases hf : f = name
      · subst hf
        have hj : j ≠ i := fun heq => h (by rw [heq])
        rw [Function.update_self, getD_setVecIndex, if_neg hj]
      · rw [Function.update_of_ne hf]
    · rfl
  · split <;> rfl

theorem updateProtoField_scalar_of_ne {name : String} (h : f ≠ name) (val : ℚ) (config : ProtobufMapping) :
    (updateProtoField m data name val config).scalar f = data.scalar f := by
  unfold updateProtoField
  split
  · split
    · rfl
    · split <;> rfl
  · split
    · rfl
    · exact Function.update_of_ne h _ _

theorem updateProtoField_array_of_scalar {name : String} {val : ℚ} {config : ProtobufMapping}
    (h : config.repeated = false) : (updateProtoField m data name val config).array = data.array := by
  unfold updateProtoField
  rw [h]
  simp only [Bool.false_eq_true, if_false]
  split <;> rfl

theorem updateProtoField_scalar_of_repeated {name : String} {val : ℚ} {config : ProtobufMapping}
    (h : config.repeated = true) : (updateProtoField m data name val config).scalar = data.scalar := by
  unfold updateProtoField
  rw [if_pos h]
  split
  · rfl
  · split <;> rfl

theorem processBits_array {payload : List U8} {s : SignalConfig} (h : processBits m payload s data = some data') :
    data'.array = data.array := by
  refine ListPass.foldlM_invariant (P := fun d => d.array = data.array) ?_ rfl h
  intro d bit d' _ hd hstep
  obtain ⟨isSet, -, rfl⟩ := Option.map_eq_some_iff.mp hstep
  rw [updateProtoBool_array, hd]

theorem processBits_scalar {payload : List U8} {s : SignalConfig} (h : processBits m payload s data = some data')
    (hf : f ∉ (s.bitfieldEncoding.getD []).map BitfieldMapping.protobufField) : data'.scalar f = data.scalar f := by
  refine ListPass.foldlM_invariant (P := fun d => d.scalar f = data.scalar f) ?_ rfl h
  intro d bit d' hbit hd hstep
  obtain ⟨isSet, -, rfl⟩ := Option.map_eq_some_iff.mp hstep
  rw [updateProtoBool_scalar_of_ne, hd]
  rintro rfl
  exact hf (List.mem_map.mpr ⟨bit, hbit, rfl⟩)

variable {f32 : ℚ → ℚ} {payload : List U8} {span k : ℕ} {s : SignalConfig}

/-- **A signal is written to its own scalars** alone. -/
theorem processSignal_scalar (h : processSignal f32 m payload span k data s = some data') (hf : f ∉ s.scalars) :
    data'.scalar f = data.scalar f := by
  unfold processSignal at h
  unfold SignalConfig.scalars at hf
  split at h
  · rw [Option.some.inj h]
  · by_cases hbits : s.convType = "bitfield"
    · rw [if_pos hbits] at h hf
      exact processBits_scalar h hf
    · rw [if_neg hbits] at h hf
      obtain ⟨raw, -, rfl⟩ := Option.map_eq_some_iff.mp h
      cases raw with
      | none => rfl
      | some raw =>
          show (writeValue m span k s (f32 (raw * s.precision)) data).scalar f = data.scalar f
          unfold writeValue
          cases hpb : s.protobuf with
          | none => rfl
          | some pb =>
              by_cases hrep : pb.repeated = true
              · show (if pb.repeated = true then _ else _ : Snapshot).scalar f = data.scalar f
                rw [if_pos hrep]
                cases pb.fieldIndex with
                | none => rfl
                | some i =>
                    refine congrFun (updateProtoField_scalar_of_repeated ?_) f
                    exact hrep
              · show (if pb.repeated = true then _ else _ : Snapshot).scalar f = data.scalar f
                rw [if_neg hrep]
                apply updateProtoField_scalar_of_ne
                simpa [hpb, hrep] using hf

/-- **A signal is written to its own elements** alone. -/
theorem processSignal_element (h : processSignal f32 m payload span k data s = some data') {j : ℕ}
    (hf : (f, j) ∉ s.elements (k * span)) : data'.element f j = data.element f j := by
  unfold processSignal at h
  unfold SignalConfig.elements at hf
  split at h
  · rw [Option.some.inj h]
  · by_cases hbits : s.convType = "bitfield"
    · rw [if_pos hbits] at h
      unfold Snapshot.element
      rw [processBits_array h]
    · rw [if_neg hbits] at h hf
      obtain ⟨raw, -, rfl⟩ := Option.map_eq_some_iff.mp h
      cases raw with
      | none => rfl
      | some raw =>
          show (writeValue m span k s (f32 (raw * s.precision)) data).element f j = data.element f j
          unfold writeValue
          cases hpb : s.protobuf with
          | none => rfl
          | some pb =>
              by_cases hrep : pb.repeated = true
              · show (if pb.repeated = true then _ else _ : Snapshot).element f j = data.element f j
                rw [if_pos hrep]
                cases hi : pb.fieldIndex with
                | none => rfl
                | some i =>
                    refine updateProtoField_element rfl ?_
                    simpa [hpb, hrep, hi] using hf
              · show (if pb.repeated = true then _ else _ : Snapshot).element f j = data.element f j
                rw [if_neg hrep]
                unfold Snapshot.element
                rw [updateProtoField_array_of_scalar (by simpa using hrep)]

end Frames

/-! ## Reading -/

/-- **The bytes of a number**: those of the payload, the first the lowest. -/
theorem leBytes_eq_some (payload : List U8) (src : ℕ → U8) (start n : ℕ)
    (h : ∀ i, i < n → payload[start + i]? = some (src (start + i))) :
    ∃ x, leBytes payload start n = some x ∧ x < 2 ^ (8 * n) ∧
      ∀ j, j < 8 * n → x.testBit j = BitLayout.bitAt src (8 * start + j) := by
  induction n generalizing start with
  | zero => exact ⟨0, rfl, by simp, fun j hj => absurd hj (by omega)⟩
  | succ n ih =>
      have hfirst : payload[start]? = some (src start) := h 0 (by omega)
      obtain ⟨x, hx, hlt, hbits⟩ := ih (start + 1) (by
        intro i hi
        rw [Nat.add_right_comm, Nat.add_assoc]
        exact h (i + 1) (by omega))
      refine ⟨(src start).toNat + 256 * x, ?_, ?_, ?_⟩
      · rw [leBytes, hfirst, hx]
        rfl
      · have hbyte := (src start).isLt
        have hpow : 2 ^ (8 * (n + 1)) = 256 * 2 ^ (8 * n) := by
          rw [Nat.mul_succ, Nat.pow_add, Nat.mul_comm]
        omega
      · intro j hj
        have hbyte : (src start).toNat < 2 ^ 8 := (src start).isLt
        have hsum : (src start).toNat + 256 * x = 2 ^ 8 * x + (src start).toNat := by omega
        rw [hsum, Nat.testBit_two_pow_mul_add x hbyte]
        by_cases hlow : j < 8
        · rw [if_pos hlow, BitVec.testBit_toNat]
          unfold BitLayout.bitAt
          have hdiv : (8 * start + j) / 8 = start := by omega
          have hmod : (8 * start + j) % 8 = j := by omega
          rw [hdiv, hmod]
        · rw [if_neg hlow, hbits (j - 8) (by omega)]
          congr 1
          omega

/-! ## Dispatch -/

/-- A scalar entry of the table. -/
def IsScalar (s : SignalJson) (pb : ProtobufJson) : Prop :=
  s.convType ≠ "bitfield" ∧ s.protobuf = some pb ∧ pb.repeated = false

/-- What the passes over some signals have learnt. -/
structure Learnt (l : List SignalJson) (m : Mapping) : Prop where
  scalar : ∀ name type, Dict.get? m.scalarSignals name = some type →
    ∃ s ∈ l, ∃ pb, IsScalar s pb ∧ pb.field = name ∧ lower pb.type = type
  scalar_known : ∀ s ∈ l, ∀ pb, IsScalar s pb → ∃ type, Dict.get? m.scalarSignals pb.field = some type
  repeated : ∀ s ∈ l, ∀ pb, s.convType ≠ "bitfield" → s.protobuf = some pb → pb.repeated = true → pb.field ∈ m.repSignals
  bits : ∀ s ∈ l, s.convType = "bitfield" → ∀ bit ∈ s.bitfieldEncoding.getD [], bit.protobufField ∈ m.boolSignals

theorem Learnt.nil : Learnt [] {} where
  scalar := fun name type h => absurd h (by simp)
  scalar_known := fun _ hs => absurd hs List.not_mem_nil
  repeated := fun _ hs => absurd hs List.not_mem_nil
  bits := fun _ hs => absurd hs List.not_mem_nil

/-- The fields of bits, after a pass. -/
theorem Mapping.add_boolSignals (m : Mapping) (s : SignalJson) :
    (m.add s).boolSignals =
      if s.convType = "bitfield" then m.boolSignals ++ (s.bitfieldEncoding.getD []).map BitJson.protobufField
      else m.boolSignals := by
  unfold Mapping.add
  split
  · rfl
  · split
    · rfl
    · split <;> rfl

/-- The repeated fields, after a pass. -/
theorem Mapping.add_repSignals (m : Mapping) (s : SignalJson) (name : String) :
    name ∈ (m.add s).repSignals ↔ name ∈ m.repSignals ∨
      s.convType ≠ "bitfield" ∧ ∃ pb, s.protobuf = some pb ∧ pb.repeated = true ∧ pb.field = name := by
  unfold Mapping.add
  by_cases hbits : s.convType = "bitfield"
  · simp [hbits]
  · cases hpb : s.protobuf with
    | none => simp [hbits]
    | some pb =>
        by_cases hrep : pb.repeated = true
        · have hadd : (m.add s).repSignals = m.repSignals ++ [pb.field] := by
            simp [Mapping.add, hbits, hpb, hrep]
          unfold Mapping.add at hadd
          rw [hpb] at hadd
          rw [hadd, List.mem_append, List.mem_singleton]
          apply or_congr_right
          constructor
          · rintro rfl
            exact ⟨hbits, pb, rfl, hrep, rfl⟩
          · rintro ⟨-, pb', hpb', -, hname⟩
            rw [Option.some.inj hpb', hname]
        · simp [hbits, hrep]

/-- The scalar fields, after a pass. -/
theorem Mapping.add_scalarSignals (m : Mapping) (s : SignalJson) (name : String) :
    (∃ pb, IsScalar s pb ∧ pb.field = name ∧ Dict.get? (m.add s).scalarSignals name = some (lower pb.type)) ∨
      (¬ ∃ pb, IsScalar s pb ∧ pb.field = name) ∧
        Dict.get? (m.add s).scalarSignals name = Dict.get? m.scalarSignals name := by
  unfold Mapping.add IsScalar
  by_cases hbits : s.convType = "bitfield"
  · right
    simp [hbits]
  · cases hpb : s.protobuf with
    | none =>
        right
        simp [hbits]
    | some pb =>
        by_cases hrep : pb.repeated = true
        · right
          simp [hbits, hrep]
        · by_cases hname : pb.field = name
          · left
            refine ⟨pb, ⟨hbits, rfl, by simpa using hrep⟩, hname, ?_⟩
            simp [hbits, hrep, hname]
          · right
            simp [hbits, hrep, hname, Dict.get?_set_of_ne (Ne.symm hname)]

/-- **One pass** learns its signal and forgets nothing. -/
theorem Learnt.add {l : List SignalJson} {m : Mapping} (h : Learnt l m) (s : SignalJson) :
    Learnt (l ++ [s]) (m.add s) where
  scalar := by
    intro name type hget
    rcases m.add_scalarSignals s name with ⟨pb, hpb, hname, hnew⟩ | ⟨-, hkept⟩
    · rw [hnew, Option.some.injEq] at hget
      exact ⟨s, by simp, pb, hpb, hname, hget⟩
    · rw [hkept] at hget
      obtain ⟨s', hs', hrest⟩ := h.scalar name type hget
      exact ⟨s', List.mem_append_left _ hs', hrest⟩
  scalar_known := by
    intro s' hs' pb hpb
    rcases m.add_scalarSignals s pb.field with ⟨pb', -, -, hnew⟩ | ⟨hnot, hkept⟩
    · exact ⟨_, hnew⟩
    · rw [hkept]
      rcases List.mem_append.mp hs' with hs' | hs'
      · exact h.scalar_known s' hs' pb hpb
      · rw [List.mem_singleton.mp hs'] at hpb
        exact absurd ⟨pb, hpb, rfl⟩ hnot
  repeated := by
    intro s' hs' pb hbits hpb hrep
    rw [Mapping.add_repSignals]
    rcases List.mem_append.mp hs' with hs' | hs'
    · left
      exact h.repeated s' hs' pb hbits hpb hrep
    · right
      rw [List.mem_singleton.mp hs'] at hbits hpb
      exact ⟨hbits, pb, hpb, hrep, rfl⟩
  bits := by
    intro s' hs' hbits bit hbit
    rw [Mapping.add_boolSignals]
    rcases List.mem_append.mp hs' with hs' | hs'
    · have hin := h.bits s' hs' hbits bit hbit
      split
      · exact List.mem_append_left _ hin
      · exact hin
    · rw [List.mem_singleton.mp hs'] at hbits hbit
      rw [if_pos hbits]
      exact List.mem_append_right _ (List.mem_map.mpr ⟨bit, hbit, rfl⟩)

/-- **The dispatch knows every field of the table**, and has the type of each scalar from one of its entries. -/
theorem learnt_generateMapping (packets : List PacketJson) :
    Learnt (packets.flatMap PacketJson.bytes) (generateMapping packets) := by
  unfold generateMapping
  have hrun : ∀ (l done : List SignalJson) (m : Mapping), Learnt done m → Learnt (done ++ l) (l.foldl Mapping.add m) := by
    intro l
    induction l with
    | nil =>
        intro done m h
        rw [List.append_nil]
        exact h
    | cons s l ih =>
        intro done m h
        rw [List.append_cons]
        exact ih _ _ (h.add s)
  exact hrun _ [] {} Learnt.nil

end Lhre.Bevo
