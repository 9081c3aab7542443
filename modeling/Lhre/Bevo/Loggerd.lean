import Lhre.Bevo.Cand

/-!
# `Bevo.Loggerd` — the columns of the log

The part of `apps/BEVO/loggerd/main.rs` that derives the length of every repeated field from `can.json`, and the columns
that the header of the log has for an array.

## Contents
- **Lengths.** `cells`, `cellsPerFrame`, `repeatedFieldLengths`.
- **Columns.** `arrayColumns`.
- **`exists_column`**: the cells of a packet have columns for all of its frames.
-/

namespace Lhre.Bevo

open CanSpec Codegen

/-! ## Lengths -/

/-- The cells of one frame: a repeated field and an index in it. -/
def cells (packet : PacketConfig) : List (String × ℕ) :=
  packet.bytes.filterMap fun signal =>
    signal.protobuf.bind fun pb => if pb.repeated then pb.fieldIndex.map fun index => (pb.fieldName, index) else none

/-- `cells_per_frame`, for each repeated field of a packet. -/
def cellsPerFrame (packet : PacketConfig) : Dict String ℕ := Dict.maxima Prod.fst (fun cell => cell.2 + 1) (cells packet)

/-- `lengths.entry(name).or_insert(length)`. -/
def orInsert (name : String) (length : ℕ) (lengths : Dict String ℕ) : Dict String ℕ :=
  if (Dict.get? lengths name).isSome then lengths else Dict.set name length lengths

/-- `repeated_field_lengths`. -/
def repeatedFieldLengths (packets : List PacketConfig) : Dict String ℕ :=
  let totals := packets.flatMap fun packet =>
    (cellsPerFrame packet).map fun (name, span) => (name, max packet.quantity 1 * span)
  orInsert "gps_precise" 6 (orInsert "gps_imu" 3 (orInsert "gps" 2 (Dict.maxima Prod.fst Prod.snd totals)))

/-! ## Columns -/

/-- The columns of an empty array that `expand_repeated_arrays` has grown: its key is `leaf`, its prefix `path`. -/
def arrayColumns (lengths : Dict String ℕ) (path leaf : String) : List String :=
  (List.range ((Dict.get? lengths leaf).getD 0)).map fun index => s!"{path}[{index}]"

/-- A length that is there is kept. -/
theorem get?_orInsert {lengths : Dict String ℕ} {name : String} {m : ℕ} (h : Dict.get? lengths name = some m)
    (other : String) (length : ℕ) : Dict.get? (orInsert other length lengths) name = some m := by
  unfold orInsert
  split
  · exact h
  · rename_i hnone
    rw [Dict.get?_set_of_ne, h]
    rintro rfl
    rw [h] at hnone
    exact absurd rfl hnone

/-- **The cells of a packet have columns** for all of its frames. -/
theorem exists_column {packets : List PacketConfig} {packet : PacketConfig} (hpacket : packet ∈ packets) {name : String}
    {index : ℕ} (hcell : (name, index) ∈ cells packet) {i : ℕ} (hi : i < max packet.quantity 1 * (index + 1))
    (path : String) : s!"{path}[{i}]" ∈ arrayColumns (repeatedFieldLengths packets) path name := by
  obtain ⟨span, hspan, hindex⟩ := Dict.le_maxima Prod.fst (fun cell : String × ℕ => cell.2 + 1) hcell
  have hspan' : (name, span) ∈ cellsPerFrame packet :=
    (Dict.mem_iff_get? (Dict.nodup_keys_collect Dict.nodup_keys_nil _)).mpr hspan
  have htotal : (name, max packet.quantity 1 * span) ∈ packets.flatMap fun packet =>
      (cellsPerFrame packet).map fun (name, span) => (name, max packet.quantity 1 * span) :=
    List.mem_flatMap.mpr ⟨packet, hpacket, List.mem_map.mpr ⟨_, hspan', rfl⟩⟩
  obtain ⟨m, hm, hle⟩ := Dict.le_maxima Prod.fst Prod.snd htotal
  have hget : Dict.get? (repeatedFieldLengths packets) name = some m :=
    get?_orInsert (get?_orInsert (get?_orInsert hm _ _) _ _) _ _
  unfold arrayColumns
  rw [hget, Option.getD_some]
  refine List.mem_map.mpr ⟨i, List.mem_range.mpr ?_, rfl⟩
  have hmul : max packet.quantity 1 * (index + 1) ≤ max packet.quantity 1 * span := Nat.mul_le_mul_left _ hindex
  exact lt_of_lt_of_le hi (le_trans hmul hle)

end Lhre.Bevo
