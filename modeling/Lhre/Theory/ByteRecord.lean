import Lhre.Theory.ByteFile

/-!
# `Theory.ByteRecord` — records of numbers

A record is a buffer of zeros into which numbers are written at given places; a number that does not fit is refused. Where the
numbers stand one behind the other and fill the buffer, the record is their bytes in a row, and reads back as the numbers.

## Contents
- **Writing.** `Write`, `writeAll`, `record`.
- **A row of numbers.** `encode`, `inRow`, `record_inRow`.
- **Reading.** `readNums`, `readNums_encode`.
-/

namespace ByteFile

/-! ## Writing -/

/-- A number, the place it is written to, and its width in bytes. -/
structure Write where
  value : ℤ
  place : ℕ
  width : ℕ

/-- Numbers written into a buffer, low byte first; `none` where one is out of range. -/
def writeAll (buffer : List (BitVec 8)) : List Write → Option (List (BitVec 8))
  | [] => some buffer
  | w :: rest =>
      if 0 ≤ w.value ∧ w.value < 256 ^ w.width ∧ w.place + w.width ≤ buffer.length then
        writeAll (copy buffer w.place (le w.width w.value.toNat)) rest
      else none

/-- A buffer of zeros with numbers written into it. -/
def record (size : ℕ) (writes : List Write) : Option (List (BitVec 8)) := writeAll (List.replicate size 0) writes

/-! ## A row of numbers -/

/-- The bytes of numbers in a row; each is given with its width. -/
def encode (nums : List (ℕ × ℕ)) : List (BitVec 8) := (nums.map fun (w, v) => le w v).flatten

@[simp] theorem encode_nil : encode [] = [] := rfl

@[simp] theorem encode_cons (w v : ℕ) (nums : List (ℕ × ℕ)) : encode ((w, v) :: nums) = le w v ++ encode nums := rfl

/-- Numbers written one behind the other. -/
def inRow (cursor : ℕ) : List (ℕ × ℕ) → List Write
  | [] => []
  | (w, v) :: nums => ⟨v, cursor, w⟩ :: inRow (cursor + w) nums

/-- Every number fits in its width. -/
def Fit (nums : List (ℕ × ℕ)) : Prop := ∀ n ∈ nums, n.2 < 256 ^ n.1

theorem length_encode (nums : List (ℕ × ℕ)) : (encode nums).length = (nums.map Prod.fst).sum := by
  induction nums with
  | nil => rfl
  | cons n nums ih =>
      obtain ⟨w, v⟩ := n
      rw [encode_cons, List.length_append, length_le, ih, List.map_cons, List.sum_cons]

theorem writeAll_inRow (nums : List (ℕ × ℕ)) {buffer : List (BitVec 8)} {cursor : ℕ} (hfit : Fit nums)
    (hroom : cursor + (encode nums).length ≤ buffer.length) :
    writeAll buffer (inRow cursor nums) = some (copyAll buffer cursor (nums.map fun (w, v) => le w v)) := by
  induction nums generalizing buffer cursor with
  | nil => rfl
  | cons n nums ih =>
      obtain ⟨w, v⟩ := n
      have hv : v < 256 ^ w := hfit (w, v) List.mem_cons_self
      rw [encode_cons, List.length_append, length_le] at hroom
      have hblock : cursor + (le w v).length ≤ buffer.length := by
        rw [length_le]
        omega
      have hinside : 0 ≤ (v : ℤ) ∧ (v : ℤ) < 256 ^ w ∧ cursor + w ≤ buffer.length :=
        ⟨Int.natCast_nonneg v, by exact_mod_cast hv, by omega⟩
      rw [inRow, writeAll, if_pos hinside, Int.toNat_natCast, ih (fun m hm => hfit m (List.mem_cons_of_mem _ hm)),
        List.map_cons, copyAll, length_le]
      rw [length_copy hblock]
      omega

/-- **Numbers in a row** that fill a buffer are its bytes. -/
theorem record_inRow {nums : List (ℕ × ℕ)} {size : ℕ} (hfit : Fit nums) (hsize : (nums.map Prod.fst).sum = size) :
    record size (inRow 0 nums) = some (encode nums) := by
  have hlen : (encode nums).length = size := (length_encode nums).trans hsize
  have hroom : 0 + (encode nums).length ≤ (List.replicate size (0 : BitVec 8)).length := by
    rw [List.length_replicate]
    omega
  have hcopy : copyAll (List.replicate size 0) 0 (nums.map fun (w, v) => le w v) =
      copy (List.replicate size 0) 0 (encode nums) :=
    copyAll_eq _ _ _ hroom
  rw [record, writeAll_inRow nums hfit hroom, hcopy, copy_of_fits hroom]
  rw [hlen, Nat.zero_add, List.drop_of_length_le (by simp), List.append_nil, List.take_zero, List.nil_append]

/-! ## Reading -/

/-- Numbers of the given widths from the beginning of some bytes. -/
def readNums : List ℕ → List (BitVec 8) → List ℕ
  | [], _ => []
  | w :: widths, bytes => ofLe (bytes.take w) :: readNums widths (bytes.drop w)

/-- **Numbers read back** are those that were written. -/
theorem readNums_encode {nums : List (ℕ × ℕ)} (hfit : Fit nums) (rest : List (BitVec 8)) :
    readNums (nums.map Prod.fst) (encode nums ++ rest) = nums.map Prod.snd := by
  induction nums with
  | nil => rfl
  | cons n nums ih =>
      obtain ⟨w, v⟩ := n
      have hv : v < 256 ^ w := hfit (w, v) List.mem_cons_self
      have htake : (le w v ++ (encode nums ++ rest)).take w = le w v := List.take_left' (length_le w v)
      have hdrop : (le w v ++ (encode nums ++ rest)).drop w = encode nums ++ rest := List.drop_left' (length_le w v)
      rw [List.map_cons, List.map_cons, encode_cons, List.append_assoc, readNums, htake, hdrop, ofLe_le, Nat.mod_eq_of_lt hv,
        ih fun m hm => hfit m (List.mem_cons_of_mem _ hm)]

end ByteFile
