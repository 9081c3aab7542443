import Mathlib.Tactic

/-!
# `Theory.ByteFile` — numbers as bytes, and blocks copied into a file

A file is a list of bytes. A number is written low byte first; a block is copied over what was there. What is read back at
a place is the block that was copied over it last.

## Contents
- **Numbers.** `le`, `ofLe`, `ofLe_le`.
- **Parts of a file.** `slice`, with `slice_append`, `slice_flatten`.
- **Copies.** `copy`, with `slice_copy` (inside the block) and `slice_copy_of_disjoint`; `copyAll`, one block after another, and
  `placed`, where each of them is.
-/

namespace ByteFile

/-! ## Numbers -/

/-- The `w` low bytes of a number, low byte first. -/
def le : ℕ → ℕ → List (BitVec 8)
  | 0, _ => []
  | w + 1, v => BitVec.ofNat 8 v :: le w (v / 256)

/-- The number that bytes stand for, low byte first. -/
def ofLe : List (BitVec 8) → ℕ
  | [] => 0
  | b :: rest => b.toNat + 256 * ofLe rest

@[simp] theorem length_le (w v : ℕ) : (le w v).length = w := by
  induction w generalizing v with
  | zero => rfl
  | succ w ih => rw [le, List.length_cons, ih]

/-- **A number read back** is what fits in its bytes. -/
theorem ofLe_le (w v : ℕ) : ofLe (le w v) = v % 256 ^ w := by
  induction w generalizing v with
  | zero => rw [le, ofLe, pow_zero, Nat.mod_one]
  | succ w ih =>
      have hpow : 256 ^ (w + 1) = 256 * 256 ^ w := pow_succ' 256 w
      rw [le, ofLe, ih, BitVec.toNat_ofNat, hpow]
      exact Nat.mod_mul.symm

/-! ## Parts of a file -/

section Slice

variable {α : Type*}

/-- The `n` entries from a place on. -/
def slice (file : List α) (start n : ℕ) : List α := (file.drop start).take n

@[simp] theorem slice_self (file : List α) : slice file 0 file.length = file := by
  unfold slice
  rw [List.drop_zero, List.take_length]

theorem slice_append_left (a b : List α) : slice (a ++ b) 0 a.length = a := by
  unfold slice
  rw [List.drop_zero, List.take_left]

/-- Behind a list, the other one starts. -/
theorem slice_append_right (a b : List α) (start n : ℕ) : slice (a ++ b) (a.length + start) n = slice b start n := by
  unfold slice
  rw [List.drop_append, List.drop_eq_nil_of_le (Nat.le_add_right _ _), List.nil_append, Nat.add_sub_cancel_left]

/-- A part of a list is the same part of what the list is continued to. -/
theorem slice_append_of_le {a b : List α} {start n : ℕ} (h : start + n ≤ a.length) :
    slice (a ++ b) start n = slice a start n := by
  unfold slice
  rw [List.drop_append_of_le_length (by omega), List.take_append_of_le_length (by rw [List.length_drop]; omega)]

theorem slice_slice {file : List α} {start n start' n' : ℕ} (h : start' + n' ≤ n) :
    slice (slice file start n) start' n' = slice file (start + start') n' := by
  unfold slice
  rw [List.drop_take, List.drop_drop, List.take_take, Nat.min_eq_left (by omega)]

/-- A part of a list is two parts, one behind the other. -/
theorem slice_add (file : List α) (start m n : ℕ) :
    slice file start (m + n) = slice file start m ++ slice file (start + m) n := by
  unfold slice
  rw [List.take_add, List.drop_drop]

/-- **A block in a row of blocks** starts where those before it end. -/
theorem slice_flatten {blocks : List (List α)} {i : ℕ} (hi : i < blocks.length) :
    slice blocks.flatten (blocks.take i).flatten.length blocks[i].length = blocks[i] := by
  have hsplit : blocks.flatten = (blocks.take i).flatten ++ (blocks[i] ++ (blocks.drop (i + 1)).flatten) := by
    conv_lhs => rw [← List.take_append_drop i blocks, List.flatten_append, List.drop_eq_getElem_cons hi, List.flatten_cons]
  have hbehind := slice_append_right (blocks.take i).flatten (blocks[i] ++ (blocks.drop (i + 1)).flatten) 0 blocks[i].length
  rw [← hsplit, Nat.add_zero, slice_append_left] at hbehind
  exact hbehind

end Slice

/-! ## Copies -/

section Copy

variable {α : Type*}

/-- A block copied over a file, as far as the file reaches. -/
def copy (file : List α) (start : ℕ) (block : List α) : List α :=
  file.take start ++ block.take (file.length - start) ++ file.drop (start + block.length)

variable {file block : List α} {start : ℕ}

theorem copy_of_fits (h : start + block.length ≤ file.length) :
    copy file start block = file.take start ++ (block ++ file.drop (start + block.length)) := by
  have hblock : block.take (file.length - start) = block := List.take_of_length_le (by omega)
  unfold copy
  rw [hblock, List.append_assoc]

@[simp] theorem length_copy (h : start + block.length ≤ file.length) : (copy file start block).length = file.length := by
  rw [copy_of_fits h, List.length_append, List.length_append, List.length_take, List.length_drop]
  omega

/-- **Inside the block** a file reads as the block. -/
theorem slice_copy (h : start + block.length ≤ file.length) {place n : ℕ} (hplace : place + n ≤ block.length) :
    slice (copy file start block) (start + place) n = slice block place n := by
  have hlen : (file.take start).length = start := by
    rw [List.length_take]
    omega
  rw [copy_of_fits h]
  have := slice_append_right (file.take start) (block ++ file.drop (start + block.length)) place n
  rw [hlen] at this
  rw [this, slice_append_of_le hplace]

/-- **The block** is where it was copied to. -/
theorem slice_copy_self (h : start + block.length ≤ file.length) :
    slice (copy file start block) start block.length = block := by
  have hinside : slice (copy file start block) (start + 0) block.length = slice block 0 block.length :=
    slice_copy h (by omega)
  rwa [Nat.add_zero, slice_self] at hinside

/-- **Outside the block** a file reads as before. -/
theorem slice_copy_of_disjoint (h : start + block.length ≤ file.length) {place n : ℕ}
    (hplace : place + n ≤ start ∨ start + block.length ≤ place) :
    slice (copy file start block) place n = slice file place n := by
  have hlen : (file.take start).length = start := by
    rw [List.length_take]
    omega
  rw [copy_of_fits h]
  rcases hplace with hbefore | hafter
  · rw [slice_append_of_le (by omega), ← slice_append_of_le (b := file.drop start) (by omega), List.take_append_drop]
  · obtain ⟨d, rfl⟩ := Nat.exists_eq_add_of_le hafter
    have hright := slice_append_right (file.take start ++ block) (file.drop (start + block.length)) d n
    rw [List.length_append, hlen, List.append_assoc] at hright
    rw [hright]
    unfold slice
    rw [List.drop_drop]

/-- Blocks copied one after another. -/
def copyAll (file : List α) (cursor : ℕ) : List (List α) → List α
  | [] => file
  | block :: rest => copyAll (copy file cursor block) (cursor + block.length) rest

/-- **Blocks one after another** are one block. -/
theorem copyAll_eq (blocks : List (List α)) (file : List α) (cursor : ℕ)
    (h : cursor + blocks.flatten.length ≤ file.length) : copyAll file cursor blocks = copy file cursor blocks.flatten := by
  induction blocks generalizing file cursor with
  | nil =>
      rw [copyAll, copy_of_fits h, List.flatten_nil, List.nil_append, List.length_nil, Nat.add_zero, List.take_append_drop]
  | cons block rest ih =>
      rw [List.flatten_cons, List.length_append] at h
      have hblock : cursor + block.length ≤ file.length := by omega
      have hrest : cursor + block.length + rest.flatten.length ≤ (copy file cursor block).length := by
        rw [length_copy hblock]
        omega
      have htake : (copy file cursor block).take (cursor + block.length) = file.take cursor ++ block := by
        rw [copy_of_fits hblock, ← List.append_assoc]
        refine List.take_left' ?_
        rw [List.length_append, List.length_take]
        omega
      have hdrop (n : ℕ) : (copy file cursor block).drop (cursor + block.length + n) =
          file.drop (cursor + block.length + n) := by
        rw [copy_of_fits hblock, ← List.append_assoc, ← List.drop_drop, List.drop_left', List.drop_drop]
        rw [List.length_append, List.length_take]
        omega
      have hall : cursor + (block ++ rest.flatten).length ≤ file.length := by
        rw [List.length_append]
        omega
      rw [copyAll, ih _ _ hrest, copy_of_fits hrest, htake, hdrop, List.flatten_cons, copy_of_fits hall, List.append_assoc,
        List.append_assoc, List.length_append, Nat.add_assoc]

/-- The places of blocks that are copied one after another. -/
def placed (cursor : ℕ) : List (List α) → List (ℕ × List α)
  | [] => []
  | block :: rest => (cursor, block) :: placed (cursor + block.length) rest

/-- One block ends before the other starts. -/
def Apart (a b : ℕ × List α) : Prop := a.1 + a.2.length ≤ b.1 ∨ b.1 + b.2.length ≤ a.1

theorem le_of_mem_placed {blocks : List (List α)} {cursor : ℕ} {p : ℕ × List α} (h : p ∈ placed cursor blocks) :
    cursor ≤ p.1 := by
  induction blocks generalizing cursor with
  | nil => exact nomatch h
  | cons block rest ih =>
      rcases List.mem_cons.mp h with rfl | hrest
      · exact le_rfl
      · exact le_trans (Nat.le_add_right _ _) (ih hrest)

/-- **Blocks one after another** do not overlap. -/
theorem pairwise_placed (blocks : List (List α)) (cursor : ℕ) : (placed cursor blocks).Pairwise Apart := by
  induction blocks generalizing cursor with
  | nil => exact List.Pairwise.nil
  | cons block rest ih => exact List.Pairwise.cons (fun p hp => Or.inl (le_of_mem_placed hp)) (ih _)

end Copy

end ByteFile
