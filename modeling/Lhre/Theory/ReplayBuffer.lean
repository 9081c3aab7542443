import Mathlib.Data.List.DropRight
import Mathlib.Tactic

/-!
# `Theory.ReplayBuffer` — the last items of a stream, kept for those who come late

A buffer takes every item of a stream and keeps the last `size` of them. Who reads the buffer and then follows the stream has seen an
end of the whole stream: nothing is missed where the two meet, and nothing is seen twice.

## Contents
- **The buffer.** `push`, `push_rtake`, `getLast?_rtake`.
- **The seam.** `rtake_append_since`.
-/

namespace ReplayBuffer

variable {α : Type*} {size : ℕ}

/-! ## The buffer -/

/-- The buffer with one more item; what does not fit is dropped at its front. -/
def push (size : ℕ) (buffer : List α) (a : α) : List α :=
  let grown := buffer ++ [a]
  if size < grown.length then grown.drop (grown.length - size) else grown

theorem push_eq_rtake (buffer : List α) (a : α) : push size buffer a = (buffer ++ [a]).rtake size := by
  show (if size < (buffer ++ [a]).length then _ else _) = _
  unfold List.rtake
  split
  · rfl
  · rename_i hfits
    rw [Nat.sub_eq_zero_of_le (not_lt.mp hfits), List.drop_zero]

/-- **A buffer holds the last items of the stream.** -/
theorem push_rtake (stream : List α) (a : α) : push size (stream.rtake size) a = (stream ++ [a]).rtake size := by
  rw [push_eq_rtake]
  cases size with
  | zero => simp
  | succ n =>
      rw [List.rtake_concat_succ, List.rtake_concat_succ]
      congr 1
      unfold List.rtake
      rw [List.drop_drop, List.length_drop]
      congr 1
      omega

/-- The newest item of a stream is the newest of its buffer. -/
theorem getLast?_rtake (hsize : 0 < size) (stream : List α) : (stream.rtake size).getLast? = stream.getLast? := by
  cases size with
  | zero => exact absurd hsize (lt_irrefl 0)
  | succ n =>
      induction stream using List.reverseRecOn with
      | nil => simp
      | append_singleton stream a _ => rw [List.rtake_concat_succ, List.getLast?_concat, List.getLast?_concat]

theorem rtake_sublist (stream : List α) : (stream.rtake size).Sublist stream := List.drop_sublist _ _

/-! ## The seam -/

/-- **Nothing is missed where the buffer and the stream meet.** -/
theorem rtake_append_since (before since : List α) :
    before.rtake size ++ since = (before ++ since).drop (before.length - size) := by
  unfold List.rtake
  rw [List.drop_append_of_le_length (Nat.sub_le _ _)]

end ReplayBuffer
