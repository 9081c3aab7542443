import Mathlib.Tactic
import Lhre.Theory.WrapClock

/-!
# `Theory.Ring` — items numbered without bound in a ring of slots

A ring of `depth` slots holds items numbered `0, 1, 2, …`; item `i` goes to slot `i % depth`. The items from `lo` up
to `hi` that are in the ring form its window. As long as the window is no longer than the ring, every item in it has a
slot of its own.

## Contents
- **Slots.** `slot`; `slot_inj` (a window has no collisions) and `slot_toNat` (a wrapping index whose range is a
  multiple of the depth finds the same slot).
- **Windows.** `Window`, and its rules: `Window.empty`, `Window.update`, `Window.push`, `Window.pop`, `Window.congr`.
- **Contents.** `contents`, the items of a ring from its head on, and what adding and removing does to them.
-/

namespace Ring

variable {α β : Type*} {depth : ℕ} [NeZero depth]

/-! ## Slots -/

variable (depth) in
/-- The slot of an item. -/
def slot (i : ℕ) : Fin depth := Fin.ofNat depth i

/-- **A window has no collisions.** Two items less than the depth apart have different slots. -/
theorem slot_inj {i j : ℕ} (hij : i ≤ j) (hspan : j < i + depth) (h : slot depth i = slot depth j) : i = j := by
  have hmod : i % depth = j % depth := congrArg Fin.val h
  have hdvd : depth ∣ j - i := (Nat.modEq_iff_dvd' hij).mp hmod
  have hzero : j - i = 0 := Nat.eq_zero_of_dvd_of_lt hdvd (by omega)
  omega

/-- A wrapping index finds the same slot as the number it stands for. -/
theorem slot_toNat {w : ℕ} (hdvd : depth ∣ 2 ^ w) (i : ℕ) : slot depth (BitVec.ofNat w i).toNat = slot depth i := by
  apply Fin.ext
  show (BitVec.ofNat w i).toNat % depth = i % depth
  rw [BitVec.toNat_ofNat, Nat.mod_mod_of_dvd _ hdvd]

/-- The number of a slot found modulo the depth is the slot itself. -/
theorem slot_mod (i : ℕ) : slot depth (i % depth) = slot depth i := by
  apply Fin.ext
  show i % depth % depth = i % depth
  exact Nat.mod_mod i depth

/-! ## Windows -/

/-- Each item from `lo` up to `hi` is held by its slot. -/
def Window (holds : α → β → Prop) (slots : Fin depth → α) (item : ℕ → β) (lo hi : ℕ) : Prop :=
  ∀ i, lo ≤ i → i < hi → holds (slots (slot depth i)) (item i)

variable {holds : α → β → Prop} {slots : Fin depth → α} {item : ℕ → β} {lo hi : ℕ}

theorem Window.empty (n : ℕ) : Window holds slots item n n := by
  intro i hlo hhi
  exact absurd hhi (Nat.not_lt.mpr hlo)

/-- **Writing the next slot disturbs nothing** while the window is shorter than the ring. -/
theorem Window.update (h : Window holds slots item lo hi) (hroom : hi < lo + depth) (a : α) :
    Window holds (Function.update slots (slot depth hi) a) item lo hi := by
  intro i hlo hhi
  have hne : slot depth i ≠ slot depth hi := by
    intro heq
    have := slot_inj (Nat.le_of_lt hhi) (by omega) heq
    omega
  rw [Function.update_of_ne hne]
  exact h i hlo hhi

/-- The window grows by an item its slot holds. -/
theorem Window.push (h : Window holds slots item lo hi) (hnext : holds (slots (slot depth hi)) (item hi)) :
    Window holds slots item lo (hi + 1) := by
  intro i hlo hhi
  rcases Nat.lt_succ_iff_lt_or_eq.mp hhi with hlt | rfl
  · exact h i hlo hlt
  · exact hnext

/-- The window loses its first item. -/
theorem Window.pop (h : Window holds slots item lo hi) : Window holds slots item (lo + 1) hi := by
  intro i hlo hhi
  exact h i (Nat.le_of_succ_le hlo) hhi

/-- Only the items in the window matter. -/
theorem Window.congr {item' : ℕ → β} (h : Window holds slots item lo hi) (hsame : ∀ i, i < hi → item' i = item i) :
    Window holds slots item' lo hi := by
  intro i hlo hhi
  rw [hsame i hhi]
  exact h i hlo hhi

/-! ## Contents -/

/-- The items of a ring that starts at `head` and holds `count`, in order. -/
def contents (slots : Fin depth → α) (head count : ℕ) : List α :=
  (List.range count).map fun i => slots (slot depth (head + i))

@[simp] theorem length_contents (head count : ℕ) : (contents slots head count).length = count := by
  simp [contents]

/-- The head may be kept modulo the depth. -/
theorem contents_mod (head count : ℕ) : contents slots (head % depth) count = contents slots head count := by
  unfold contents
  apply List.map_congr_left
  intro i _
  have hmod : slot depth (head % depth + i) = slot depth (head + i) := by
    rw [← slot_mod (head % depth + i), Nat.mod_add_mod, slot_mod]
  rw [hmod]

/-- **The item at the head is the first.** -/
theorem contents_succ (head count : ℕ) :
    contents slots head (count + 1) = slots (slot depth head) :: contents slots (head + 1) count := by
  unfold contents
  rw [List.range_succ_eq_map, List.map_cons, List.map_map, Nat.add_zero]
  congr 1
  apply List.map_congr_left
  intro i _
  show slots (slot depth (head + (i + 1))) = slots (slot depth (head + 1 + i))
  rw [Nat.add_assoc head 1 i, Nat.add_comm 1 i]

/-- **Writing behind the last item appends**, while there is room. -/
theorem contents_update {head count : ℕ} (hroom : count < depth) (a : α) :
    contents (Function.update slots (slot depth (head + count)) a) head (count + 1) =
      contents slots head count ++ [a] := by
  unfold contents
  rw [List.range_succ, List.map_append, List.map_singleton, Function.update_self]
  congr 1
  apply List.map_congr_left
  intro i hi
  have hlt : i < count := List.mem_range.mp hi
  have hne : slot depth (head + i) ≠ slot depth (head + count) := by
    intro heq
    have hsame := slot_inj (by omega) (by omega) heq
    omega
  rw [Function.update_of_ne hne]

end Ring
