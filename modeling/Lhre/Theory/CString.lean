import Mathlib.Tactic

/-!
# `Theory.CString` — text that ends at a zero

A pointer into a buffer is what the buffer holds from there on, so that a read past the end of the buffer is a read from
the empty list, and fails. The functions here read until a zero; on a buffer that holds a text and a zero none of them
fails, and each says what it says of the text.

## Contents
- **Reading.** `text`, `skip`, `strncmp`.
- **On a text.** `text_append`, `skip_append`, `strncmp_append`, `load_at_end`.
-/

namespace CString

variable {α : Type*} [DecidableEq α] [Zero α]

/-! ## Reading -/

/-- The text at a pointer. -/
def text : List α → Option (List α)
  | [] => none
  | c :: p => if c = 0 then some [] else (text p).map (c :: ·)

/-- `while (P(*p)) ++p;` -/
def skip (P : α → Bool) : List α → Option (List α)
  | [] => none
  | c :: p => if P c then skip P p else some (c :: p)

/-- Whether `strncmp` is 0. -/
def strncmp : List α → List α → ℕ → Option Bool
  | _, _, 0 => some true
  | a :: p, b :: q, n + 1 => if a = b then if a = 0 then some true else strncmp p q n else some false
  | _, _, _ + 1 => none

/-! ## On a text -/

section

variable {l rest : List α}

theorem text_append (h : 0 ∉ l) : text (l ++ 0 :: rest) = some l := by
  induction l with
  | nil => exact if_pos rfl
  | cons c l ih =>
      obtain ⟨hc, hl⟩ := List.ne_and_not_mem_of_not_mem_cons h
      rw [List.cons_append, text, if_neg (Ne.symm hc), ih hl]
      rfl

omit [DecidableEq α] in
/-- A skip stops at the zero at the latest. -/
theorem skip_append {P : α → Bool} (hP : P 0 = false) (l : List α) :
    skip P (l ++ 0 :: rest) = some (l.dropWhile P ++ 0 :: rest) := by
  induction l with
  | nil =>
      show (if P 0 then skip P rest else some (0 :: rest)) = some (0 :: rest)
      rw [hP]
      rfl
  | cons c l ih =>
      rw [List.cons_append, skip, List.dropWhile_cons]
      cases hc : P c with
      | true =>
          rw [if_pos rfl, if_pos rfl]
          exact ih
      | false => rfl

/-- As many letters as a word has compare equal exactly when the other text begins with the word. -/
theorem strncmp_append {name word : List α} (hname : 0 ∉ name) (hword : 0 ∉ word) :
    strncmp (name ++ [0]) (word ++ rest) word.length = some (decide (word <+: name)) := by
  induction word generalizing name with
  | nil => simp [strncmp]
  | cons c word ih =>
      obtain ⟨hc, hletters⟩ := List.ne_and_not_mem_of_not_mem_cons hword
      cases name with
      | nil =>
          show (if (0 : α) = c then _ else some false) = _
          -- the name has ended and the word goes on
          rw [if_neg hc]
          simp
      | cons a name =>
          obtain ⟨ha, htail⟩ := List.ne_and_not_mem_of_not_mem_cons hname
          show (if a = c then if a = 0 then some true else strncmp (name ++ [0]) (word ++ rest) word.length
            else some false) = _
          by_cases hac : a = c
          · subst hac
            rw [if_pos rfl, if_neg (Ne.symm ha), ih htail hletters]
            simp only [List.cons_prefix_cons, true_and]
          · rw [if_neg hac]
            simp only [List.cons_prefix_cons, Ne.symm hac, false_and, decide_false]

omit [DecidableEq α] in
/-- A text that begins with a word has a zero after it exactly when it is the word. -/
theorem load_at_end {name word : List α} (hname : 0 ∉ name) (h : word <+: name) :
    ∃ c, (name ++ [0])[word.length]? = some c ∧ (c = 0 ↔ name = word) := by
  -- what the text has after the word is nothing, or starts with a letter that is not zero
  obtain ⟨t, rfl⟩ := h
  rw [List.append_assoc, List.getElem?_append_right (le_refl _), Nat.sub_self]
  cases t with
  | nil => exact ⟨0, rfl, iff_of_true rfl (List.append_nil word)⟩
  | cons c t =>
      refine ⟨c, rfl, iff_of_false ?_ ?_⟩
      · rintro rfl
        exact hname (List.mem_append_right _ List.mem_cons_self)
      · intro heq
        exact absurd (List.append_right_eq_self.mp heq) (List.cons_ne_nil c t)

end

end CString
