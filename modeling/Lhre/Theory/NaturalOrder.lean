import Mathlib.Tactic

/-!
# `Theory.NaturalOrder` — text compared by the numbers in it

A text is read as a list of numbers: a run of digits counts as its value, capped, and any other byte as more than the cap. Two
texts compare as their readings do, so the comparison is a total preorder whatever the cap is.

## Contents
- **Readings.** `isDigit`, `value`, `tokens`, `reading`.
- **Reading a text in parts.** `reading_digits`, `reading_append`.
- **Comparison.** `lex_between`: what stands between two readings with a common beginning has that beginning.
-/

namespace Lhre.NaturalOrder

/-! ## Readings -/

/-- `is_ascii_digit`. -/
def isDigit (c : UInt8) : Bool := 48 ≤ c.toNat && c.toNat ≤ 57

/-- The value of a run of digits. -/
def value (ds : List UInt8) : ℕ := ds.foldl (fun n c => 10 * n + (c.toNat - 48)) 0

/-- A whole run of digits, or another byte. -/
inductive Token
  | number (ds : List UInt8)
  | byte (c : UInt8)

def tokens : List UInt8 → List Token
  | [] => []
  | c :: rest =>
      if isDigit c then
        match tokens rest with
        | .number ds :: ts => .number (c :: ds) :: ts
        | ts => .number [c] :: ts
      else .byte c :: tokens rest

variable (cap : ℕ)

/-- What a token counts as: any number comes before any other byte. -/
def Token.rank : Token → ℕ
  | .number ds => min (value ds) cap
  | .byte c => cap + 1 + c.toNat

def reading (s : List UInt8) : List ℕ := (tokens s).map (Token.rank cap)

/-! ## Reading a text in parts -/

variable {cap}

@[simp] theorem reading_nil : reading cap [] = [] := rfl

theorem tokens_byte {c : UInt8} (hc : isDigit c = false) (rest : List UInt8) : tokens (c :: rest) = .byte c :: tokens rest := by
  simp [tokens, hc]

theorem reading_byte {c : UInt8} (hc : isDigit c = false) (rest : List UInt8) :
    reading cap (c :: rest) = (cap + 1 + c.toNat) :: reading cap rest := by
  simp [reading, tokens_byte hc, Token.rank]

/-- The rest of a text after a whole run of digits. -/
def Ends (rest : List UInt8) : Prop := ∀ c ∈ rest.head?, isDigit c = false

/-- A text that begins with no digit is not read as a number first. -/
theorem Ends.tokens_ne {rest : List UInt8} (h : Ends rest) (ds : List UInt8) (ts : List Token) :
    tokens rest ≠ .number ds :: ts := by
  cases rest with
  | nil => simp [tokens]
  | cons c rest => simp [tokens_byte (h c rfl)]

theorem tokens_digits {rest : List UInt8} (hrest : Ends rest) (d : UInt8) (ds : List UInt8)
    (hds : ∀ c ∈ d :: ds, isDigit c = true) : tokens (d :: ds ++ rest) = .number (d :: ds) :: tokens rest := by
  induction ds generalizing d with
  | nil =>
      have hd : isDigit d = true := hds d (by simp)
      show tokens (d :: rest) = _
      rw [tokens, if_pos hd]
      split
      · rename_i heq
        exact absurd heq (hrest.tokens_ne _ _)
      · rfl
  | cons d' ds ih =>
      have hd : isDigit d = true := hds d (by simp)
      have hrun := ih d' (fun c hc => hds c (List.mem_cons_of_mem _ hc))
      show tokens (d :: (d' :: ds ++ rest)) = _
      rw [tokens, if_pos hd, hrun]

theorem reading_digits {rest ds : List UInt8} (hrest : Ends rest) (hne : ds ≠ []) (hds : ∀ c ∈ ds, isDigit c = true) :
    reading cap (ds ++ rest) = min (value ds) cap :: reading cap rest := by
  obtain ⟨d, ds, rfl⟩ := List.exists_cons_of_ne_nil hne
  rw [reading, tokens_digits hrest d ds hds]
  rfl

theorem tokens_append {c : UInt8} (hc : isDigit c = false) (p q : List UInt8) :
    tokens (p ++ c :: q) = tokens p ++ tokens (c :: q) := by
  induction p with
  | nil => rfl
  | cons d p ih =>
      rw [List.cons_append, tokens, tokens, ih, tokens_byte hc]
      by_cases hd : isDigit d = true
      · rw [if_pos hd, if_pos hd]
        -- a byte that is no digit cannot join the run before it
        cases tokens p with
        | nil => rfl
        | cons t ts => cases t <;> rfl
      · rw [if_neg hd, if_neg hd, List.cons_append]

theorem reading_append {c : UInt8} (hc : isDigit c = false) (p q : List UInt8) :
    reading cap (p ++ c :: q) = reading cap p ++ reading cap (c :: q) := by
  simp [reading, tokens_append hc]

/-! ## Comparison -/

/-- The comparison of readings. -/
abbrev lex : List ℕ → List ℕ → Ordering := List.compareLex compare

/-- Between two readings that begin with `p` and go on with a number stand only readings that begin so. -/
theorem lex_between {p xs ys t : List ℕ} {x y : ℕ} (hx : (lex (p ++ x :: xs) t).isLE) (hy : (lex t (p ++ y :: ys)).isLE) :
    ∃ k rest, t = p ++ k :: rest ∧ x ≤ k ∧ k ≤ y := by
  induction p generalizing t with
  | nil =>
      cases t with
      | nil => simp [lex, List.compareLex_cons_nil] at hx
      | cons k rest =>
          simp only [List.nil_append, lex, List.compareLex_cons_cons, Ordering.isLE_then_iff_and, Nat.isLE_compare] at hx hy
          exact ⟨k, rest, rfl, hx.1, hy.1⟩
  | cons z p ih =>
      cases t with
      | nil => simp [lex, List.compareLex_cons_nil] at hx
      | cons k rest =>
          simp only [List.cons_append, lex, List.compareLex_cons_cons, Ordering.isLE_then_iff_and, Nat.isLE_compare] at hx hy
          obtain rfl : z = k := le_antisymm hx.1 hy.1
          simp only [Nat.compare_eq_lt, lt_self_iff_false, false_or] at hx hy
          obtain ⟨k, rest, rfl, hxk, hky⟩ := ih (by simpa using hx) (by simpa using hy)
          exact ⟨k, rest, rfl, hxk, hky⟩

end Lhre.NaturalOrder
