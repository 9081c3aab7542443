import Mathlib.Tactic

/-!
# `Theory.TokenMatch` — finding a token whose letters are distinct

A matcher reads a text letter by letter and keeps how much of a token the text ends with. When no letter comes twice in
the token, the only part of it that can begin before a mismatch and go on after it is its first letter, so one number and
one comparison find every occurrence.

## Contents
- **The matcher.** `advance`, `Longest`.
- **A letter.** `take_succ_suffix`, `getLast?_of_take_suffix`, `advance_fires`, `longest_advance`.
- **A text.** `flags`, `occurrences`, `flags_eq_occurrences`.
-/

namespace TokenMatch

variable {α : Type*} {token text : List α} {k : ℕ} {b : α}

/-! ## The matcher -/

/-- One letter, for a matcher that has `k` letters of the token; whether they complete it. -/
def advance [DecidableEq α] (token : List α) (k : ℕ) (b : α) : ℕ × Bool :=
  if token[k]? = some b then if k + 1 = token.length then (0, true) else (k + 1, false)
  else (if token.head? = some b then 1 else 0, false)

/-- The most letters a text ends with of those that begin a token, short of the whole of it. -/
structure Longest (token text : List α) (k : ℕ) : Prop where
  lt : k < token.length
  suffix : token.take k <:+ text
  max : ∀ j, j < token.length → token.take j <:+ text → j ≤ k

theorem longest_nil (h : token ≠ []) : Longest token [] 0 := by
  refine ⟨List.length_pos_of_ne_nil h, List.nil_suffix, ?_⟩
  intro j hj hsuffix
  have hlength := congrArg List.length (List.suffix_nil.mp hsuffix)
  rw [List.length_take, List.length_nil] at hlength
  omega

/-! ## A letter -/

theorem take_succ_suffix {j : ℕ} (hj : j < token.length) :
    token.take (j + 1) <:+ text ++ [b] ↔ token.take j <:+ text ∧ token[j]? = some b := by
  rw [List.take_add_one, List.getElem?_eq_getElem hj]
  show token.take j ++ [token[j]] <:+ text ++ [b] ↔ token.take j <:+ text ∧ some token[j] = some b
  constructor
  · rintro ⟨s, hs⟩
    rw [← List.append_assoc] at hs
    obtain ⟨htext, hb⟩ := List.append_inj' hs rfl
    exact ⟨⟨s, htext⟩, congrArg some (List.singleton_inj.mp hb)⟩
  · rintro ⟨⟨s, rfl⟩, hb⟩
    refine ⟨s, ?_⟩
    rw [Option.some.inj hb, List.append_assoc]

/-- A text that ends with the first letters of a token ends with the last of these. -/
theorem getLast?_of_take_suffix {i : ℕ} (hi : i < token.length) (h : token.take (i + 1) <:+ text) :
    text.getLast? = token[i]? := by
  obtain ⟨s, rfl⟩ := h
  rw [List.take_add_one, List.getElem?_eq_getElem hi, ← List.append_assoc]
  exact List.getLast?_concat

variable [DecidableEq α]

/-- **A matcher fires** at the letters that complete the token. -/
theorem advance_fires (h : Longest token text k) : (advance token k b).2 = true ↔ token <:+ text ++ [b] := by
  have hk := h.lt
  -- the text ends with the token if it ended with all but the last letter and now has that
  have hwhole : token <:+ text ++ [b] ↔ token.take (token.length - 1) <:+ text ∧ token[token.length - 1]? = some b := by
    have hlast : token.length - 1 + 1 = token.length := by omega
    rw [← take_succ_suffix (by omega), hlast, List.take_length]
  rw [hwhole]
  unfold advance
  constructor
  · intro hfires
    by_cases hletter : token[k]? = some b
    · rw [if_pos hletter] at hfires
      by_cases hlast : k + 1 = token.length
      · obtain rfl : k = token.length - 1 := by omega
        exact ⟨h.suffix, hletter⟩
      · rw [if_neg hlast] at hfires
        exact nomatch hfires
    · rw [if_neg hletter] at hfires
      exact nomatch hfires
  · rintro ⟨hsuffix, hletter⟩
    have hmax := h.max (token.length - 1) (by omega) hsuffix
    obtain rfl : k = token.length - 1 := by omega
    rw [if_pos hletter, if_pos (by omega)]

/-- **A matcher that does not fire** keeps the most letters the text ends with. -/
theorem longest_advance (hnodup : token.Nodup) (h : Longest token text k) (hmiss : (advance token k b).2 = false) :
    Longest token (text ++ [b]) (advance token k b).1 := by
  have hk := h.lt
  unfold advance at hmiss ⊢
  by_cases hletter : token[k]? = some b
  · rw [if_pos hletter] at hmiss ⊢
    by_cases hlast : k + 1 = token.length
    · rw [if_pos hlast] at hmiss
      exact nomatch hmiss
    rw [if_neg hlast]
    refine ⟨by omega, (take_succ_suffix hk).mpr ⟨h.suffix, hletter⟩, ?_⟩
    rintro (_ | j) hj hsuffix
    · exact Nat.zero_le _
    · exact Nat.succ_le_succ (h.max j (by omega) ((take_succ_suffix (by omega)).mp hsuffix).1)
  · rw [if_neg hletter]
    -- what the text ends with goes on with `b` only if it is nothing
    have hfirst : ∀ j, j < token.length → token.take j <:+ text → token[j]? = some b → j = 0 := by
      rintro (_ | j) hj hsuffix hb
      · rfl
      exfalso
      have hle := h.max (j + 1) hj hsuffix
      have hne : j + 1 ≠ k := by
        rintro rfl
        exact hletter hb
      obtain ⟨k', rfl⟩ : ∃ k', k = k' + 1 := ⟨k - 1, by omega⟩
      -- both parts end the text, so their last letters are the same; but no letter comes twice
      have hend := (getLast?_of_take_suffix (by omega) hsuffix).symm.trans (getLast?_of_take_suffix (by omega) h.suffix)
      have hsame := (List.getElem?_inj (by omega) hnodup).mp hend
      omega
    by_cases hhead : token.head? = some b
    · rw [if_pos hhead]
      have hzero : token[0]? = some b := by rw [← List.head?_eq_getElem?, hhead]
      refine ⟨?_, (take_succ_suffix (by omega)).mpr ⟨List.nil_suffix, hzero⟩, ?_⟩
      · by_contra hshort
        obtain rfl : k = 0 := by omega
        exact hletter hzero
      · rintro (_ | j) hj hsuffix
        · exact Nat.zero_le _
        · obtain ⟨htext, hb⟩ := (take_succ_suffix (by omega)).mp hsuffix
          rw [hfirst j (by omega) htext hb]
    · rw [if_neg hhead]
      refine ⟨by omega, List.nil_suffix, ?_⟩
      rintro (_ | j) hj hsuffix
      · exact le_refl 0
      · obtain ⟨htext, hb⟩ := (take_succ_suffix (by omega)).mp hsuffix
        obtain rfl := hfirst j (by omega) htext hb
        exact absurd (List.head?_eq_getElem?.trans hb) hhead

/-! ## A text -/

/-- At which letters of a text a matcher fires. -/
def flags (token : List α) : ℕ → List α → List Bool
  | _, [] => []
  | k, b :: text => (advance token k b).2 :: flags token (advance token k b).1 text

/-- At which letters of a text the token is complete, after the last time it was; `since` is what came since then. -/
def occurrences (token : List α) : List α → List α → List Bool
  | _, [] => []
  | since, b :: text =>
      if token <:+ since ++ [b] then true :: occurrences token [] text else false :: occurrences token (since ++ [b]) text

/-- **A matcher fires at the occurrences of its token.** -/
theorem flags_eq_occurrences (hnodup : token.Nodup) {since : List α} (h : Longest token since k) (text : List α) :
    flags token k text = occurrences token since text := by
  induction text generalizing k since with
  | nil => rfl
  | cons b text ih =>
      rw [flags, occurrences]
      cases hfires : (advance token k b).2 with
      | true =>
          have hback : (advance token k b).1 = 0 := by
            unfold advance at hfires ⊢
            split_ifs at hfires ⊢
            rfl
          have hne : token ≠ [] := List.ne_nil_of_length_pos (Nat.zero_lt_of_lt h.lt)
          rw [if_pos ((advance_fires h).mp hfires), hback, ih (longest_nil hne)]
      | false =>
          rw [if_neg (fun hsuffix => nomatch hfires.symm.trans ((advance_fires h).mpr hsuffix)),
            ih (longest_advance hnodup h hfires)]

end TokenMatch
