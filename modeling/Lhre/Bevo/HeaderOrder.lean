import Mathlib.Data.List.TakeWhile
import Lhre.Theory.NaturalOrder

/-!
# `Bevo.HeaderOrder` — the order of the columns of the log

`order_headers`, `natural_cmp` and `take_number` of `apps/BEVO/loggerd/main.rs`. A text is compared by its UTF-8 bytes.

## Contents
- **Numbers.** `parseU64`, `takeNumber`.
- **The comparator.** `naturalCmp`; `naturalCmp_eq`: it compares readings.
- **The order.** `orderHeaders`.
-/

namespace Lhre.Bevo

open NaturalOrder

/-! ## Numbers -/

/-- `u64::MAX`. -/
def u64MAX : ℕ := 2 ^ 64 - 1

/-- `as_bytes`. -/
def bytes (s : String) : List UInt8 := s.toByteArray.data.toList

/-- `text.parse::<u64>().ok()` of a text of digits. -/
def parseU64 (text : List UInt8) : Option ℕ := if text ≠ [] ∧ value text ≤ u64MAX then some (value text) else none

/-- `take_number`. -/
def takeNumber (bytes : List UInt8) : ℕ × List UInt8 :=
  ((parseU64 (bytes.takeWhile isDigit)).getD u64MAX, bytes.dropWhile isDigit)

theorem length_takeNumber_lt {c : UInt8} (hc : isDigit c = true) (rest : List UInt8) :
    (takeNumber (c :: rest)).2.length < (c :: rest).length := by
  have hdrop : (takeNumber (c :: rest)).2 = rest.dropWhile isDigit := by
    show (c :: rest).dropWhile isDigit = _
    rw [List.dropWhile_cons_of_pos hc]
  rw [hdrop]
  exact Nat.lt_succ_of_le (List.length_dropWhile_le isDigit rest)

/-! ## The comparator -/

/-- `natural_cmp`. -/
def naturalCmp : List UInt8 → List UInt8 → Ordering
  | [], [] => .eq
  | [], _ :: _ => .lt
  | _ :: _, [] => .gt
  | ca :: a, cb :: b =>
      if _h : isDigit ca = true ∧ isDigit cb = true then
        match compare (takeNumber (ca :: a)).1 (takeNumber (cb :: b)).1 with
        | .eq => naturalCmp (takeNumber (ca :: a)).2 (takeNumber (cb :: b)).2
        | other => other
      else if isDigit ca ≠ isDigit cb then
        -- digits sort before non-digit characters
        if isDigit ca then .lt else .gt
      else
        match compare ca.toNat cb.toNat with
        | .eq => naturalCmp a b
        | other => other
  termination_by a => a.length
  decreasing_by
    · exact length_takeNumber_lt _h.1 a
    · exact Nat.lt_succ_self _

/-- What a number is read as. -/
theorem reading_takeNumber {c : UInt8} (hc : isDigit c = true) (rest : List UInt8) :
    reading u64MAX (c :: rest) = (takeNumber (c :: rest)).1 :: reading u64MAX (takeNumber (c :: rest)).2 := by
  have hne : (c :: rest).takeWhile isDigit ≠ [] := by simp [hc]
  have hends : Ends ((c :: rest).dropWhile isDigit) := by
    intro d hd
    have := List.head?_dropWhile_not isDigit (c :: rest)
    rw [Option.mem_def.mp hd] at this
    exact this
  have hread : reading u64MAX _ = _ := reading_digits hends hne fun d hd => List.mem_takeWhile_imp hd
  rw [List.takeWhile_append_dropWhile] at hread
  rw [hread]
  unfold takeNumber parseU64
  congr 1
  split
  · rename_i h
    exact min_eq_left h.2
  · rename_i h
    exact min_eq_right (not_le.mp fun hle => h ⟨hne, hle⟩).le

theorem takeNumber_le (bytes : List UInt8) : (takeNumber bytes).1 ≤ u64MAX := by
  unfold takeNumber parseU64
  split
  · rename_i h
    exact h.2
  · exact le_rfl

theorem lex_cons (x y : ℕ) (xs ys : List ℕ) : lex (x :: xs) (y :: ys) = (compare x y).then (lex xs ys) :=
  List.compareLex_cons_cons

/-- **The comparator compares readings.** -/
theorem naturalCmp_eq (a b : List UInt8) : naturalCmp a b = lex (reading u64MAX a) (reading u64MAX b) := by
  have hnonempty (c : UInt8) (rest : List UInt8) : ∃ x xs, reading u64MAX (c :: rest) = x :: xs := by
    cases hc : isDigit c with
    | true => exact ⟨_, _, reading_takeNumber hc rest⟩
    | false => exact ⟨_, _, reading_byte hc rest⟩
  fun_induction naturalCmp a b with
  | case1 => rfl
  | case2 cb b =>
      obtain ⟨x, xs, hread⟩ := hnonempty cb b
      rw [hread]
      rfl
  | case3 ca a =>
      obtain ⟨x, xs, hread⟩ := hnonempty ca a
      rw [hread]
      rfl
  | case4 ca a cb b h heq ih =>
      rw [reading_takeNumber h.1, reading_takeNumber h.2, lex_cons, heq]
      exact ih
  | case5 ca a cb b h hne =>
      rw [reading_takeNumber h.1, reading_takeNumber h.2, lex_cons]
      revert hne
      cases compare (takeNumber (ca :: a)).1 (takeNumber (cb :: b)).1 with
      | eq => exact fun hne => absurd rfl hne
      | _ => exact fun _ => rfl
  | case6 ca a cb b h hmixed hca =>
      have hcb : isDigit cb = false := by simpa [hca] using h
      have hlt : (takeNumber (ca :: a)).1 < u64MAX + 1 + cb.toNat := by
        have := takeNumber_le (ca :: a)
        omega
      rw [reading_takeNumber hca, reading_byte hcb, lex_cons, Nat.compare_eq_lt.mpr hlt]
      rfl
  | case7 ca a cb b h hmixed hca =>
      have hca' : isDigit ca = false := by simpa using hca
      have hcb : isDigit cb = true := by simpa [hca'] using hmixed
      have hlt : (takeNumber (cb :: b)).1 < u64MAX + 1 + ca.toNat := by
        have := takeNumber_le (cb :: b)
        omega
      rw [reading_takeNumber hcb, reading_byte hca', lex_cons, Nat.compare_eq_gt.mpr hlt]
      rfl
  | case8 ca a cb b h hsame heq ih =>
      have hcb : isDigit cb = isDigit ca := (not_not.mp hsame).symm
      have hca : isDigit ca = false := by simpa [hcb] using h
      rw [reading_byte hca, reading_byte (hcb.trans hca), lex_cons, Nat.compare_eq_eq.mpr (by rw [Nat.compare_eq_eq.mp heq])]
      exact ih
  | case9 ca a cb b h hsame hne =>
      have hcb : isDigit cb = isDigit ca := (not_not.mp hsame).symm
      have hca : isDigit ca = false := by simpa [hcb] using h
      have hshift : compare (u64MAX + 1 + ca.toNat) (u64MAX + 1 + cb.toNat) = compare ca.toNat cb.toNat := by
        simp [compare, compareOfLessAndEq]
      rw [reading_byte hca, reading_byte (hcb.trans hca), lex_cons, hshift]
      revert hne
      cases compare ca.toNat cb.toNat with
      | eq => exact fun hne => absurd rfl hne
      | _ => exact fun _ => rfl

/-! ## The order -/

/-- `LEADING`. -/
def leading : List String := ["time", "packet_id"]

/-- `natural_cmp` of two headers. -/
def headerCmp (a b : String) : Ordering := naturalCmp (bytes a) (bytes b)

/-- `order_headers`. -/
def orderHeaders (keys : List String) : List String :=
  leading.filter (fun name => keys.any (· == name)) ++
    (keys.filter fun key => !leading.contains key).mergeSort fun a b => (headerCmp a b).isLE

end Lhre.Bevo
