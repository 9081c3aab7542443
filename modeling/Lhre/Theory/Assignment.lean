import Mathlib.Algebra.BigOperators.Group.Finset.Basic
import Mathlib.Algebra.Order.BigOperators.Group.Finset
import Mathlib.Data.Fintype.BigOperators
import Mathlib.Data.PEquiv
import Mathlib.Tactic

/-!
# `Theory.Assignment` — matchings with unmatched members as perfect assignments

A matching of two sets in which members may stay unmatched at a price is a perfect assignment of a padded square: each member
gets a dummy partner of its own, dummies meet at no cost, and a pair that is not allowed costs more than leaving its two members
unmatched. An assignment of least cost then gives a matching of least total, and has no pair that is not allowed.

## Contents
- **Costs.** `padded`, `total`.
- **From matchings to assignments.** `fill`, `cost_fill`.
- **And back.** `kept`, `cost_eq`.
- **Optima.** `optimal_allowed`, `optimal_kept`.
-/

namespace Lhre.Assignment

variable {α β K : Type*} [Field K] (d : α → β → K) (ok : α → β → Prop) [∀ a b, Decidable (ok a b)] (F U : K)

/-! ## Costs -/

/-- The padded costs: rows are members of the first set and dummies of the second, columns the other way round. -/
def padded : α ⊕ β → β ⊕ α → K
  | .inl a, .inl b => if ok a b then d a b else F
  | .inl _, .inr _ => U
  | .inr _, .inl _ => U
  | .inr _, .inr _ => 0

section Sums
variable [Fintype α] [Fintype β]

/-- The total of a matching: its pairs, and the price of each unmatched member. -/
def total (M : α ≃. β) : K := ∑ a, (M a).elim U (d a) + ∑ b, (M.symm b).elim U fun _ => 0

/-- The cost of an assignment. -/
def cost (e : α ⊕ β ≃ β ⊕ α) : K := ∑ x, padded d ok F U x (e x)

end Sums

/-! ## From matchings to assignments -/

/-- The assignment of a matching: an unmatched member meets its own dummy, and the dummies of a pair meet. -/
def fill (M : α ≃. β) : α ⊕ β ≃ β ⊕ α where
  toFun
    | .inl a => (M a).elim (.inr a) .inl
    | .inr b => (M.symm b).elim (.inl b) .inr
  invFun
    | .inl b => (M.symm b).elim (.inr b) .inl
    | .inr a => (M a).elim (.inl a) .inr
  left_inv x := by
    cases x with
    | inl a =>
        cases h : M a with
        | none => simp [h]
        | some b => simp [h, M.eq_some_iff.mpr h]
    | inr b =>
        cases h : M.symm b with
        | none => simp [h]
        | some a => simp [h, M.eq_some_iff.mp h]
  right_inv y := by
    cases y with
    | inl b =>
        cases h : M.symm b with
        | none => simp [h]
        | some a => simp [h, M.eq_some_iff.mp h]
    | inr a =>
        cases h : M a with
        | none => simp [h]
        | some b => simp [h, M.eq_some_iff.mpr h]

/-- **The assignment of a matching** costs its total. -/
theorem cost_fill [Fintype α] [Fintype β] {M : α ≃. β} (hM : ∀ a b, b ∈ M a → ok a b) : cost d ok F U
    (fill M) = total d U M := by
  rw [cost, total, Fintype.sum_sum_type]
  congr 1
  · refine Finset.sum_congr rfl fun a _ => ?_
    change padded d ok F U (.inl a) ((M a).elim (.inr a) .inl) = _
    cases h : M a with
    | none => rfl
    | some b => exact if_pos (hM a b h)
  · refine Finset.sum_congr rfl fun b _ => ?_
    change padded d ok F U (.inr b) ((M.symm b).elim (.inl b) .inr) = _
    cases h : M.symm b with
    | none => rfl
    | some a => rfl

/-! ## And back -/

section Kept
variable (e : α ⊕ β ≃ β ⊕ α)

/-- The matching of an assignment: its allowed pairs. -/
def kept : α ≃. β where
  toFun a := (e (.inl a)).elim (fun b => if ok a b then some b else none) fun _ => none
  invFun b := (e.symm (.inl b)).elim (fun a => if ok a b then some a else none) fun _ => none
  inv a b := by
    have hiff : e (.inl a) = .inl b ↔ e.symm (.inl b) = .inl a := by
      rw [Equiv.symm_apply_eq, eq_comm]
    constructor
    · intro h
      cases hcol : e.symm (.inl b) with
      | inr b' => simp [hcol] at h
      | inl a' =>
          by_cases hok : ok a' b
          · obtain rfl : a' = a := by simpa [hcol, hok] using h
            simp [hiff.mpr hcol, hok]
          · simp [hcol, hok] at h
    · intro h
      cases hrow : e (.inl a) with
      | inr a' => simp [hrow] at h
      | inl b' =>
          by_cases hok : ok a b'
          · obtain rfl : b' = b := by simpa [hrow, hok] using h
            simp [hiff.mp hrow, hok]
          · simp [hrow, hok] at h

theorem mem_kept {a : α} {b : β} : b ∈ kept ok e a ↔ e (.inl a) = .inl b ∧ ok a b := by
  change (e (.inl a)).elim (fun b => if ok a b then some b else none) (fun _ => none) = some b ↔ _
  cases h : e (.inl a) with
  | inr a' => simp
  | inl b' =>
      by_cases hok : ok a b'
      · simp only [Sum.elim_inl, if_pos hok, Option.some.injEq, Sum.inl.injEq]
        constructor
        · rintro rfl
          exact ⟨rfl, hok⟩
        · exact And.left
      · simp only [Sum.elim_inl, if_neg hok, Sum.inl.injEq]
        constructor
        · intro h
          cases h
        · rintro ⟨rfl, hok'⟩
          exact absurd hok' hok

variable [Fintype α] [Fintype β] [DecidableEq α] [DecidableEq β]

/-- A pair of an assignment that is not allowed. -/
def Bad (a : α) (b : β) : Prop := e (.inl a) = .inl b ∧ ¬ ok a b

instance (a : α) (b : β) : Decidable (Bad ok e a b) := inferInstanceAs (Decidable (_ ∧ _))

omit [Fintype α] in
/-- A row has at most one pair that is not allowed. -/
theorem sum_bad_row (w : K) (a : α) :
    ∑ b, (if Bad ok e a b then w else 0) = (e (.inl a)).elim (fun b => if ok a b then 0 else w) fun _ => 0 := by
  cases h : e (.inl a) with
  | inr a' =>
      refine Finset.sum_eq_zero fun b _ => if_neg ?_
      rintro ⟨hpair, -⟩
      rw [h] at hpair
      cases hpair
  | inl b' =>
      rw [Finset.sum_eq_single b']
      · by_cases hok : ok a b'
        · rw [Sum.elim_inl, if_pos hok, if_neg fun hbad => hbad.2 hok]
        · rw [Sum.elim_inl, if_neg hok, if_pos ⟨h, hok⟩]
      · intro b _ hne
        refine if_neg ?_
        rintro ⟨hpair, -⟩
        exact hne (Sum.inl.inj (hpair.symm.trans h))
      · exact fun hnot => absurd (Finset.mem_univ b') hnot

omit [Fintype β] in
/-- So has a column. -/
theorem sum_bad_column (w : K) (b : β) :
    ∑ a, (if Bad ok e a b then w else 0) = (e.symm (.inl b)).elim (fun a => if ok a b then 0 else w) fun _ => 0 := by
  cases h : e.symm (.inl b) with
  | inr b' =>
      refine Finset.sum_eq_zero fun a _ => if_neg ?_
      rintro ⟨hpair, -⟩
      rw [← hpair, Equiv.symm_apply_apply] at h
      cases h
  | inl a' =>
      rw [Finset.sum_eq_single a']
      · by_cases hok : ok a' b
        · rw [Sum.elim_inl, if_pos hok, if_neg fun hbad => hbad.2 hok]
        · rw [Sum.elim_inl, if_neg hok, if_pos ⟨e.symm_apply_eq.mp h |>.symm, hok⟩]
      · intro a _ hne
        refine if_neg ?_
        rintro ⟨hpair, -⟩
        rw [← hpair, Equiv.symm_apply_apply] at h
        exact hne (Sum.inl.inj h)
      · exact fun hnot => absurd (Finset.mem_univ a') hnot

omit [Fintype α] in
/-- A row costs what its member pays in the matching, and more where its pair is not allowed. -/
theorem row_cost (a : α) :
    padded d ok F U (.inl a) (e (.inl a)) =
      (kept ok e a).elim U (d a) + ∑ b, if Bad ok e a b then F - U else 0 := by
  rw [sum_bad_row]
  change _ = ((e (.inl a)).elim (fun b => if ok a b then some b else none) fun _ => none).elim U (d a) + _
  cases e (.inl a) with
  | inr a' => simp [padded]
  | inl b => by_cases hok : ok a b <;> simp [padded, hok]

omit [Fintype β] in
/-- A column of a member costs its dummy row what the member pays in the matching, but where its pair is not allowed. -/
theorem column_cost (b : β) :
    (e.symm (.inl b)).elim (fun _ => 0) (fun _ => U) =
      ((kept ok e).symm b).elim U (fun _ => 0) - ∑ a, if Bad ok e a b then U else 0 := by
  rw [sum_bad_column]
  change _ = ((e.symm (.inl b)).elim (fun a => if ok a b then some a else none) fun _ => none).elim U (fun _ => 0) - _
  cases e.symm (.inl b) with
  | inr b' => simp
  | inl a => by_cases hok : ok a b <;> simp [hok]

omit [DecidableEq α] [DecidableEq β] in
/-- The dummy rows pay for the columns of members that no member's row takes. -/
theorem dummy_cost :
    ∑ b, padded d ok F U (.inr b) (e (.inr b)) = ∑ b, (e.symm (.inl b)).elim (fun _ => 0) fun _ => U := by
  have hswap := Equiv.sum_comp e fun y => y.elim (fun b => (e.symm (.inl b)).elim (fun _ => (0 : K)) fun _ => U) fun _ => 0
  rw [Fintype.sum_sum_type, Fintype.sum_sum_type] at hswap
  simp only [Sum.elim_inl, Sum.elim_inr, Finset.sum_const_zero, add_zero] at hswap
  rw [← hswap]
  have hrows : ∑ a, (e (.inl a)).elim (fun b => (e.symm (.inl b)).elim (fun _ => (0 : K)) fun _ => U) (fun _ => 0) = 0 := by
    refine Finset.sum_eq_zero fun a _ => ?_
    cases h : e (.inl a) with
    | inr a' => rfl
    | inl b =>
        rw [Sum.elim_inl, ← h, Equiv.symm_apply_apply]
        rfl
  rw [hrows, zero_add]
  refine Finset.sum_congr rfl fun b _ => ?_
  cases h : e (.inr b) with
  | inr a' => rfl
  | inl b' =>
      have hback : e.symm (.inl b') = .inr b := by rw [← h, Equiv.symm_apply_apply]
      rw [Sum.elim_inl, hback]
      rfl

/-- **The cost of an assignment** is the total of its matching, and a penalty for each pair that is not allowed. -/
theorem cost_eq :
    cost d ok F U e = total d U (kept ok e) + ∑ a, ∑ b, if Bad ok e a b then F - 2 * U else 0 := by
  rw [cost, Fintype.sum_sum_type, dummy_cost, Finset.sum_congr rfl fun a _ => row_cost d ok F U e a,
    Finset.sum_congr rfl fun b _ => column_cost ok U e b, Finset.sum_add_distrib, Finset.sum_sub_distrib, total,
    Finset.sum_comm (f := fun b a => if Bad ok e a b then U else 0)]
  have hsplit : ∑ a, ∑ b, (if Bad ok e a b then F - 2 * U else 0) =
      (∑ a, ∑ b, if Bad ok e a b then F - U else 0) - ∑ a, ∑ b, if Bad ok e a b then U else 0 := by
    rw [← Finset.sum_sub_distrib]
    refine Finset.sum_congr rfl fun a _ => ?_
    rw [← Finset.sum_sub_distrib]
    refine Finset.sum_congr rfl fun b _ => ?_
    split
    · ring
    · ring
  rw [hsplit]
  ring

/-! ## Optima -/

variable [LinearOrder K] [IsStrictOrderedRing K] (hF : 2 * U < F) (hmin : ∀ e', cost d ok F U e ≤ cost d ok F U e')
include hF hmin

/-- **An assignment of least cost** has no pair that is not allowed. -/
theorem optimal_allowed {a : α} {b : β} (h : e (.inl a) = .inl b) : ok a b := by
  by_contra hok
  have hpenalty : 0 < F - 2 * U := sub_pos.mpr hF
  have hterm (a : α) (b : β) : (0 : K) ≤ if Bad ok e a b then F - 2 * U else 0 := by
    split
    · exact hpenalty.le
    · exact le_rfl
  have hrow : F - 2 * U ≤ ∑ b, if Bad ok e a b then F - 2 * U else 0 := by
    have hone := Finset.single_le_sum (f := fun b => if Bad ok e a b then F - 2 * U else 0) (fun b _ => hterm a b)
      (Finset.mem_univ b)
    rwa [if_pos ⟨h, hok⟩] at hone
  have hall := Finset.single_le_sum (f := fun a => ∑ b, if Bad ok e a b then F - 2 * U else 0)
    (fun a _ => Finset.sum_nonneg fun b _ => hterm a b) (Finset.mem_univ a)
  have hle := hmin (fill (kept ok e))
  rw [cost_fill d ok F U fun a b hab => ((mem_kept ok e).mp hab).2, cost_eq] at hle
  linarith

/-- **Its matching** has the least total. -/
theorem optimal_kept {M : α ≃. β} (hM : ∀ a b, b ∈ M a → ok a b) : total d U (kept ok e) ≤ total d U M := by
  have hle := hmin (fill M)
  rw [cost_fill d ok F U hM, cost_eq] at hle
  have hzero : ∑ a, ∑ b, (if Bad ok e a b then F - 2 * U else 0) = 0 := by
    refine Finset.sum_eq_zero fun a _ => Finset.sum_eq_zero fun b _ => if_neg ?_
    rintro ⟨h, hok⟩
    exact hok (optimal_allowed d ok F U e hF hmin h)
  rwa [hzero, add_zero] at hle

end Kept

end Lhre.Assignment
