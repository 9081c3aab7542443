import Mathlib.GroupTheory.Perm.Fin
import Mathlib.Data.Fintype.Perm
import Mathlib.Data.List.GetD
import Mathlib.Data.List.MinMax
import Lhre.Autonomy.Centerline
import Lhre.Theory.Assignment

/-!
# `Autonomy.Correctness.OptimalPairs` — classified cones are paired at the least total

The costs are those of a padded square, so an assignment of least cost is a matching of left with right cones inside the gate of
least total, an unmatched cone at the maximum width, and the filter behind the assignment drops the dummies only.

## Contents
- **The assignment.** `LeastCost`, `rows`, `columns`, `ofPerm`.
- **The pairs.** `costs_eq`, `pointOf`, `midpoints_eq`.
- **The optimum.** `pairs_optimal`, `exhaustive`.
-/

namespace Lhre.Autonomy.Centerline

open Assignment

variable {K : Type*} [Field K] [LinearOrder K]

/-! ## The assignment -/

/-- What `linear_sum_assignment` returns: each row with a column of its own, at the least cost. -/
def LeastCost (linearSumAssignment : ℕ → (ℕ → ℕ → K) → List (ℕ × ℕ)) : Prop :=
  ∀ (size : ℕ) (costs : ℕ → ℕ → K), ∃ σ : Equiv.Perm (Fin size),
    linearSumAssignment size costs = (List.finRange size).map (fun row : Fin size => ((row : ℕ), (σ row : ℕ))) ∧
      ∀ τ : Equiv.Perm (Fin size), ∑ row : Fin size, costs row (σ row) ≤ ∑ row : Fin size, costs row (τ row)

section Square
variable {m n : ℕ}

/-- The rows: the left cones, then a dummy for each right one. -/
def rows : Fin m ⊕ Fin n ≃ Fin (m + n) := finSumFinEquiv

/-- The columns: the right cones, then a dummy for each left one. -/
def columns : Fin n ⊕ Fin m ≃ Fin (m + n) := finSumFinEquiv.trans (finCongr (Nat.add_comm n m))

/-- An assignment of the square. -/
def ofPerm (σ : Equiv.Perm (Fin (m + n))) : Fin m ⊕ Fin n ≃ Fin n ⊕ Fin m := rows.trans (σ.trans columns.symm)

theorem columns_ofPerm (σ : Equiv.Perm (Fin (m + n))) (x : Fin m ⊕ Fin n) : columns (ofPerm σ x) = σ (rows x) :=
  columns.apply_symm_apply _

@[simp] theorem rows_inl (a : Fin m) : ((rows (.inl a) : Fin (m + n)) : ℕ) = a := rfl

@[simp] theorem rows_inr (b : Fin n) : ((rows (.inr b) : Fin (m + n)) : ℕ) = m + b := rfl

@[simp] theorem columns_inl (b : Fin n) : ((columns (.inl b) : Fin (m + n)) : ℕ) = b := rfl

@[simp] theorem columns_inr (a : Fin m) : ((columns (.inr a) : Fin (m + n)) : ℕ) = n + a := rfl

end Square

/-! ## The pairs -/

section Pairs
variable (norm : K → K → K) (leftCones rightCones : List (K × K)) (minimumWidth maximumWidth : K)

/-- The distance of two cones is in the gate. -/
abbrev InGate (a : Fin leftCones.length) (b : Fin rightCones.length) : Prop :=
  minimumWidth ≤ norm (leftCones[a].1 - rightCones[b].1) (leftCones[a].2 - rightCones[b].2) ∧
    norm (leftCones[a].1 - rightCones[b].1) (leftCones[a].2 - rightCones[b].2) ≤ maximumWidth

/-- The distance of two cones. -/
abbrev gap (a : Fin leftCones.length) (b : Fin rightCones.length) : K :=
  norm (leftCones[a].1 - rightCones[b].1) (leftCones[a].2 - rightCones[b].2)

omit [LinearOrder K] in
theorem distances_eq (a : Fin leftCones.length) (b : Fin rightCones.length) :
    distances norm leftCones rightCones a b = gap norm leftCones rightCones a b := by
  rw [distances, List.getD_eq_getElem _ _ a.isLt, List.getD_eq_getElem _ _ b.isLt]
  rfl

theorem valid_iff (a : Fin leftCones.length) (b : Fin rightCones.length) :
    valid norm leftCones rightCones minimumWidth maximumWidth a b = true ↔
      InGate norm leftCones rightCones minimumWidth maximumWidth a b := by
  rw [valid, decide_eq_true_eq, distances_eq]

/-- **The matrix** is the padded square. -/
theorem costs_eq (x : Fin leftCones.length ⊕ Fin rightCones.length) (y : Fin rightCones.length ⊕ Fin leftCones.length) :
    costs norm leftCones rightCones minimumWidth maximumWidth (rows x) (columns y) =
      padded (gap norm leftCones rightCones) (InGate norm leftCones rightCones minimumWidth maximumWidth) forbiddenCost
        maximumWidth x y := by
  unfold costs
  cases x with
  | inl a =>
      rw [rows_inl, if_pos a.isLt]
      cases y with
      | inl b =>
          rw [columns_inl, if_pos b.isLt, distances_eq]
          simp only [valid_iff, padded]
      | inr a' =>
          rw [columns_inr, if_neg (by omega)]
          rfl
  | inr b =>
      rw [rows_inr, if_neg (by omega)]
      cases y with
      | inl b' =>
          rw [columns_inl, if_pos b'.isLt]
          rfl
      | inr a =>
          rw [columns_inr, if_neg (by omega)]
          rfl

theorem cost_ofPerm (σ : Equiv.Perm (Fin (leftCones.length + rightCones.length))) :
    cost (gap norm leftCones rightCones) (InGate norm leftCones rightCones minimumWidth maximumWidth) forbiddenCost
        maximumWidth (ofPerm σ) =
      ∑ row : Fin (leftCones.length + rightCones.length), costs norm leftCones rightCones minimumWidth maximumWidth row
          (σ row) := by
  rw [cost, ← Equiv.sum_comp rows]
  refine Finset.sum_congr rfl fun x _ => ?_
  rw [← costs_eq, columns_ofPerm]

/-- The matching of an assignment. -/
def pairing (σ : Equiv.Perm (Fin (leftCones.length + rightCones.length))) : Fin leftCones.length ≃. Fin rightCones.length :=
  kept (InGate norm leftCones rightCones minimumWidth maximumWidth) (ofPerm σ)

/-- What the loop returns for a row and a column. -/
def pointOf (pair : ℕ × ℕ) : Option (K × K) :=
  if leftCones.length ≤ pair.1 ∨ rightCones.length ≤ pair.2 then none
  else if !valid norm leftCones rightCones minimumWidth maximumWidth pair.1 pair.2 then none
  else some (midpoint (leftCones.getD pair.1 (0, 0)) (rightCones.getD pair.2 (0, 0)))

theorem pointOf_inside (a : Fin leftCones.length) (b : Fin rightCones.length) :
    pointOf norm leftCones rightCones minimumWidth maximumWidth (a, b) =
      if InGate norm leftCones rightCones minimumWidth maximumWidth a b then some (midpoint leftCones[a] rightCones[b])
      else none := by
  unfold pointOf
  rw [if_neg (by omega)]
  by_cases hgate : InGate norm leftCones rightCones minimumWidth maximumWidth a b
  · rw [if_pos hgate, (valid_iff ..).mpr hgate, List.getD_eq_getElem _ _ a.isLt, List.getD_eq_getElem _ _ b.isLt]
    rfl
  · have hvalid : valid norm leftCones rightCones minimumWidth maximumWidth a b = false :=
      Bool.eq_false_iff.mpr fun hvalid => hgate ((valid_iff ..).mp hvalid)
    rw [if_neg hgate, hvalid]
    rfl

/-- The rows are the left cones, and then the dummies of the right ones. -/
theorem finRange_rows (m n : ℕ) : List.finRange (m + n) =
    (List.finRange m).map (fun a => (rows (.inl a) : Fin (m + n))) ++ (List.finRange n).map fun b => rows (.inr b) := by
  rw [← List.ofFn_id, List.ofFn_add, List.ofFn_eq_map, List.ofFn_eq_map]
  rfl

/-- A left cone's row gives the midpoint of its pair. -/
theorem pointOf_row (σ : Equiv.Perm (Fin (leftCones.length + rightCones.length))) (a : Fin leftCones.length) :
    pointOf norm leftCones rightCones minimumWidth maximumWidth ((a : ℕ), (columns (ofPerm σ (.inl a)) : ℕ)) =
      (pairing norm leftCones rightCones minimumWidth maximumWidth σ a).map fun b => midpoint leftCones[a] rightCones[b] := by
  cases h : ofPerm σ (.inl a) with
  | inr a' =>
      have hnone : pairing norm leftCones rightCones minimumWidth maximumWidth σ a = none := by
        refine Option.eq_none_iff_forall_not_mem.mpr fun b hb => ?_
        have hpair := ((mem_kept _ _).mp hb).1
        rw [h] at hpair
        cases hpair
      rw [hnone, pointOf, columns_inr, if_pos (Or.inr (by omega))]
      rfl
  | inl b =>
      rw [columns_inl, pointOf_inside]
      by_cases hgate : InGate norm leftCones rightCones minimumWidth maximumWidth a b
      · have hsome : pairing norm leftCones rightCones minimumWidth maximumWidth σ a = some b := (mem_kept _ _).mpr ⟨h, hgate⟩
        rw [hsome, if_pos hgate]
        rfl
      · have hnone : pairing norm leftCones rightCones minimumWidth maximumWidth σ a = none := by
          refine Option.eq_none_iff_forall_not_mem.mpr fun b' hb' => ?_
          obtain ⟨hpair, hgate'⟩ := (mem_kept _ _).mp hb'
          obtain rfl : b = b' := Sum.inl.inj (h.symm.trans hpair)
          exact hgate hgate'
        rw [hnone, if_neg hgate]
        rfl

/-- **What the loop returns** are the midpoints of the matching, in the order of the left cones. -/
theorem midpoints_eq (σ : Equiv.Perm (Fin (leftCones.length + rightCones.length))) :
    ((List.finRange (leftCones.length + rightCones.length)).map
      fun row : Fin (leftCones.length + rightCones.length) => ((row : ℕ), (σ row : ℕ))).filterMap
        (pointOf norm leftCones rightCones minimumWidth maximumWidth) =
      (List.finRange leftCones.length).filterMap fun a =>
        (pairing norm leftCones rightCones minimumWidth maximumWidth σ a).map fun b => midpoint leftCones[a] rightCones[b] := by
  rw [finRange_rows, List.map_append, List.filterMap_append]
  have hdummies : (((List.finRange rightCones.length).map fun b => rows (.inr b)).map
      fun row : Fin (leftCones.length + rightCones.length) => ((row : ℕ), (σ row : ℕ))).filterMap
        (pointOf norm leftCones rightCones minimumWidth maximumWidth) = [] := by
    refine List.filterMap_eq_nil_iff.mpr fun p hp => ?_
    obtain ⟨row, hrow, rfl⟩ := List.mem_map.mp hp
    obtain ⟨b, -, rfl⟩ := List.mem_map.mp hrow
    exact if_pos (Or.inl (by rw [rows_inr]; omega))
  rw [hdummies, List.append_nil, List.filterMap_map, List.filterMap_map]
  refine List.filterMap_congr fun a _ => ?_
  rw [← pointOf_row, columns_ofPerm σ (.inl a)]
  simp only [Function.comp_apply, rows_inl]

/-! ## The optimum -/

/-- **The pairs of the cones** are a matching inside the gate of least total, and no forbidden pair is assigned. -/
theorem pairs_optimal [IsStrictOrderedRing K] (linearSumAssignment : ℕ → (ℕ → ℕ → K) → List (ℕ × ℕ))
    (hleast : LeastCost linearSumAssignment) (trackWidth widthTolerance : K) (hwidth : trackWidth + widthTolerance < 500000) :
    let gate := InGate norm leftCones rightCones (trackWidth - widthTolerance) (trackWidth + widthTolerance)
    let square := costs norm leftCones rightCones (trackWidth - widthTolerance) (trackWidth + widthTolerance)
    ∃ M : Fin leftCones.length ≃. Fin rightCones.length, (∀ a b, b ∈ M a → gate a b) ∧
      pairClassifiedCones norm linearSumAssignment leftCones rightCones trackWidth widthTolerance =
        (List.finRange leftCones.length).filterMap (fun a => (M a).map fun b => midpoint leftCones[a] rightCones[b]) ∧
      (∀ M' : Fin leftCones.length ≃. Fin rightCones.length, (∀ a b, b ∈ M' a → gate a b) →
        total (gap norm leftCones rightCones) (trackWidth + widthTolerance) M ≤
          total (gap norm leftCones rightCones) (trackWidth + widthTolerance) M') ∧
      ∀ p ∈ linearSumAssignment (leftCones.length + rightCones.length) square,
        ∀ (hrow : p.1 < leftCones.length) (hcolumn : p.2 < rightCones.length), gate ⟨p.1, hrow⟩ ⟨p.2, hcolumn⟩ := by
  intro gate square
  obtain ⟨σ, hlist, hmin⟩ := hleast (leftCones.length + rightCones.length) square
  have hpenalty : 2 * (trackWidth + widthTolerance) < (forbiddenCost : K) := by
    rw [forbiddenCost]
    linarith
  have hoptimal (e : Fin leftCones.length ⊕ Fin rightCones.length ≃ Fin rightCones.length ⊕ Fin leftCones.length) :
      cost (gap norm leftCones rightCones) gate forbiddenCost (trackWidth + widthTolerance) (ofPerm σ) ≤
        cost (gap norm leftCones rightCones) gate forbiddenCost (trackWidth + widthTolerance) e := by
    obtain ⟨τ, rfl⟩ : ∃ τ, ofPerm τ = e := ⟨rows.symm.trans (e.trans columns), by ext x; simp [ofPerm]⟩
    rw [cost_ofPerm, cost_ofPerm]
    exact hmin τ
  refine ⟨pairing norm leftCones rightCones (trackWidth - widthTolerance) (trackWidth + widthTolerance) σ, ?_, ?_, ?_, ?_⟩
  · intro a b hab
    exact ((mem_kept _ _).mp hab).2
  · unfold pairClassifiedCones
    split
    next hempty =>
      symm
      refine List.filterMap_eq_nil_iff.mpr fun a _ => ?_
      -- one of the sides has no cone
      rcases hempty with hleft | hright
      · exact absurd a.isLt (by simp [hleft])
      · rw [Option.map_eq_none_iff]
        refine Option.eq_none_iff_forall_not_mem.mpr fun b _ => ?_
        exact absurd b.isLt (by simp [hright])
    next =>
      dsimp only
      rw [hlist]
      exact midpoints_eq norm leftCones rightCones _ _ σ
  · intro M' hM'
    exact optimal_kept _ _ _ _ _ hpenalty hoptimal hM'
  · intro p hp hrow hcolumn
    rw [hlist] at hp
    obtain ⟨row, -, rfl⟩ := List.mem_map.mp hp
    refine optimal_allowed _ _ _ _ _ hpenalty hoptimal ?_
    refine columns.injective (Fin.ext ?_)
    have hsame : rows (.inl ⟨(row : ℕ), hrow⟩) = row := Fin.ext rfl
    rw [columns_ofPerm, hsame]
    rfl

end Pairs

/-- An assignment found by trying every permutation. -/
def exhaustive (size : ℕ) (costs : ℕ → ℕ → ℚ) : List (ℕ × ℕ) :=
  ((permsOfList (List.finRange size)).argmin fun σ => ∑ row : Fin size, costs row (σ row)).elim []
    fun σ => (List.finRange size).map fun row : Fin size => ((row : ℕ), (σ row : ℕ))

theorem exhaustive_leastCost : LeastCost exhaustive := by
  intro size costs
  have hall (τ : Equiv.Perm (Fin size)) : τ ∈ permsOfList (List.finRange size) :=
    mem_permsOfList_of_mem fun x _ => List.mem_finRange x
  cases h : (permsOfList (List.finRange size)).argmin fun σ => ∑ row : Fin size, costs row (σ row) with
  | none =>
      rw [List.argmin_eq_none] at h
      have hone := hall 1
      rw [h] at hone
      cases hone
  | some σ =>
      refine ⟨σ, by rw [exhaustive, h]; rfl, fun τ => ?_⟩
      exact List.le_of_mem_argmin (f := fun σ : Equiv.Perm (Fin size) => ∑ row : Fin size, costs row (σ row)) (hall τ) h

/-- Two left cones and one right cone between them, with the city norm. -/
theorem pairs_optimal_three :
    ∃ M : Fin 2 ≃. Fin 1,
      pairClassifiedCones (fun x y : ℚ => |x| + |y|) exhaustive [(0, 0), (0, 5)] [(0, 3)] 3 1 =
        (List.finRange 2).filterMap fun a : Fin 2 => (M a).map fun b : Fin 1 =>
          midpoint [((0 : ℚ), (0 : ℚ)), (0, 5)][a] [((0 : ℚ), (3 : ℚ))][b] := by
  obtain ⟨M, -, hpairs, -⟩ := pairs_optimal (fun x y : ℚ => |x| + |y|) [(0, 0), (0, 5)] [(0, 3)] exhaustive
    exhaustive_leastCost 3 1 (by norm_num)
  exact ⟨M, hpairs⟩

end Lhre.Autonomy.Centerline
