import Mathlib.Tactic

/-!
# `Theory.Crossing` — paths that change sides

A path is a list of points, and a test looks at each of its steps. A test that passes only where a step goes strictly from one
side to the other counts nothing on a path that stays on a side, and at most the one step on which a path changes sides.

## Contents
- **Steps.** `steps`, `steps_append`.
- **Strict tests.** `IsStrict`, `steps_eq_zero`; `Passes`, `steps_change`, `steps_detour`.
-/

namespace Crossing

variable {α K : Type*}

/-! ## Steps -/

/-- How many steps of a path pass a test. -/
def steps (test : α → α → Bool) : List α → ℕ
  | p :: q :: rest => (if test p q = true then 1 else 0) + steps test (q :: rest)
  | _ => 0

variable {test : α → α → Bool}

@[simp] theorem steps_nil : steps test [] = 0 := rfl

@[simp] theorem steps_singleton (p : α) : steps test [p] = 0 := rfl

theorem steps_cons_cons (p q : α) (rest : List α) :
    steps test (p :: q :: rest) = (if test p q = true then 1 else 0) + steps test (q :: rest) := rfl

/-- A path in two parts has the steps of both. -/
theorem steps_append (l : List α) (p : α) (rest : List α) :
    steps test (l ++ p :: rest) = steps test (l ++ [p]) + steps test (p :: rest) := by
  induction l with
  | nil => rw [List.nil_append, List.nil_append, steps_singleton, Nat.zero_add]
  | cons q l ih =>
      cases l with
      | nil =>
          show (if test q p = true then 1 else 0) + steps test (p :: rest) =
            (if test q p = true then 1 else 0) + 0 + steps test (p :: rest)
          rw [Nat.add_zero]
      | cons r l =>
          show (if test q r = true then 1 else 0) + steps test (r :: l ++ p :: rest) =
            (if test q r = true then 1 else 0) + steps test (r :: l ++ [p]) + steps test (p :: rest)
          rw [ih, Nat.add_assoc]

/-! ## Strict tests -/

variable [CommRing K] [LinearOrder K] [IsStrictOrderedRing K]

/-- The test passes only on steps that go strictly from one side to the other. -/
def IsStrict (side : α → K) (test : α → α → Bool) : Prop := ∀ p q, test p q = true → side p * side q < 0

section Strict

variable {side : α → K} {σ : K} {l : List α}

/-- **A path that stays on a side** has no step that passes; it may touch the line. -/
theorem steps_eq_zero (h : IsStrict side test) (hσ : σ ≠ 0) (hside : ∀ p ∈ l, 0 ≤ σ * side p) : steps test l = 0 := by
  induction l with
  | nil => rfl
  | cons p l ih =>
      cases l with
      | nil => rfl
      | cons q rest =>
          have hp := hside p List.mem_cons_self
          have hq := hside q (List.mem_cons_of_mem _ List.mem_cons_self)
          have hno : ¬ test p q = true := by
            intro hpass
            -- up to `σ` both ends are on one side, so their sides do not have a negative product
            have hopposite := h p q hpass
            have hsame : 0 ≤ (σ * side p) * (σ * side q) := mul_nonneg hp hq
            have hsquare : 0 < σ * σ := mul_self_pos.mpr hσ
            have hneg : σ * σ * (side p * side q) < 0 := mul_neg_of_pos_of_neg hsquare hopposite
            have heq : (σ * side p) * (σ * side q) = σ * σ * (side p * side q) := by ring
            rw [heq] at hsame
            exact absurd hneg (not_lt.mpr hsame)
          rw [steps_cons_cons, if_neg hno, Nat.zero_add]
          exact ih fun r hr => hside r (List.mem_cons_of_mem _ hr)

variable {a b : α} {before after on : List α}

/-- The sides of a path that goes over the line once: on one side up to `a`, on the line, and on the other side from `b` on. -/
structure Passes (side : α → K) (σ : K) (before : List α) (a : α) (on : List α) (b : α) (after : List α) : Prop where
  ne : σ ≠ 0
  before : ∀ p ∈ before, 0 ≤ σ * side p
  first : 0 < σ * side a
  on : ∀ p ∈ on, side p = 0
  last : σ * side b < 0
  after : ∀ p ∈ after, σ * side p ≤ 0

namespace Passes

variable (hpass : Passes side σ before a on b after)
include hpass

omit [IsStrictOrderedRing K] in
theorem before_first : ∀ p ∈ before ++ [a], 0 ≤ σ * side p := by
  intro p hp
  rcases List.mem_append.mp hp with hp | hp
  · exact hpass.before p hp
  · rw [List.mem_singleton.mp hp]
    exact hpass.first.le

/-- From the line on, the path is on the side of `-σ`. -/
theorem on_after : ∀ p ∈ on ++ b :: after, 0 ≤ -σ * side p := by
  intro p hp
  rw [neg_mul, Left.nonneg_neg_iff]
  rcases List.mem_append.mp hp with hp | hp
  · rw [hpass.on p hp, mul_zero]
  · rcases List.mem_cons.mp hp with rfl | hp
    · exact hpass.last.le
    · exact hpass.after p hp

end Passes

/-- **A path that changes sides in one step** counts that step, if it passes. -/
theorem steps_change (h : IsStrict side test) (hpass : Passes side σ before a [] b after) :
    steps test (before ++ a :: b :: after) = if test a b = true then 1 else 0 := by
  have hbefore : steps test (before ++ [a]) = 0 := steps_eq_zero h hpass.ne hpass.before_first
  have hafter : steps test (b :: after) = 0 := steps_eq_zero h (neg_ne_zero.mpr hpass.ne) hpass.on_after
  rw [steps_append, hbefore, Nat.zero_add, steps_cons_cons, hafter, Nat.add_zero]

/-- **A path that changes sides with points on the line** counts nothing. -/
theorem steps_detour (h : IsStrict side test) (hpass : Passes side σ before a on b after) (hon : on ≠ []) :
    steps test (before ++ a :: (on ++ b :: after)) = 0 := by
  obtain ⟨m, rest, rfl⟩ := List.exists_cons_of_ne_nil hon
  -- cut at the first point on the line: either part stays on a side, and has that point at its end
  have hsplit : before ++ a :: (m :: rest ++ b :: after) = (before ++ [a]) ++ m :: (rest ++ b :: after) := by
    rw [List.append_assoc]
    rfl
  have hbefore : steps test ((before ++ [a]) ++ [m]) = 0 := by
    refine steps_eq_zero h hpass.ne ?_
    intro p hp
    rcases List.mem_append.mp hp with hp | hp
    · exact hpass.before_first p hp
    · rw [List.mem_singleton.mp hp, hpass.on m List.mem_cons_self, mul_zero]
  have hafter : steps test (m :: (rest ++ b :: after)) = 0 := steps_eq_zero h (neg_ne_zero.mpr hpass.ne) hpass.on_after
  rw [hsplit, steps_append, hbefore, hafter]

end Strict

end Crossing
