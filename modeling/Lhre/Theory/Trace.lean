import Mathlib.Tactic

/-!
# `Theory.Trace` — runs of a deterministic machine and the rules for reasoning about them

A machine is a step function `step : σ → ε → σ`; a run feeds it an infinite stream of events
`ρ : ℕ → ε`. Every finite run is a prefix of such a stream, so a property of all positions of all streams
is a property of every finite run.

## Contents
- **Runs.** `stateAt step s₀ ρ n` is the state after the first `n` events.
- **Invariance.** `always` (an inductive invariant holds throughout), `holds_until` (a fact that survives
  every event except a releasing one holds until the first release), `frame` (a component no event of a
  stretch writes is unchanged over it).
- **History.** `exists_last_rise` (a condition that holds now started to hold at some event and has held
  since), `exists_cause` and `latched_iff` (a latch is set if it was set at some event and not released since),
  `last_event` (either no event of a kind happened, or there is a last one), and `latest` (the value the last event of
  a kind left).
-/

namespace Trace

variable {σ ε α : Type*}

/-- The state after the first `n` events of the stream `ρ`. -/
def stateAt (step : σ → ε → σ) (s₀ : σ) (ρ : ℕ → ε) : ℕ → σ
  | 0 => s₀
  | n + 1 => step (stateAt step s₀ ρ n) (ρ n)

/-- The stream that plays a finite list of events and then repeats `d`. -/
def ofList (l : List ε) (d : ε) : ℕ → ε := fun n => l.getD n d

theorem ofList_of_le {l : List ε} {d : ε} {n : ℕ} (h : l.length ≤ n) : ofList l d n = d := by
  simp [ofList, List.getElem?_eq_none h]

variable {step : σ → ε → σ} {s₀ : σ} {ρ : ℕ → ε}

@[simp] theorem stateAt_zero : stateAt step s₀ ρ 0 = s₀ := rfl

@[simp] theorem stateAt_succ (n : ℕ) :
    stateAt step s₀ ρ (n + 1) = step (stateAt step s₀ ρ n) (ρ n) := rfl

/-! ## Invariance -/

/-- **Inductive invariants hold throughout.** -/
theorem always {I : σ → Prop} (h₀ : I s₀) (hstep : ∀ s e, I s → I (step s e)) :
    ∀ n, I (stateAt step s₀ ρ n) := by
  intro n
  induction n with
  | zero => exact h₀
  | succ k ih => exact hstep _ _ ih

/-- **A fact holds until released.** If `P` survives every position that does not release it, then from
    a position where it holds it still holds at any later one reached with no release in between. -/
theorem holds_until {P R : ℕ → Prop} (hstep : ∀ k, P k → ¬ R k → P (k + 1)) {m n : ℕ} (hmn : m ≤ n)
    (hm : P m) (hno : ∀ k, m ≤ k → k < n → ¬ R k) : P n := by
  induction n, hmn using Nat.le_induction with
  | base => exact hm
  | succ k hk ih =>
      have hP : P k := ih (fun j hj hjk => hno j hj (by omega))
      exact hstep k hP (hno k hk (Nat.lt_succ_self k))

/-- **Frame.** A quantity that no position of `[m, n)` changes has the same value at `m` and at `n`. -/
theorem frame {f : ℕ → α} {m n : ℕ} (hmn : m ≤ n)
    (hsame : ∀ k, m ≤ k → k < n → f (k + 1) = f k) : f n = f m := by
  induction n, hmn using Nat.le_induction with
  | base => rfl
  | succ k hk ih =>
      rw [hsame k hk (Nat.lt_succ_self k)]
      exact ih (fun j hj hjk => hsame j hj (by omega))

/-! ## History -/

/-- **The last rise.** A condition that holds at `n` but not at the start began to hold at some position
    `m < n` and has held ever since. -/
theorem exists_last_rise {P : ℕ → Prop} {n : ℕ} (h₀ : ¬ P 0) (hn : P n) :
    ∃ m, m < n ∧ ¬ P m ∧ ∀ k, m < k → k ≤ n → P k := by
  induction n with
  | zero => exact absurd hn h₀
  | succ j ih =>
      by_cases hj : P j
      · obtain ⟨m, hmj, hm, hsince⟩ := ih hj
        refine ⟨m, Nat.lt_succ_of_lt hmj, hm, ?_⟩
        intro k hmk hk
        rcases Nat.lt_or_eq_of_le hk with hlt | rfl
        · exact hsince k hmk (Nat.le_of_lt_succ hlt)
        · exact hn
      · refine ⟨j, Nat.lt_succ_self j, hj, ?_⟩
        intro k hjk hk
        have hkj : k = j + 1 := Nat.le_antisymm hk hjk
        rw [hkj]
        exact hn

/-- **The last event of a kind.** Before position `n` either no event of kind `W` happened, or there is a
    last one. -/
theorem last_event (W : ℕ → Prop) (n : ℕ) :
    (∀ k, k < n → ¬ W k) ∨ ∃ m, m < n ∧ W m ∧ ∀ k, m < k → k < n → ¬ W k := by
  induction n with
  | zero =>
      left
      intro k hk
      exact absurd hk (Nat.not_lt_zero k)
  | succ j ih =>
      by_cases hj : W j
      · right
        refine ⟨j, Nat.lt_succ_self j, hj, ?_⟩
        intro k hjk hk
        omega
      · rcases ih with hnone | ⟨m, hmj, hm, hsince⟩
        · left
          intro k hk
          rcases Nat.lt_succ_iff_lt_or_eq.mp hk with hlt | rfl
          · exact hnone k hlt
          · exact hj
        · right
          refine ⟨m, Nat.lt_succ_of_lt hmj, hm, ?_⟩
          intro k hmk hk
          rcases Nat.lt_succ_iff_lt_or_eq.mp hk with hlt | rfl
          · exact hsince k hmk hlt
          · exact hj

/-- **A latch that is set was set by something.** If `P` holds after a position only because the position set it or
    because it held before and was not released there, then wherever `P` holds some earlier position set it and none
    since released it. -/
theorem exists_cause {P S R : ℕ → Prop} (h₀ : ¬ P 0) (hstep : ∀ k, P (k + 1) → S k ∨ (P k ∧ ¬ R k)) {n : ℕ}
    (hn : P n) : ∃ m, m < n ∧ S m ∧ ∀ k, m < k → k < n → ¬ R k := by
  induction n with
  | zero => exact absurd hn h₀
  | succ j ih =>
      rcases hstep j hn with hset | ⟨hj, hno⟩
      · refine ⟨j, Nat.lt_succ_self j, hset, ?_⟩
        intro k hjk hk
        omega
      · obtain ⟨m, hmj, hm, hsince⟩ := ih hj
        refine ⟨m, Nat.lt_succ_of_lt hmj, hm, ?_⟩
        intro k hmk hk
        rcases Nat.lt_succ_iff_lt_or_eq.mp hk with hlt | rfl
        · exact hsince k hmk hlt
        · exact hno

/-- **What a latch remembers.** If `P` holds after a position exactly when the position set it, or it held before and was
    not released there, then it holds exactly when some earlier position set it and none since released it. -/
theorem latched_iff {P S R : ℕ → Prop} (h₀ : ¬ P 0) (hstep : ∀ k, P (k + 1) ↔ S k ∨ (P k ∧ ¬ R k)) (n : ℕ) :
    P n ↔ ∃ m, m < n ∧ S m ∧ ∀ k, m < k → k < n → ¬ R k := by
  constructor
  · exact fun hn => exists_cause h₀ (fun k hk => (hstep k).mp hk) hn
  · rintro ⟨m, hmn, hm, hno⟩
    refine holds_until (fun k hk hr => (hstep k).mpr (Or.inr ⟨hk, hr⟩)) (Nat.succ_le_of_lt hmn)
      ((hstep m).mpr (Or.inl hm)) ?_
    intro k hmk hkn
    exact hno k hmk hkn

/-- **The latest value.** A component that every position of kind `W` sets, and that no other position changes, is empty as
    long as there was none, and then has the value of the last one. -/
theorem latest {f : ℕ → Option α} {W : ℕ → Prop} {v : ℕ → α} (h₀ : f 0 = none) (hset : ∀ k, W k → f (k + 1) = some (v k))
    (hframe : ∀ k, ¬ W k → f (k + 1) = f k) (n : ℕ) :
    (f n = none ∧ ∀ k, k < n → ¬ W k) ∨
      ∃ m, m < n ∧ W m ∧ f n = some (v m) ∧ ∀ k, m < k → k < n → ¬ W k := by
  rcases last_event W n with hnone | ⟨m, hmn, hm, hsince⟩
  · left
    refine ⟨?_, hnone⟩
    rw [← h₀]
    exact frame (Nat.zero_le n) fun k _ hk => hframe k (hnone k hk)
  · right
    refine ⟨m, hmn, hm, ?_, hsince⟩
    rw [← hset m hm]
    exact frame hmn fun k hmk hk => hframe k (hsince k hmk hk)

end Trace
