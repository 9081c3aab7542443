import Lhre.Bevo.DashScreen
import Lhre.Theory.Trace

/-!
# `Bevo.Correctness.ScreenOverride` — a gear change returns the dashboard to the gear's screen

The override is to end with the first snapshot whose gear differs from the last one known. The reader compares with the gear
of the snapshot before, which may have had none: a dropout between two gears hides the change.

## Contents
- **Runs.** `screenAt`, `lastKnown`; `GearChange`.
- **The property.** `ReturnsAt`; what breaks it is `HiddenChange`.
- **The stored gear.** `lastPrndl_eq`.
- **`gear_change_returns`**, and a dropout between park and drive.
-/

namespace Lhre.Bevo

open Trace

section Run

variable (ρ : ℕ → ScreenEvent)

/-! ## Runs -/

/-- The dashboard before event `n`. -/
def screenAt (n : ℕ) : ScreenState := stateAt ScreenState.step {} ρ n

/-- The last gear known before event `n`. -/
def lastKnown : ℕ → Option Prndl
  | 0 => none
  | n + 1 =>
      match ρ n with
      | .snapshot diagHigh => (prndlOf diagHigh).or (lastKnown n)
      | .screen _ => lastKnown n

/-- Event `n` is a snapshot with a gear other than the last one known. -/
def GearChange (n : ℕ) : Prop :=
  ∃ diagHigh prev cur, ρ n = .snapshot diagHigh ∧ lastKnown ρ n = some prev ∧ prndlOf diagHigh = some cur ∧ prev ≠ cur

/-- The last snapshot before event `n` had no gear. -/
def Dropout (n : ℕ) : Prop :=
  ∃ m < n, ∃ diagHigh, ρ m = .snapshot diagHigh ∧ prndlOf diagHigh = none ∧
    ∀ k, m < k → k < n → ∃ payload, ρ k = .screen payload

/-! ## The property -/

/-- A snapshot clears the override if it changes the gear, and leaves it if not. -/
def ReturnsAt (n : ℕ) : Prop :=
  (GearChange ρ n → (screenAt ρ (n + 1)).screenOverride = none) ∧
    ∀ diagHigh, ρ n = .snapshot diagHigh → ¬ GearChange ρ n →
      (screenAt ρ (n + 1)).screenOverride = (screenAt ρ n).screenOverride

/-- A change of gear behind a dropout, while a screen is forced. -/
def HiddenChange (n : ℕ) : Prop := GearChange ρ n ∧ Dropout ρ n ∧ (screenAt ρ n).screenOverride ≠ none

/-! ## The stored gear -/

variable {ρ}

theorem screenAt_succ (n : ℕ) : screenAt ρ (n + 1) = (screenAt ρ n).step (ρ n) := rfl

theorem dropout_succ_snapshot {n : ℕ} {diagHigh : Option ℚ} (h : ρ n = .snapshot diagHigh) :
    Dropout ρ (n + 1) ↔ prndlOf diagHigh = none := by
  constructor
  · rintro ⟨m, hm, diagHigh', hsnap, hnone, hquiet⟩
    rcases Nat.lt_or_eq_of_le (Nat.le_of_lt_succ hm) with hlt | rfl
    · obtain ⟨payload, hscreen⟩ := hquiet n hlt (Nat.lt_succ_self n)
      exact nomatch h.symm.trans hscreen
    · obtain rfl : diagHigh = diagHigh' := ScreenEvent.snapshot.inj (h.symm.trans hsnap)
      exact hnone
  · intro hnone
    refine ⟨n, Nat.lt_succ_self n, diagHigh, h, hnone, ?_⟩
    intro k hnk hk
    omega

theorem dropout_succ_screen {n : ℕ} {payload : String} (h : ρ n = .screen payload) :
    Dropout ρ (n + 1) ↔ Dropout ρ n := by
  constructor
  · rintro ⟨m, hm, diagHigh, hsnap, hnone, hquiet⟩
    rcases Nat.lt_or_eq_of_le (Nat.le_of_lt_succ hm) with hlt | rfl
    · exact ⟨m, hlt, diagHigh, hsnap, hnone, fun k hmk hk => hquiet k hmk (Nat.lt_succ_of_lt hk)⟩
    · exact nomatch h.symm.trans hsnap
  · rintro ⟨m, hm, diagHigh, hsnap, hnone, hquiet⟩
    refine ⟨m, Nat.lt_succ_of_lt hm, diagHigh, hsnap, hnone, ?_⟩
    intro k hmk hk
    rcases Nat.lt_or_eq_of_le (Nat.le_of_lt_succ hk) with hlt | rfl
    · exact hquiet k hmk hlt
    · exact ⟨payload, h⟩

open Classical in
/-- **The stored gear** is the last one known, but for a dropout. -/
theorem lastPrndl_eq (n : ℕ) : (screenAt ρ n).lastPrndl = if Dropout ρ n then none else lastKnown ρ n := by
  induction n with
  | zero =>
      rw [if_neg]
      · rfl
      · rintro ⟨m, hm, -⟩
        exact Nat.not_lt_zero m hm
  | succ n ih =>
      rw [screenAt_succ, lastKnown]
      cases hevent : ρ n with
      | snapshot diagHigh =>
          dsimp only
          rw [ScreenState.step, ScreenState.onSnapshot_lastPrndl]
          -- the snapshot stores its own gear, so no earlier dropout matters
          simp only [dropout_succ_snapshot hevent]
          split
          · assumption
          · rename_i hsome
            obtain ⟨cur, hcur⟩ := Option.ne_none_iff_exists'.mp hsome
            rw [hcur]
            rfl
      | screen payload =>
          dsimp only
          rw [ScreenState.step, ScreenState.onScreen_lastPrndl, ih]
          simp only [dropout_succ_screen hevent]

/-- **A snapshot clears the override** where it changes the gear and the stored gear is known. -/
theorem screenOverride_succ {n : ℕ} {diagHigh : Option ℚ} (h : ρ n = .snapshot diagHigh) :
    ((GearChange ρ n ∧ ¬ Dropout ρ n) → (screenAt ρ (n + 1)).screenOverride = none) ∧
      (¬ (GearChange ρ n ∧ ¬ Dropout ρ n) →
        (screenAt ρ (n + 1)).screenOverride = (screenAt ρ n).screenOverride) := by
  have hiff : (∃ prev cur, (screenAt ρ n).lastPrndl = some prev ∧ prndlOf diagHigh = some cur ∧ prev ≠ cur) ↔
      GearChange ρ n ∧ ¬ Dropout ρ n := by
    rw [lastPrndl_eq]
    constructor
    · rintro ⟨prev, cur, hprev, hcur, hne⟩
      split at hprev
      · exact nomatch hprev
      · rename_i hdrop
        exact ⟨⟨diagHigh, prev, cur, h, hprev, hcur, hne⟩, hdrop⟩
    · rintro ⟨⟨diagHigh', prev, cur, hsnap, hprev, hcur, hne⟩, hdrop⟩
      obtain rfl : diagHigh = diagHigh' := ScreenEvent.snapshot.inj (h.symm.trans hsnap)
      exact ⟨prev, cur, by rw [if_neg hdrop]; exact hprev, hcur, hne⟩
  rw [← hiff, screenAt_succ, h, ScreenState.step, ScreenState.onSnapshot_screenOverride]
  exact ⟨fun hchange => if_pos hchange, fun hno => if_neg hno⟩

/-- **One event.** The override ends as it should unless a dropout hides the change of gear. -/
theorem returnsAt_iff (n : ℕ) : ReturnsAt ρ n ↔ ¬ HiddenChange ρ n := by
  constructor
  · rintro ⟨hreturn, -⟩ ⟨hchange, hdrop, hforced⟩
    have hcleared := hreturn hchange
    obtain ⟨diagHigh, -, -, hsnap, -⟩ := hchange
    rw [(screenOverride_succ hsnap).2 fun hseen => hseen.2 hdrop] at hcleared
    exact hforced hcleared
  · intro hhidden
    constructor
    · intro hchange
      have hsnap := hchange
      obtain ⟨diagHigh, -, -, hsnap, -⟩ := hsnap
      -- behind a dropout the override stays; it is none after the event only if it was none before
      by_cases hdrop : Dropout ρ n
      · rw [(screenOverride_succ hsnap).2 fun hseen => hseen.2 hdrop]
        by_contra hforced
        exact hhidden ⟨hchange, hdrop, hforced⟩
      · exact (screenOverride_succ hsnap).1 ⟨hchange, hdrop⟩
    · intro diagHigh hsnap hchange
      exact (screenOverride_succ hsnap).2 fun hseen => hchange hseen.1

end Run

/-- **A change of gear returns the dashboard to automatic**, in every run, exactly where no dropout hides one. -/
theorem gear_change_returns (ρ : ℕ → ScreenEvent) : (∀ n, ReturnsAt ρ n) ↔ ∀ n, ¬ HiddenChange ρ n :=
  forall_congr' fun _ => returnsAt_iff _

/-- Park, a forced screen, a snapshot without a gear, and drive. -/
def dropoutRun : ℕ → ScreenEvent :=
  ofList [.snapshot (some 0), .screen "park", .snapshot none, .snapshot (some 1)] (.screen "auto")

/-- **A dropout between park and drive** leaves the driver on the forced screen. -/
theorem not_gear_change_returns : ¬ ∀ (ρ : ℕ → ScreenEvent) (n : ℕ), ReturnsAt ρ n := by
  intro hall
  have hchange : GearChange dropoutRun 3 := ⟨some 1, .p, .d, rfl, by decide, by decide, by decide⟩
  have hcleared := (hall dropoutRun 3).1 hchange
  have hkept : (screenAt dropoutRun 4).screenOverride = some "park" := by decide
  rw [hkept] at hcleared
  exact nomatch hcleared

end Lhre.Bevo
