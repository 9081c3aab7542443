import Mathlib.Tactic

/-!
# `Theory.Steps` — runs of a machine whose steps may be refused

A machine is a partial step function `step : σ → ε → Option σ`: it refuses an event that cannot happen in its state.
A condition `ok` singles out the steps a run may take, so that a property is one of all runs, or of the runs that keep a
condition.

## Contents
- **Runs.** `Steps step ok s es t`: the events `es` lead from `s` to `t`, each of them allowed.
- **Weaker conditions.** `Steps.mono`.
- **Invariance.** `Steps.invariant`.
- **Computed runs.** `play`, `steps_of_play`.
-/

namespace Machine

variable {σ ε : Type*}

/-- The events lead from a state to another one, and each of them is allowed in its state. -/
def Steps (step : σ → ε → Option σ) (ok : σ → ε → Prop) (s : σ) : List ε → σ → Prop
  | [], t => t = s
  | e :: es, t => ok s e ∧ ∃ m, step s e = some m ∧ Steps step ok m es t

/-- A run with no condition on its steps. -/
def always : σ → ε → Prop := fun _ _ => True

instance (s : σ) : DecidablePred (always (ε := ε) s) := fun _ => .isTrue trivial

variable {step : σ → ε → Option σ} {ok ok' : σ → ε → Prop} {s t : σ} {es : List ε}

/-! ## Weaker conditions -/

theorem Steps.mono (hok : ∀ s e, ok s e → ok' s e) (h : Steps step ok s es t) : Steps step ok' s es t := by
  induction es generalizing s with
  | nil => exact h
  | cons e es ih =>
      obtain ⟨he, m, hm, h⟩ := h
      exact ⟨hok s e he, m, hm, ih h⟩

/-! ## Invariance -/

/-- **What every allowed step preserves holds at the end of every run.** -/
theorem Steps.invariant {I : σ → Prop} (hstep : ∀ s e t, I s → ok s e → step s e = some t → I t) (hs : I s)
    (h : Steps step ok s es t) : I t := by
  induction es generalizing s with
  | nil =>
      obtain rfl : t = s := h
      exact hs
  | cons e es ih =>
      obtain ⟨he, m, hm, h⟩ := h
      exact ih (hstep s e m hs he hm) h

/-! ## Computed runs -/

/-- Play a list of events, as long as each is allowed. -/
def play (step : σ → ε → Option σ) (ok : σ → ε → Prop) [∀ s e, Decidable (ok s e)] (s : σ) : List ε → Option σ
  | [] => some s
  | e :: es => if ok s e then (step s e).bind fun m => play step ok m es else none

theorem steps_of_play [∀ s e, Decidable (ok s e)] (h : play step ok s es = some t) : Steps step ok s es t := by
  induction es generalizing s with
  | nil => exact (Option.some.inj h).symm
  | cons e es ih =>
      rw [play] at h
      split at h
      · rename_i hok
        obtain ⟨m, hm, h⟩ := Option.bind_eq_some_iff.mp h
        exact ⟨hok, m, hm, ih h⟩
      · exact absurd h (by simp)

end Machine
