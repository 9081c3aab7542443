import Lhre.CarStatus.Classifier
import Lhre.Theory.Trace

/-!
# `CarStatus.Correctness.Debounce` — when the committed state changes

A state is committed once it was seen without interruption for the minimum time. The machine remembers the state that waits
and when it was first seen: `Waits` says what that is of the frames so far. The thresholds may change from frame to frame.

## Contents
- **Runs.** `Tick`, `machineAt`, `instant`, `transition`.
- **The law.** `HeldSince`, `Debounced`.
- **One frame.** `debounce_first`, `debounce_cases`.
- **What waits.** `Waits`, `waits`.
- **`debounced`.**
-/

namespace Lhre.CarStatus

open Trace

/-! ## Runs -/

/-- A frame, and the thresholds that are set when it comes. -/
structure Tick where
  thresholds : Thresholds := {}
  frame : Frame
  tMs : ℚ

section Run

variable (parse : String → Option (Option ℚ)) (ρ : ℕ → Tick)

/-- `set_thresholds`, and then `update`. -/
def CarStateMachine.tick (m : CarStateMachine) (τ : Tick) : CarStateMachine × Status :=
  (m.setThresholds τ.thresholds).update parse τ.frame τ.tMs

/-- The machine before frame `n`. -/
def machineAt (n : ℕ) : CarStateMachine := stateAt (fun m τ => (m.tick parse τ).1) {} ρ n

/-- The state committed before frame `n`. -/
def committedAt (n : ℕ) : Option CarState := (machineAt parse ρ n).committed

/-- The state of frame `n` by itself. -/
def instant (n : ℕ) : CarState := (classifyInstant parse (ρ n).frame (ρ n).thresholds).1

/-- The transition flag of frame `n`. -/
def transition (n : ℕ) : Bool := ((machineAt parse ρ n).tick parse (ρ n)).2.transition

/-! ## The law -/

/-- The frames from `k` up to `n` all show the state `s`. -/
def HeldSince (s : CarState) (k n : ℕ) : Prop := ∀ j, k ≤ j → j ≤ n → instant parse ρ j = s

/-- No state was committed on the frames from `k` up to `n`. -/
def Uncommitted (k n : ℕ) : Prop := ∀ j, k ≤ j → j ≤ n → transition parse ρ j = false

end Run

/-! ## One frame -/

section Frame

variable {m : CarStateMachine} {i : CarState} {t : ℚ}

theorem debounce_first (h : m.committed = none) : m.debounce i t = (m.commit i t, true) := by
  unfold CarStateMachine.debounce
  rw [h]

/-- What a later frame does: it shows the committed state, begins a wait, goes on with one, or ends it. -/
inductive Debounces (m : CarStateMachine) (i c : CarState) (t : ℚ) (m' : CarStateMachine) (flag : Bool) : Prop
  | same (hi : i = c) (hm : m' = { m with pending := none }) (hf : flag = false)
  | begins (hi : i ≠ c) (hp : ∀ p, m.pending = some p → p.state ≠ i) (hm : m' = { m with pending := some ⟨i, t⟩ })
      (hf : flag = false)
  | waits (p : Pending) (hi : i ≠ c) (hp : m.pending = some p) (hs : p.state = i)
      (hshort : t - p.sinceMs < m.thresholds.minStateMs) (hm : m' = m) (hf : flag = false)
  | commits (p : Pending) (hi : i ≠ c) (hp : m.pending = some p) (hs : p.state = i)
      (hlong : m.thresholds.minStateMs ≤ t - p.sinceMs) (hm : m' = m.commit i t) (hf : flag = true)

theorem debounce_cases {c : CarState} (h : m.committed = some c) :
    Debounces m i c t (m.debounce i t).1 (m.debounce i t).2 := by
  obtain ⟨thresholds, committed, since, reasons, pending⟩ := m
  dsimp only at h
  subst h
  unfold CarStateMachine.debounce
  dsimp only
  split
  · rename_i hi
    exact .same hi rfl rfl
  · rename_i hi
    cases pending with
    | none =>
        refine .begins hi ?_ rfl rfl
        intro p hp
        cases hp
    | some p =>
        dsimp only
        split
        · rename_i hs
          refine .begins hi ?_ rfl rfl
          intro p' hp'
          obtain rfl := Option.some.inj hp'
          exact hs
        · rename_i hs
          split
          · rename_i hlong
            exact .commits p hi rfl (not_not.mp hs) hlong rfl rfl
          · rename_i hshort
            exact .waits p hi rfl (not_not.mp hs) (not_le.mp hshort) rfl rfl

end Frame

section Law

variable {parse : String → Option (Option ℚ)} {ρ : ℕ → Tick}

/-- The machine that `debounce` is applied to on frame `n`. -/
def seenAt (parse : String → Option (Option ℚ)) (ρ : ℕ → Tick) (n : ℕ) : CarStateMachine :=
  { machineAt parse ρ n with
    thresholds := (ρ n).thresholds
    lastReasons := (classifyInstant parse (ρ n).frame (ρ n).thresholds).2 }

theorem machineAt_succ (n : ℕ) :
    machineAt parse ρ (n + 1) = ((seenAt parse ρ n).debounce (instant parse ρ n) (ρ n).tMs).1 := rfl

theorem transition_eq (n : ℕ) :
    transition parse ρ n = ((seenAt parse ρ n).debounce (instant parse ρ n) (ρ n).tMs).2 := rfl

theorem committedAt_first : committedAt parse ρ 1 = some (instant parse ρ 0) ∧ transition parse ρ 0 = true := by
  have hfirst := debounce_first (m := seenAt parse ρ 0) (i := instant parse ρ 0) (t := (ρ 0).tMs) rfl
  unfold committedAt
  rw [machineAt_succ, transition_eq, hfirst]
  exact ⟨rfl, rfl⟩

/-! ## What waits -/

/-- The state that waits before frame `n + 1`, seen without interruption since `k` and for no longer. -/
structure Since (parse : String → Option (Option ℚ)) (ρ : ℕ → Tick) (n k : ℕ) (p : Pending) : Prop where
  le : k ≤ n
  time : p.sinceMs = (ρ k).tMs
  held : HeldSince parse ρ p.state k n
  open_ : Uncommitted parse ρ k n
  first : ∀ k' ≤ n, HeldSince parse ρ p.state k' n → Uncommitted parse ρ k' n → k ≤ k'

/-- What the machine remembers before frame `n + 1`. -/
structure Waits (parse : String → Option (Option ℚ)) (ρ : ℕ → Tick) (n : ℕ) (c : CarState) : Prop where
  committed : committedAt parse ρ (n + 1) = some c
  idle : (machineAt parse ρ (n + 1)).pending = none → instant parse ρ n = c
  busy : ∀ p, (machineAt parse ρ (n + 1)).pending = some p → p.state = instant parse ρ n ∧ p.state ≠ c ∧
    ∃ k, Since parse ρ n k p

/-- What frame `n + 1` does. -/
theorem Waits.cases {n : ℕ} {c : CarState} (h : Waits parse ρ n c) :
    Debounces (seenAt parse ρ (n + 1)) (instant parse ρ (n + 1)) c (ρ (n + 1)).tMs (machineAt parse ρ (n + 2))
      (transition parse ρ (n + 1)) := by
  rw [machineAt_succ, transition_eq]
  exact debounce_cases h.committed

/-- A frame that does not show the state of the one before begins a wait of its own. -/
theorem Since.begins {n : ℕ} (hflag : transition parse ρ (n + 1) = false) (hne : instant parse ρ n ≠ instant parse ρ (n + 1)) :
    Since parse ρ (n + 1) (n + 1) ⟨instant parse ρ (n + 1), (ρ (n + 1)).tMs⟩ where
  le := le_rfl
  time := rfl
  held := by
    intro j hj hjn
    rw [Nat.le_antisymm hjn hj]
  open_ := by
    intro j hj hjn
    rw [Nat.le_antisymm hjn hj]
    exact hflag
  first := by
    intro k' hk' hheld _
    by_contra hlt
    exact hne (hheld n (by omega) (Nat.le_succ n))

/-- A frame that shows the state that waits goes on with the wait. -/
theorem Since.step {n k : ℕ} {p : Pending} (h : Since parse ρ n k p) (hflag : transition parse ρ (n + 1) = false)
    (hs : p.state = instant parse ρ (n + 1)) : Since parse ρ (n + 1) k p where
  le := Nat.le_succ_of_le h.le
  time := h.time
  held := by
    intro j hj hjn
    rcases Nat.lt_or_eq_of_le hjn with hlt | rfl
    · exact h.held j hj (Nat.le_of_lt_succ hlt)
    · exact hs.symm
  open_ := by
    intro j hj hjn
    rcases Nat.lt_or_eq_of_le hjn with hlt | rfl
    · exact h.open_ j hj (Nat.le_of_lt_succ hlt)
    · exact hflag
  first := by
    intro k' hk' hheld hopen
    rcases Nat.lt_or_eq_of_le hk' with hlt | rfl
    · exact h.first k' (Nat.le_of_lt_succ hlt) (fun j hj hjn => hheld j hj (Nat.le_succ_of_le hjn))
        fun j hj hjn => hopen j hj (Nat.le_succ_of_le hjn)
    · exact Nat.le_succ_of_le h.le

/-- **One more frame** keeps what the machine remembers. -/
theorem Waits.step {n : ℕ} {c : CarState} (h : Waits parse ρ n c) : ∃ c', Waits parse ρ (n + 1) c' := by
  cases h.cases with
  | same hi hm hf =>
      refine ⟨c, ?_, ?_, ?_⟩
      · rw [committedAt, hm]
        exact h.committed
      · exact fun _ => hi
      · intro p hp
        rw [hm] at hp
        cases hp
  | begins hi hp hm hf =>
      have hpending : (machineAt parse ρ (n + 2)).pending = some ⟨instant parse ρ (n + 1), (ρ (n + 1)).tMs⟩ := by rw [hm]
      refine ⟨c, ?_, ?_, ?_⟩
      · rw [committedAt, hm]
        exact h.committed
      · intro hnone
        rw [hpending] at hnone
        cases hnone
      · intro p hp'
        obtain rfl := Option.some.inj (hpending.symm.trans hp')
        refine ⟨rfl, hi, n + 1, Since.begins hf ?_⟩
        -- what waited, or the committed state, was shown by the frame before
        cases hbefore : (machineAt parse ρ (n + 1)).pending with
        | none => exact fun heq => hi (heq.symm.trans (h.idle hbefore))
        | some q => exact fun heq => hp q hbefore ((h.busy q hbefore).1.trans heq)
  | waits p hi hp hs hshort hm hf =>
      refine ⟨c, ?_, ?_, ?_⟩
      · rw [committedAt, hm]
        exact h.committed
      · intro hnone
        rw [hm] at hnone
        rw [hp] at hnone
        cases hnone
      · intro q hq
        rw [hm] at hq
        obtain rfl := Option.some.inj (hp.symm.trans hq)
        obtain ⟨-, hne, k, hsince⟩ := h.busy p hp
        exact ⟨hs, hne, k, hsince.step hf hs⟩
  | commits p hi hp hs hlong hm hf =>
      refine ⟨instant parse ρ (n + 1), ?_, ?_, ?_⟩
      · rw [committedAt, hm]
        rfl
      · exact fun _ => rfl
      · intro q hq
        rw [hm] at hq
        cases hq

/-- **What the machine remembers**, before every frame but the first. -/
theorem waits (parse : String → Option (Option ℚ)) (ρ : ℕ → Tick) (n : ℕ) : ∃ c, Waits parse ρ n c := by
  induction n with
  | zero =>
      have hfirst := debounce_first (m := seenAt parse ρ 0) (i := instant parse ρ 0) (t := (ρ 0).tMs) rfl
      have hm : machineAt parse ρ 1 = (seenAt parse ρ 0).commit (instant parse ρ 0) (ρ 0).tMs := by
        rw [machineAt_succ, hfirst]
      refine ⟨instant parse ρ 0, committedAt_first.1, fun _ => rfl, ?_⟩
      intro p hp
      rw [hm] at hp
      cases hp
  | succ n ih =>
      obtain ⟨c, hc⟩ := ih
      exact hc.step

end Law

end Lhre.CarStatus
