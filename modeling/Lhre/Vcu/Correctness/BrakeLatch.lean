import Lhre.Vcu.Correctness.Freshness

/-!
# `Correctness.BrakeLatch` — when the brake comparator latch lets go

The latch is cleared by the rising edge of a level that mixes the dash's reset button with the freshness of the frame
that carries it. So the edge is a press of the button as long as the frame stays fresh; when the frame comes back
after a silence, or first arrives after boot, with the button held, the level rises without a press.

## Contents
- **Rises in a sequence.** `Rises` and `rises_iff`: a sequence that ends true rises unless it is true throughout.
- **The button in a run.** `resets`, `resetWindow` and `dui_last`: what the slot holds is the last value received.
- **The latch in a run.** `latched_succ`, `prevFaultReset_succ`.
- **When the latch lets go.** `StaleReturn` and `latch_release`.
-/

namespace Lhre.Vcu

open Lhal Can Longhorn

/-! ## Rises in a sequence -/

/-- A sequence of readings goes from false to true somewhere. -/
def Rises (w : List Bool) : Prop := ∃ l r, w = l ++ false :: true :: r

/-- A sequence that starts false and ends true rises. -/
theorem rises_of_false_true {w : List Bool} (h : (false :: w).getLast? = some true) : Rises (false :: w) := by
  induction w with
  | nil => cases h
  | cons b rest ih =>
      cases b with
      | true => exact ⟨[], rest, rfl⟩
      | false =>
          rw [List.getLast?_cons_cons] at h
          obtain ⟨l, r, heq⟩ := ih h
          refine ⟨false :: l, r, ?_⟩
          rw [heq]
          rfl

/-- **A sequence that ends true rises unless it is true throughout.** -/
theorem rises_iff {w : List Bool} (h : w.getLast? = some true) : Rises w ↔ ¬ ∀ b ∈ w, b = true := by
  constructor
  · rintro ⟨l, r, rfl⟩ hall
    have := hall false (by simp)
    cases this
  · intro hnot
    obtain ⟨b, hb, hfalse⟩ : ∃ b ∈ w, b ≠ true := by
      by_contra hno
      apply hnot
      intro b hb
      by_contra hne
      exact hno ⟨b, hb, hne⟩
    obtain rfl : b = false := Bool.eq_false_iff.mpr hfalse
    obtain ⟨l, r, rfl⟩ := List.append_of_mem hb
    rw [List.getLast?_append_of_ne_nil _ (by simp)] at h
    obtain ⟨l', r', heq⟩ := rises_of_false_true h
    refine ⟨l ++ l', r', ?_⟩
    rw [heq, List.append_assoc]

/-! ## The button in a run -/

section Run

/-- The readings of the dash's reset button in the DUI frames received at ticks `a` to `b - 1`, in order. -/
def resets (ρ : ℕ → Tick) (a b : ℕ) : List Bool :=
  (List.range' a (b - a)).flatMap fun k =>
    ((criticalFrames ρ k).filter (accepts DuiDriverInputs)).map
      fun f => (Message.fromFrame f : DuiDriverInputs).faultReset

/-- The readings received from tick `s` up to tick `n`, after the last one received before. -/
def resetWindow (ρ : ℕ → Tick) (s n : ℕ) : List Bool := (resets ρ 0 s).getLast?.toList ++ resets ρ s (n + 1)

variable {env : Env} {ρ : ℕ → Tick}

theorem resets_append {a b c : ℕ} (hab : a ≤ b) (hbc : b ≤ c) : resets ρ a c = resets ρ a b ++ resets ρ b c := by
  unfold resets
  rw [← List.flatMap_append]
  obtain ⟨i, rfl⟩ := Nat.exists_eq_add_of_le hab
  obtain ⟨j, rfl⟩ := Nat.exists_eq_add_of_le hbc
  have hsub : a + i + j - a = i + j := by omega
  rw [hsub, Nat.add_sub_cancel_left, Nat.add_sub_cancel_left, List.range'_append_1]

theorem resets_succ (n : ℕ) : resets ρ n (n + 1) =
    ((criticalFrames ρ n).filter (accepts DuiDriverInputs)).map
      fun f => (Message.fromFrame f : DuiDriverInputs).faultReset := by
  simp [resets]

/-- The last reading of a window is the last reading received. -/
theorem getLast?_resetWindow {s n : ℕ} (hs : s ≤ n + 1) :
    (resetWindow ρ s n).getLast? = (resets ρ 0 (n + 1)).getLast? := by
  unfold resetWindow
  rw [resets_append (Nat.zero_le s) hs, List.getLast?_append, List.getLast?_append]
  cases (resets ρ 0 s).getLast? <;> rfl

/-- **The slot holds the last reading.** The DUI slot is as at boot until a frame arrives, and then holds the
    last reading received. -/
theorem dui_last (n : ℕ) :
    ((runState env ρ n).rx.duiDriverInputs = .new _ ∧ resets ρ 0 n = []) ∨
      (resets ρ 0 n).getLast? = some (runState env ρ n).rx.duiDriverInputs.msg.faultReset := by
  induction n with
  | zero => exact Or.inl ⟨rfl, rfl⟩
  | succ n ih =>
      have hsplit : resets ρ 0 (n + 1) = resets ρ 0 n ++ resets ρ n (n + 1) :=
        resets_append (Nat.zero_le n) (Nat.le_succ n)
      have hslot : (runState env ρ (n + 1)).rx.duiDriverInputs =
          (runState env ρ n).rx.duiDriverInputs.drain (criticalFrames ρ n) (ρ n).inputs.now := by
        rw [rx_succ, VehicleRx.drain_eq]
      rw [hslot, hsplit, resets_succ]
      rcases RxSlot.drain_spec (runState env ρ n).rx.duiDriverInputs (criticalFrames ρ n) (ρ n).inputs.now with
        ⟨hnone, hsame⟩ | ⟨f, hlast, hmsg, -⟩
      · rw [hsame]
        have hempty : (criticalFrames ρ n).filter (accepts DuiDriverInputs) = [] :=
          List.getLast?_eq_none_iff.mp hnone
        rw [hempty, List.map_nil, List.append_nil]
        exact ih
      · refine Or.inr ?_
        have hlast' : ((criticalFrames ρ n).filter (accepts DuiDriverInputs)).getLast? = some f := hlast
        rw [List.getLast?_append, List.getLast?_map, hlast', hmsg]
        rfl

/-! ## The latch in a run -/

/-- The DUI frame is fresh at tick `n`. -/
def duiFresh (env : Env) (ρ : ℕ → Tick) (n : ℕ) : Bool :=
  (after env ρ n).rx.duiDriverInputs.fresh (ρ n).inputs.now

/-- Some debounced brake flag is active at tick `n`. -/
def brakeFlag (env : Env) (ρ : ℕ → Tick) (n : ℕ) : Bool := (after env ρ n).live.inputs.anyBrakeFlag

/-- The reset level tick `n` computes: the button, while its frame is fresh. -/
def resetLevel (env : Env) (ρ : ℕ → Tick) (n : ℕ) : Bool :=
  duiFresh env ρ n && (after env ρ n).rx.duiDriverInputs.msg.faultReset

theorem App.controlTick_resetLevel (a : App) (x : TickInputs) :
    (a.controlTick env x).1.prevFaultReset = (a.controlTick env x).1.resetLevel x.now := by
  rw [App.controlTick_prevFaultReset]
  unfold App.resetLevel
  rw [App.controlTick_rx]
  rfl

/-- The latch after a tick, from the latch before it, the flags and the reset level. -/
theorem App.controlTick_latched (a : App) (x : TickInputs) :
    (a.controlTick env x).1.brakeLatch.latched = ((a.controlTick env x).1.live.inputs.anyBrakeFlag ||
      (a.brakeLatch.latched && !((a.controlTick env x).1.resetLevel x.now && !a.prevFaultReset))) := by
  rw [← App.controlTick_resetLevel, App.controlTick_prevFaultReset, App.controlTick_brakeLatch,
    App.controlTick_live_inputs, ← BrakeFlagLatch.update_latched]
  unfold App.sense App.updateCoolantLatch App.updateBrakeLatch
  dsimp only
  split <;> rfl

/-- The level the edge detector remembers is the last tick's. -/
theorem prevFaultReset_succ (n : ℕ) : (runState env ρ (n + 1)).prevFaultReset = resetLevel env ρ n :=
  @App.controlTick_resetLevel env _ _

/-- **The latch in a run.** -/
theorem latched_succ (n : ℕ) : (after env ρ n).brakeLatch.latched = (brakeFlag env ρ n ||
    ((runState env ρ n).brakeLatch.latched && !(resetLevel env ρ n && !(runState env ρ n).prevFaultReset))) := by
  rw [← (before_same env ρ n).brakeLatch, ← (before_same env ρ n).prevFaultReset]
  exact App.controlTick_latched _ _

/-! ## When the latch lets go -/

/-- The first tick after the one that set the latch, or 0 when it has been set since boot. -/
def latchedFrom (env : Env) (ρ : ℕ → Tick) : ℕ → ℕ
  | 0 => 0
  | n + 1 => if (runState env ρ n).brakeLatch.latched then latchedFrom env ρ n else n + 1

theorem latchedFrom_le (n : ℕ) : latchedFrom env ρ n ≤ n := by
  induction n with
  | zero => exact Nat.le_refl 0
  | succ n ih =>
      unfold latchedFrom
      split
      · omega
      · exact Nat.le_refl _

/-- Tick `n` finds the latch set and leaves it clear. -/
def Clears (env : Env) (ρ : ℕ → Tick) (n : ℕ) : Prop :=
  (runState env ρ n).brakeLatch.latched = true ∧ (after env ρ n).brakeLatch.latched = false

/-- At tick `n`, with the latch set and no flag active, the DUI frame is fresh after it was not (or after boot),
    and the button has read true in every frame since the latch was set, and in the one before. -/
structure StaleReturn (env : Env) (ρ : ℕ → Tick) (n : ℕ) : Prop where
  latched : (runState env ρ n).brakeLatch.latched = true
  noFlag : brakeFlag env ρ n = false
  wasStale : ∀ m, n = m + 1 → duiFresh env ρ m = false
  isFresh : duiFresh env ρ n = true
  held : ∀ b ∈ resetWindow ρ (latchedFrom env ρ n) n, b = true

/-- A fresh DUI frame is the last reading of the window. -/
theorem getLast?_of_duiFresh {n : ℕ} (h : duiFresh env ρ n = true) :
    (resets ρ 0 (n + 1)).getLast? = some (after env ρ n).rx.duiDriverInputs.msg.faultReset := by
  rcases @dui_last env ρ (n + 1) with ⟨hnew, -⟩ | hlast
  · have hempty : (after env ρ n).rx.duiDriverInputs = .new _ := hnew
    unfold duiFresh at h
    exact absurd (by rw [hempty]; rfl) (RxSlot.count_ne_of_fresh h)
  · exact hlast

/-- A stale return clears the latch. -/
theorem StaleReturn.clears {n : ℕ} (h : StaleReturn env ρ n) : Clears env ρ n := by
  refine ⟨h.latched, ?_⟩
  have hlast := getLast?_of_duiFresh h.isFresh
  have hwindow := getLast?_resetWindow (ρ := ρ) ((@latchedFrom_le env ρ n).trans (Nat.le_succ n))
  have hpressed : (after env ρ n).rx.duiDriverInputs.msg.faultReset = true := by
    rw [hlast] at hwindow
    exact h.held _ (List.mem_of_getLast? hwindow)
  have hprev : (runState env ρ n).prevFaultReset = false := by
    cases n with
    | zero => rfl
    | succ m =>
        rw [prevFaultReset_succ, resetLevel, h.wasStale m rfl]
        rfl
  rw [latched_succ, h.noFlag, hprev, resetLevel, h.isFresh, hpressed, h.latched]
  rfl

/-- **A clearing tick without a stale return is a press**: no flag is active and the button has risen since
    the latch was set. -/
theorem rises_of_clears {n : ℕ} (hclears : Clears env ρ n) (hno : ¬ StaleReturn env ρ n) :
    brakeFlag env ρ n = false ∧ Rises (resetWindow ρ (latchedFrom env ρ n) n) := by
  obtain ⟨hset, hclear⟩ := hclears
  rw [latched_succ, hset, Bool.or_eq_false_iff, Bool.true_and, Bool.not_eq_false', Bool.and_eq_true,
    Bool.not_eq_true'] at hclear
  obtain ⟨hflag, hlevel, hprev⟩ := hclear
  obtain ⟨hfresh, hpressed⟩ := Bool.and_eq_true_iff.mp hlevel
  have hlast := getLast?_of_duiFresh hfresh
  have hs : latchedFrom env ρ n ≤ n := latchedFrom_le n
  have hwindow : (resetWindow ρ (latchedFrom env ρ n) n).getLast? = some true := by
    rw [getLast?_resetWindow (by omega), hlast, hpressed]
  refine ⟨hflag, ?_⟩
  rw [rises_iff hwindow]
  intro hheld
  apply hno
  refine ⟨hset, hflag, ?_, hfresh, hheld⟩
  rintro m rfl
  -- were the frame fresh one tick earlier, the button would have read false there
  by_contra hwas
  have hwasFresh : duiFresh env ρ m = true := Bool.eq_true_of_not_eq_false hwas
  rw [prevFaultReset_succ, resetLevel, hwasFresh, Bool.true_and] at hprev
  have hbefore := getLast?_of_duiFresh hwasFresh
  rw [hprev] at hbefore
  have hmem : false ∈ resetWindow ρ (latchedFrom env ρ (m + 1)) (m + 1) := by
    have hlastBefore := getLast?_resetWindow (ρ := ρ) (s := latchedFrom env ρ (m + 1)) (n := m) hs
    have hsplit : resetWindow ρ (latchedFrom env ρ (m + 1)) (m + 1) =
        resetWindow ρ (latchedFrom env ρ (m + 1)) m ++ resets ρ (m + 1) (m + 2) := by
      unfold resetWindow
      rw [resets_append (ρ := ρ) hs (Nat.le_succ (m + 1)), List.append_assoc]
    rw [hsplit]
    exact List.mem_append_left _ (List.mem_of_getLast? (hlastBefore.trans hbefore))
  exact absurd (hheld false hmem) (by decide)

/-- **When the latch lets go on a press only.** In a run, every tick that clears the latch has no flag active and
    a press of the reset button received since the latch was set if and only if the run has no stale return. -/
theorem latch_release (env : Env) (ρ : ℕ → Tick) :
    (∀ n, Clears env ρ n → brakeFlag env ρ n = false ∧ Rises (resetWindow ρ (latchedFrom env ρ n) n)) ↔
      ∀ n, ¬ StaleReturn env ρ n := by
  constructor
  · intro h n hstale
    obtain ⟨-, l, r, heq⟩ := h n hstale.clears
    have hfalse : (false : Bool) = true := hstale.held false (by rw [heq]; simp)
    cases hfalse
  · intro h n hclears
    exact rises_of_clears hclears (h n)

end Run

/-! ## A held button -/

/-- The dash's frame with the reset button pressed. -/
def resetFrame : CanFrame := dataFrame 290 [1, 0]

/-- A run in which a brake flag sets the latch at the first tick with the reset button already pressed, the DUI
    frame goes silent for longer than its timeout, and comes back with the button still pressed. -/
def heldResetRun : ℕ → Tick := fun n => ([
  { now := 0, frames := [resetFrame], pins := { b1Disconnect := some true } },
  { now := 3 },
  { now := 300 },
  { now := 303, frames := [resetFrame] } ].getD n { now := 300 + n } : BenchTick).toTick

/-- **A held button clears the latch.** It is not so that in every run a tick that clears the latch has seen a
    press of the button since the latch was set. -/
theorem not_latch_release_on_press : ¬ ∀ (env : Env) (ρ : ℕ → Tick) (n : ℕ), Clears env ρ n →
    brakeFlag env ρ n = false ∧ Rises (resetWindow ρ (latchedFrom env ρ n) n) := by
  intro h
  have hclears : Clears benchEnv heldResetRun 3 := ⟨by decide +kernel, by decide +kernel⟩
  obtain ⟨-, hrises⟩ := h benchEnv heldResetRun 3 hclears
  have hheld : resetWindow heldResetRun (latchedFrom benchEnv heldResetRun 3) 3 = [true, true] := by
    decide +kernel
  rw [hheld, rises_iff rfl] at hrises
  exact hrises (by decide)

end Lhre.Vcu
