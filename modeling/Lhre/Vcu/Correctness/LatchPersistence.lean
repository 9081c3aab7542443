import Lhre.Vcu.LatchHandoff

/-!
# `Correctness.LatchPersistence` — the brake latch survives a reboot

A change of the latch reaches the journal through the handoff between the control and the telemetry task, and the
journal gives it back at the next boot. Two things can lose it, both failures of the flash: a save that fails is not
tried again before the latch changes again, and a save that erases the full page and then fails to write leaves
nothing. The second costs nothing with the two values the latch saves, since a full page ends with a cleared latch.

## Contents
- **Runs of the handoff.** `handoffRun`, `ChangesAt` and `box_run`: the shared part is a mailbox run.
- **What survives.** `load_of_last_change` and `latch_persists`.
- **What does not.** `latch_not_always_kept`.
-/

namespace Lhre.Vcu

open Mailbox

section Run

variable (dualBank : Bool) (page : List U64) (ρ : ℕ → HandoffEvent)

/-- The handoff after the first `n` steps of an interleaving, from boot. -/
def handoffRun (n : ℕ) : LatchHandoff :=
  Trace.stateAt (LatchHandoff.step dualBank) (LatchHandoff.boot dualBank page) ρ n

/-- Step `k` changes the latch. -/
def ChangesAt (k : ℕ) : Prop :=
  (handoffRun dualBank page ρ (k + 1)).latch.latched ≠ (handoffRun dualBank page ρ k).latch.latched

/-- A telemetry tick begins at step `i` and is over at `j`. -/
structure FullTelemetryTick (i j : ℕ) : Prop where
  ordered : i < j
  start : (handoffRun dualBank page ρ i).box.reader = .idle
  first : ∃ flash, ρ i = .telemetry flash
  finish : (handoffRun dualBank page ρ j).box.reader = .idle

/-- The flash works at every step of the telemetry task from `i` to `j`. -/
def FlashWorks (i j : ℕ) : Prop := ∀ k flash, i ≤ k → k < j → ρ k = .telemetry flash → flash.Works

/-- The interleaving as the mailbox sees it. -/
def boxEvents (k : ℕ) : Event U32 FlashOutcome := (handoffRun dualBank page ρ k).boxEvent (ρ k)

theorem box_run (n : ℕ) : (handoffRun dualBank page ρ n).box = Trace.stateAt (Mailbox.step (flashSink dualBank))
    (LatchHandoff.boot dualBank page).box (boxEvents dualBank page ρ) n := by
  induction n with
  | zero => rfl
  | succ n ih =>
      show ((handoffRun dualBank page ρ n).step dualBank (ρ n)).box = _
      rw [LatchHandoff.step_box, Trace.stateAt_succ, ← ih]
      rfl

theorem handoffRun_clean (n : ℕ) : (handoffRun dualBank page ρ n).Clean :=
  Trace.always (LatchHandoff.clean_boot page) (fun _ _ h => h.step) n

variable {dualBank page ρ}

/-- **The last change reaches the page.** -/
theorem load_of_last_change {page : List U64} (hpage : InUse page) {b i j n : ℕ} (hbi : b < i) (hjn : j ≤ n)
    (hb : ChangesAt true page ρ b) (hlast : ∀ k, b < k → k < n → ¬ ChangesAt true page ρ k)
    (hstored : (handoffRun true page ρ i).box.writer = .idle) (htick : FullTelemetryTick true page ρ i j)
    (hflash : FlashWorks ρ (b + 1) j) :
    loadFaultLatch true (handoffRun true page ρ n).box.sink =
      (handoffRun true page ρ (b + 1)).latch.persistedValue := by
  obtain ⟨hij, hstart, ⟨flash, hfirst⟩, hfinish⟩ := htick
  have hidle : (handoffRun true page ρ b).box.writer = .idle := (LatchHandoff.publishes_of_change hb).1
  have hpub : boxEvents true page ρ b = .write (some (handoffRun true page ρ (b + 1)).latch.persistedValue) :=
    (LatchHandoff.publishes_of_change hb).2
  have hinv : (flashSink true).Inv (LatchHandoff.boot true page).box.sink := hpage
  rw [box_run] at hidle hstored hstart hfinish ⊢
  -- the mailbox delivers the last value published before a full tick, and the tick saves what it takes
  refine delivered (K := flashSink true) (p := flash) hinv hbi hij hjn hidle hpub ?_ ?_ hstored hstart ?_ hfinish
  · intro k hbk hkn hk
    rw [← box_run] at hk
    exact hlast k hbk hkn (LatchHandoff.change_of_publishes (handoffRun_clean true page ρ k) hk)
  · intro k p hbk hkj hk
    refine ⟨rfl, hflash k p hbk hkj ?_⟩
    unfold boxEvents LatchHandoff.boxEvent at hk
    cases hρ : ρ k with
    | control anyFlag resetEdge =>
        rw [hρ] at hk
        cases hw : (handoffRun true page ρ k).box.writer <;> simp [hw] at hk
    | telemetry f =>
        rw [hρ] at hk
        cases hk
        rfl
  · unfold boxEvents LatchHandoff.boxEvent
    rw [hfirst]

end Run

/-- **The brake latch survives a reboot.** For any interleaving of the two tasks over a page any calls have left:
    after the last change, and one full telemetry tick that begins after the control tick's stores, with a flash that
    works from the change on, a load finds the latch as that change left it. For the journal itself: a load finds the
    last successful save, unless the page was wiped since, and then nothing; with only the two values the latch
    saves, it finds the last successful save always; and a save that needs no erase, interrupted between any of its
    flash operations, leaves the previous value or the new one. -/
theorem latch_persists :
    (∀ calls m ρ b i j n, b < i → j ≤ n →
      ChangesAt true (pageAfter true calls m) ρ b →
      (∀ k, b < k → k < n → ¬ ChangesAt true (pageAfter true calls m) ρ k) →
      (handoffRun true (pageAfter true calls m) ρ i).box.writer = .idle →
      FullTelemetryTick true (pageAfter true calls m) ρ i j → FlashWorks ρ (b + 1) j →
      loadFaultLatch true (handoffRun true (pageAfter true calls m) ρ n).box.sink =
        (handoffRun true (pageAfter true calls m) ρ (b + 1)).latch.persistedValue) ∧
    (∀ dualBank calls m n, m < n →
      (∀ k, m < k → k < n → ¬ SucceedsAt dualBank calls k ∧ ¬ WipesAt dualBank calls k) →
      (SucceedsAt dualBank calls m →
        loadFaultLatch dualBank (pageAfter dualBank calls n) = (calls m).value) ∧
      (WipesAt dualBank calls m → loadFaultLatch dualBank (pageAfter dualBank calls n) = 0)) ∧
    (∀ dualBank calls m n, m < n → (∀ k, (calls k).value = 0 ∨ (calls k).value = kPersistedSet) →
      SucceedsAt dualBank calls m → (∀ k, m < k → k < n → ¬ SucceedsAt dualBank calls k) →
      loadFaultLatch dualBank (pageAfter dualBank calls n) = (calls m).value) ∧
    (∀ dualBank calls n value flash k, ¬ Full (pageAfter dualBank calls n) →
      loadFaultLatch dualBank (interruptedSave k dualBank flash value (pageAfter dualBank calls n)) =
        loadFaultLatch dualBank (pageAfter dualBank calls n) ∨
      loadFaultLatch dualBank (interruptedSave k dualBank flash value (pageAfter dualBank calls n)) = value) := by
  refine ⟨?_, ?_, ?_, ?_⟩
  · intro calls m ρ b i j n hbi hjn hb hlast hstored htick hflash
    exact load_of_last_change (pageAfter_inUse true calls m) hbi hjn hb hlast hstored htick hflash
  · intro dualBank calls m n hmn hnone
    exact ⟨fun hm => load_pageAfter hmn hm hnone, fun hm => load_pageAfter_wiped hmn hm hnone⟩
  · intro dualBank calls m n hmn hcalls hm hnone
    exact load_pageAfter_alternating hcalls hmn hm hnone
  · intro dualBank calls n value flash k hfull
    exact load_interruptedSave (pageAfter_inUse dualBank calls n) hfull k

/-- The latch sets and is handed over, and the next telemetry tick saves it. -/
def savedRun : ℕ → HandoffEvent :=
  Trace.ofList [.control true false, .control true false, .control true false] (.telemetry {})

/-- The latch sets and is saved; a journal saves the same value twice; a first save is cut before it is written. -/
theorem latch_persists_bench :
    loadFaultLatch true (handoffRun true (pageAfter true (fun _ => { value := 0 }) 0) savedRun 6).box.sink =
      (handoffRun true (pageAfter true (fun _ => { value := 0 }) 0) savedRun 1).latch.persistedValue ∧
    loadFaultLatch true (pageAfter true (fun _ => { value := kPersistedSet }) 1) = kPersistedSet ∧
    (loadFaultLatch true (interruptedSave 2 true {} kPersistedSet (pageAfter true (fun _ => { value := 0 }) 0)) =
        loadFaultLatch true (pageAfter true (fun _ => { value := 0 }) 0) ∨
      loadFaultLatch true (interruptedSave 2 true {} kPersistedSet (pageAfter true (fun _ => { value := 0 }) 0)) =
        kPersistedSet) := by
  refine ⟨?_, ?_, ?_⟩
  · refine latch_persists.1 (fun _ => { value := 0 }) 0 savedRun 0 3 6 6 (by decide) (by decide) ?_ ?_ ?_ ?_ ?_
    · unfold ChangesAt
      decide
    · intro k hk hk6
      unfold ChangesAt
      interval_cases k <;> decide
    · rfl
    · exact ⟨by decide, rfl, ⟨{}, rfl⟩, rfl⟩
    · intro k flash hk hk6 hevent
      interval_cases k <;> cases hevent <;> decide
  · refine latch_persists.2.2.1 true (fun _ => { value := kPersistedSet }) 0 1 (by decide) (fun _ => Or.inr rfl) ?_ ?_
    · exact ⟨rfl, Or.inr ⟨rfl, fun _ => rfl⟩⟩
    · intro k hk hk1
      omega
  · exact latch_persists.2.2.2 true (fun _ => { value := 0 }) 0 kPersistedSet {} 2 not_full_erased

/-! ## What does not survive -/

/-- The latch sets and is handed over, the flash fails the telemetry tick that saves it, and works at the next. -/
def failedSaveRun : ℕ → HandoffEvent :=
  Trace.ofList
    [.control true false, .control true false, .control true false,
     .telemetry { programOk := false }, .telemetry { programOk := false }, .telemetry { programOk := false }]
    (.telemetry {})

/-- The latch sets, and a telemetry tick runs before the control task has stored anything. -/
def earlyTickRun : ℕ → HandoffEvent := Trace.ofList [.control true false] (.telemetry {})

/-- Saves of `1`, `2`, … that fill the page, and then one that erases it and fails to write its record. -/
def fillCalls (k : ℕ) : SaveCall :=
  { value := BitVec.ofNat 32 (k + 1), flash := { programOk := decide (k < kRecords) } }

theorem pageAfter_fillCalls {n : ℕ} (hn : n ≤ kRecords) :
    faultFormat.firstErased (pageAfter true fillCalls n) = n ∧
      loadFaultLatch true (pageAfter true fillCalls n) = BitVec.ofNat 32 n := by
  induction n with
  | zero => exact ⟨written_erased.firstErased_eq, loadFaultLatch_erased true⟩
  | succ n ih =>
      obtain ⟨hslot, hload⟩ := ih (by omega)
      have huse := pageAfter_inUse true fillCalls n
      have hfull : ¬ Full (pageAfter true fillCalls n) := by
        unfold Full
        rw [hslot]
        omega
      -- a call with a value that is already stored would not append
      have hne : loadFaultLatch true (pageAfter true fillCalls n) ≠ (fillCalls n).value := by
        rw [hload]
        intro h
        have hnat := congrArg BitVec.toNat h
        have hsmall : n + 1 ≤ 256 := hn
        simp only [fillCalls, BitVec.toNat_ofNat] at hnat
        omega
      have hstep : pageAfter true fillCalls (n + 1) = append (pageAfter true fillCalls n) (fillCalls n).value := by
        show saveFaultLatch true (fillCalls n).flash (fillCalls n).value (pageAfter true fillCalls n) = _
        have hp : (fillCalls n).flash.programOk = true := decide_eq_true (by omega)
        rw [saveFaultLatch_eq, if_neg (by simpa using hne), if_neg hfull, if_pos hp]
      rw [hstep]
      exact ⟨(huse.firstErased_append hfull _).trans (by rw [hslot]), load_append huse hfull _⟩

/-- A latch change is lost when the flash fails the tick that saves it, though it works at the next full tick, or
    when the full tick comes before the control tick's stores; and the journal loses its last successful save when a
    later one erases the page and fails to write. -/
theorem latch_not_always_kept :
    (¬ ∀ ρ b i j, b < i → ChangesAt true erasedPage ρ b →
      (∀ k, b < k → k < j → ¬ ChangesAt true erasedPage ρ k) →
      (handoffRun true erasedPage ρ i).box.writer = .idle → FullTelemetryTick true erasedPage ρ i j →
      FlashWorks ρ i j → loadFaultLatch true (handoffRun true erasedPage ρ j).box.sink =
        (handoffRun true erasedPage ρ (b + 1)).latch.persistedValue) ∧
    (¬ ∀ ρ b i j, b < i → ChangesAt true erasedPage ρ b →
      (∀ k, b < k → k < j → ¬ ChangesAt true erasedPage ρ k) →
      FullTelemetryTick true erasedPage ρ i j → FlashWorks ρ (b + 1) j →
      loadFaultLatch true (handoffRun true erasedPage ρ j).box.sink =
        (handoffRun true erasedPage ρ (b + 1)).latch.persistedValue) ∧
    (¬ ∀ calls m n, m < n → SucceedsAt true calls m →
      (∀ k, m < k → k < n → ¬ SucceedsAt true calls k) →
      loadFaultLatch true (pageAfter true calls n) = (calls m).value) := by
  refine ⟨?_, ?_, ?_⟩
  · intro h
    have hkept := h failedSaveRun 0 6 7 (by decide) (by unfold ChangesAt; decide) ?_ rfl
      ⟨by decide, rfl, ⟨{}, rfl⟩, rfl⟩ ?_
    · revert hkept
      decide
    · intro k hk hk7
      unfold ChangesAt
      interval_cases k <;> decide
    · intro k flash hk hk7 hevent
      interval_cases k
      cases hevent
      decide
  · intro h
    have hkept := h earlyTickRun 0 1 2 (by decide) (by unfold ChangesAt; decide) ?_
      ⟨by decide, rfl, ⟨{}, rfl⟩, rfl⟩ ?_
    · revert hkept
      decide
    · intro k hk hk2
      unfold ChangesAt
      interval_cases k
      decide
    · intro k flash hk hk2 hevent
      interval_cases k
      cases hevent
      decide
  · intro h
    obtain ⟨hslot, hload⟩ := pageAfter_fillCalls (n := kRecords) le_rfl
    have hne : loadFaultLatch true (pageAfter true fillCalls kRecords) ≠ (fillCalls kRecords).value := by
      rw [hload]
      decide
    have hlost := @load_pageAfter_wiped _ fillCalls kRecords (kRecords + 1) (by omega)
      ⟨rfl, hne, hslot, rfl, rfl⟩ (fun k hk hkn => by omega)
    have hkept := h fillCalls 255 (kRecords + 1) (by decide) ⟨rfl, Or.inr ⟨rfl, fun _ => rfl⟩⟩ ?_
    · rw [hlost] at hkept
      revert hkept
      decide
    · rintro k hk hkn ⟨-, hsame | ⟨hp, -⟩⟩
      · obtain rfl : k = kRecords := by unfold kRecords at *; omega
        exact hne hsame
      · obtain rfl : k = kRecords := by unfold kRecords at *; omega
        cases hp

end Lhre.Vcu
