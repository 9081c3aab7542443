import Lhre.Drivers.RateGate
import Lhre.Theory.Trace
import Lhre.Theory.WrapClock

/-!
# `Drivers.Correctness.GateSchedule` — a rate gate keeps its rate

The gate holds its next deadline as a stamp of a clock of 32 bits. As long as calls are less than a quarter of a turn apart
the stamp stands for one time, so the gate does what a gate with unbounded times would do: `Schedule.due`. What is said of
rates is said of that one.

## Contents
- **Unbounded times.** `Schedule.due`, and what it makes of the deadline.
- **Runs.** `gateAt`, `dueAt`; `scheduleAt`, which the gate shows (`gateAt_eq`).
- **Counts.** `dueCount`, `deadline_dueCount`.
- **Short gaps.** `onTime`: no deadline is missed, so none is moved.
- **The law.** `gate_keeps_rate`.
-/

namespace Lhre.Longhorn

open Trace

/-! ## Unbounded times -/

/-- A gate whose times do not wrap: the deadline after a call, and whether the work is due. -/
def Schedule.due (next : Option ℕ) (now p : ℕ) : ℕ × Bool :=
  let next := next.getD now
  if now < next then (next, false) else (if next + p ≤ now then now + p else next + p, true)

/-- A gate as its register shows the deadline. -/
def Schedule.shown : Option ℕ → RateGate
  | none => {}
  | some next => { nextMs := BitVec.ofNat 32 next, started := true }

section Schedule

variable {next : Option ℕ} {now p : ℕ}

theorem Schedule.due_snd : (Schedule.due next now p).2 = true ↔ next.getD now ≤ now := by
  unfold Schedule.due
  dsimp only
  split
  · simp only [Bool.false_eq_true, false_iff]
    omega
  · simp only [true_iff]
    omega

/-- A call that is not due leaves the deadline. -/
theorem Schedule.due_of_early (h : (Schedule.due next now p).2 = false) :
    (Schedule.due next now p).1 = next.getD now ∧ now < next.getD now := by
  unfold Schedule.due at h ⊢
  dsimp only at h ⊢
  split at h
  · rename_i hearly
    rw [if_pos hearly]
    exact ⟨rfl, hearly⟩
  · exact nomatch h

/-- A due call moves the deadline by a period, or to a period from now after a stall. -/
theorem Schedule.due_of_due (h : (Schedule.due next now p).2 = true) :
    (Schedule.due next now p).1 = if next.getD now + p ≤ now then now + p else next.getD now + p := by
  have hdue := Schedule.due_snd.mp h
  unfold Schedule.due
  exact congrArg Prod.fst (if_neg (not_lt.mpr hdue))

/-- **After a call** the deadline is ahead, by no more than a period if it was so before. -/
theorem Schedule.due_ahead (hp : 0 < p) (hnext : next.getD now ≤ now + p) :
    now < (Schedule.due next now p).1 ∧ (Schedule.due next now p).1 ≤ now + p := by
  cases h : (Schedule.due next now p).2 with
  | false =>
      obtain ⟨heq, hearly⟩ := Schedule.due_of_early h
      rw [heq]
      exact ⟨hearly, hnext⟩
  | true =>
      have hdue := Schedule.due_snd.mp h
      rw [Schedule.due_of_due h]
      split <;> omega

/-- **The register of 32 bits** shows what a call makes of the deadline, where the two times are close. -/
theorem RateGate.due_shown (hp : 0 < p) (hp' : p < 2 ^ 30) (hbehind : next.getD now ≤ now + p)
    (hahead : now < next.getD now + 2 ^ 30) :
    (Schedule.shown next).due (BitVec.ofNat 32 now) (BitVec.ofNat 32 p) =
      (Schedule.shown (some (Schedule.due next now p).1), (Schedule.due next now p).2) := by
  have hshown : (if (Schedule.shown next).started then (Schedule.shown next).nextMs else BitVec.ofNat 32 now) =
      BitVec.ofNat 32 (next.getD now) := by
    cases next <;> rfl
  -- both signed ages are of times less than half a turn apart, so their signs are those of the real ages
  have hearly : (BitVec.ofNat 32 now - BitVec.ofNat 32 (next.getD now)).toInt < 0 ↔ now < next.getD now :=
    WrapClock.toInt_age_neg (by omega) (by omega)
  have hstall : 0 ≤ (BitVec.ofNat 32 now - (BitVec.ofNat 32 (next.getD now) + BitVec.ofNat 32 p)).toInt ↔
      next.getD now + p ≤ now := by
    rw [← BitVec.ofNat_add, ← not_lt, WrapClock.toInt_age_neg (by omega) (by omega), not_lt]
  unfold RateGate.due Schedule.due
  dsimp only
  rw [hshown]
  by_cases h : now < next.getD now
  · rw [if_pos (hearly.mpr h), if_pos h]
    rfl
  · rw [if_neg (fun hneg => h (hearly.mp hneg)), if_neg h]
    by_cases hs : next.getD now + p ≤ now
    · rw [if_pos (hstall.mpr hs), if_pos hs, ← BitVec.ofNat_add]
      rfl
    · rw [if_neg (fun hpos => hs (hstall.mp hpos)), if_neg hs, ← BitVec.ofNat_add]
      rfl

end Schedule

/-! ## Runs -/

section Run

variable (p : ℕ) (t : ℕ → ℕ)

/-- The gate before call `n` of a run; call `n` is at time `t n`. -/
def gateAt (n : ℕ) : RateGate :=
  stateAt (fun g now => (g.due (BitVec.ofNat 32 now) (BitVec.ofNat 32 p)).1) {} t n

/-- What call `n` answers. -/
def dueAt (n : ℕ) : Bool := ((gateAt p t n).due (BitVec.ofNat 32 (t n)) (BitVec.ofNat 32 p)).2

/-- The deadline before call `n`, where times do not wrap. -/
def scheduleAt (n : ℕ) : Option ℕ := stateAt (fun next now => some (Schedule.due next now p).1) none t n

/-- How many of the calls `i + 1`, …, `j` answer that the work is due. -/
def dueCount (i j : ℕ) : ℕ := ((Finset.Ioc i j).filter fun n => dueAt p t n = true).card

/-- The times of the calls: they do not go back, and are less than a quarter of a turn apart. -/
structure Calls : Prop where
  mono : ∀ n, t n ≤ t (n + 1)
  gap : ∀ n, t (n + 1) - t n < 2 ^ 30

variable {p t}

theorem scheduleAt_succ (n : ℕ) : scheduleAt p t (n + 1) = some (Schedule.due (scheduleAt p t n) (t n) p).1 := rfl

@[simp] theorem dueCount_self (i : ℕ) : dueCount p t i i = 0 := by
  rw [dueCount, Finset.Ioc_self, Finset.filter_empty, Finset.card_empty]

theorem dueCount_succ {i j : ℕ} (hij : i ≤ j) :
    dueCount p t i (j + 1) = dueCount p t i j + if dueAt p t (j + 1) = true then 1 else 0 := by
  have hsplit : Finset.Ioc i (j + 1) = insert (j + 1) (Finset.Ioc i j) := by
    ext n
    simp only [Finset.mem_Ioc, Finset.mem_insert]
    omega
  have hnew : j + 1 ∉ (Finset.Ioc i j).filter fun n => dueAt p t n = true := by
    rw [Finset.mem_filter, Finset.mem_Ioc]
    omega
  rw [dueCount, hsplit, Finset.filter_insert]
  split
  · rw [Finset.card_insert_of_notMem hnew, dueCount]
  · rw [dueCount, Nat.add_zero]

theorem Calls.monotone (h : Calls t) : Monotone t := monotone_nat_of_le_succ h.mono

section Law

variable (hp : 0 < p) (hp' : p < 2 ^ 30) (h : Calls t)
include hp h

/-- The deadline before a call is close to its time. -/
theorem scheduleAt_near (n : ℕ) :
    (scheduleAt p t n).getD (t n) ≤ t n + p ∧ t n < (scheduleAt p t n).getD (t n) + 2 ^ 30 := by
  induction n with
  | zero =>
      show t 0 ≤ t 0 + p ∧ t 0 < t 0 + 2 ^ 30
      omega
  | succ n ih =>
      obtain ⟨hahead, hbehind⟩ := Schedule.due_ahead hp ih.1
      have hmono := h.mono n
      have hgap := h.gap n
      rw [scheduleAt_succ, Option.getD_some]
      omega

include hp'

/-- **The gate shows the schedule**, and answers as it does. -/
theorem gateAt_eq (n : ℕ) : gateAt p t n = Schedule.shown (scheduleAt p t n) := by
  induction n with
  | zero => rfl
  | succ n ih =>
      obtain ⟨hbehind, hahead⟩ := scheduleAt_near hp h n
      show ((gateAt p t n).due (BitVec.ofNat 32 (t n)) (BitVec.ofNat 32 p)).1 = _
      rw [ih, RateGate.due_shown hp hp' hbehind hahead, scheduleAt_succ]

theorem dueAt_eq (n : ℕ) : dueAt p t n = (Schedule.due (scheduleAt p t n) (t n) p).2 := by
  obtain ⟨hbehind, hahead⟩ := scheduleAt_near hp h n
  unfold dueAt
  rw [gateAt_eq hp hp' h n, RateGate.due_shown hp hp' hbehind hahead]

/-- What a call makes of the deadline. -/
theorem schedule_step (n : ℕ) : ∃ next, scheduleAt p t (n + 1) = some next ∧ t n < next ∧ next ≤ t n + p ∧
    (dueAt p t n = false → next = (scheduleAt p t n).getD (t n)) ∧
    (dueAt p t n = true → (scheduleAt p t n).getD (t n) ≤ t n ∧
      next = if (scheduleAt p t n).getD (t n) + p ≤ t n then t n + p else (scheduleAt p t n).getD (t n) + p) := by
  obtain ⟨hahead, hbehind⟩ := Schedule.due_ahead hp (scheduleAt_near hp h n).1
  refine ⟨_, scheduleAt_succ n, hahead, hbehind, ?_, ?_⟩
  · intro hnot
    rw [dueAt_eq hp hp' h n] at hnot
    exact (Schedule.due_of_early hnot).1
  · intro hdue
    rw [dueAt_eq hp hp' h n] at hdue
    exact ⟨Schedule.due_snd.mp hdue, Schedule.due_of_due hdue⟩

/-! ## Counts -/

/-- **Each answer takes a period** of the time up to the deadline. -/
theorem deadline_dueCount {i j : ℕ} (hij : i ≤ j) {first last : ℕ} (hfirst : scheduleAt p t (i + 1) = some first)
    (hlast : scheduleAt p t (j + 1) = some last) : first + dueCount p t i j * p ≤ last := by
  induction j, hij using Nat.le_induction generalizing last with
  | base =>
      obtain rfl : first = last := Option.some.inj (hfirst.symm.trans hlast)
      rw [dueCount_self, Nat.zero_mul]
      exact le_rfl
  | succ j hij ih =>
      obtain ⟨before, hbefore, -⟩ := schedule_step hp hp' h j
      obtain ⟨next, hnext, -, -, hearly, hdue⟩ := schedule_step hp hp' h (j + 1)
      obtain rfl : next = last := Option.some.inj (hnext.symm.trans hlast)
      have hle := ih hbefore
      rw [hbefore, Option.getD_some] at hearly hdue
      rw [dueCount_succ hij]
      cases hanswer : dueAt p t (j + 1) with
      | false =>
          rw [hearly hanswer, if_neg (by simp)]
          exact hle
      | true =>
          obtain ⟨hreached, hmoved⟩ := hdue hanswer
          rw [if_pos rfl, Nat.add_mul, Nat.one_mul, hmoved]
          split <;> omega

/-! ## Short gaps -/

/-- **While no gap is longer than a period** no deadline is missed by one: the deadline is a whole number of periods behind
the first call, one for each answer. -/
theorem onTime (hshort : ∀ n, t (n + 1) - t n ≤ p) (n : ℕ) :
    ∃ next, scheduleAt p t (n + 1) = some next ∧ next = t 0 + (dueCount p t 0 n + 1) * p := by
  induction n with
  | zero =>
      refine ⟨t 0 + p, ?_, by rw [dueCount_self, Nat.zero_add, Nat.one_mul]⟩
      show some (if t 0 < t 0 then (t 0, false) else (if t 0 + p ≤ t 0 then t 0 + p else t 0 + p, true)).1 = _
      rw [if_neg (lt_irrefl _), ite_self]
  | succ n ih =>
      obtain ⟨before, hbefore, heq⟩ := ih
      obtain ⟨before', hbefore', hahead, -⟩ := schedule_step hp hp' h n
      obtain rfl : before = before' := Option.some.inj (hbefore.symm.trans hbefore')
      obtain ⟨next, hnext, -, -, hearly, hdue⟩ := schedule_step hp hp' h (n + 1)
      have hmono := h.mono n
      have hgap := hshort n
      rw [hbefore, Option.getD_some] at hearly hdue
      refine ⟨next, hnext, ?_⟩
      rw [dueCount_succ (Nat.zero_le n)]
      cases hanswer : dueAt p t (n + 1) with
      | false => rw [hearly hanswer, if_neg (by simp), heq]
      | true =>
          obtain ⟨-, hmoved⟩ := hdue hanswer
          -- the deadline was ahead of the call before, so this call is late by less than a period
          rw [hmoved, if_neg (by omega), if_pos rfl, heq]
          ring

/-- With short gaps, what was answered is what the time since the first call holds. -/
theorem dueCount_eq (hshort : ∀ n, t (n + 1) - t n ≤ p) (n : ℕ) : dueCount p t 0 n = (t n - t 0) / p := by
  obtain ⟨next, hnext, heq⟩ := onTime hp hp' h hshort n
  obtain ⟨next', hnext', hahead, hbehind, -⟩ := schedule_step hp hp' h n
  obtain rfl : next = next' := Option.some.inj (hnext.symm.trans hnext')
  have hmono := h.monotone (Nat.zero_le n)
  rw [Nat.add_mul, Nat.one_mul] at heq
  symm
  refine (Nat.div_eq_iff hp).mpr ⟨?_, ?_⟩
  · omega
  · omega

end Law

/-! ## The law -/

/-- What a gate with period `p` promises of the calls at the times `t`. -/
structure KeepsRate (p : ℕ) (t : ℕ → ℕ) : Prop where
  /-- No more than one answer in each period, and one more. -/
  rate : ∀ i j, i ≤ j → dueCount p t i j ≤ (t j - t i) / p + 1
  /-- A call a period late is due, and the next one that is due is a period behind it. -/
  stall : ∀ n next, scheduleAt p t n = some next → next + p ≤ t n →
    dueAt p t n = true ∧ ∀ m, n < m → dueAt p t m = true → t n + p ≤ t m
  first : dueAt p t 0 = true
  /-- With short gaps, the answer with `k` answers between it and the first call is `k` periods behind that call. -/
  onTime : ∀ g, g ≤ p → (∀ n, t (n + 1) - t n ≤ g) →
    (∀ n, 0 < n → dueAt p t n = true →
      t 0 + dueCount p t 0 n * p ≤ t n ∧ t n < t 0 + dueCount p t 0 n * p + g) ∧
    ∀ n, dueCount p t 0 n = (t n - t 0) / p

/-- **A gate keeps its rate** across the wrap of the clock and across stalls. Its register is the deadline on the clock of 32
bits. -/
theorem gate_keeps_rate {p : ℕ} {t : ℕ → ℕ} (hp : 0 < p) (hp' : p < 2 ^ 30) (h : Calls t) :
    (∀ n, gateAt p t n = Schedule.shown (scheduleAt p t n)) ∧ KeepsRate p t := by
  refine ⟨gateAt_eq hp hp' h, ?_, ?_, ?_, ?_⟩
  · intro i j hij
    obtain ⟨first, hfirst, hahead, -⟩ := schedule_step hp hp' h i
    obtain ⟨last, hlast, -, hbehind, -⟩ := schedule_step hp hp' h j
    have hcount := deadline_dueCount hp hp' h hij hfirst hlast
    have hmono := h.monotone hij
    -- the deadline after call `i` is past it, and the one after call `j` no more than a period past `j`
    rw [← Nat.add_div_right _ hp, Nat.le_div_iff_mul_le hp]
    omega
  · intro n next hnext hlate
    have hdue : dueAt p t n = true := by
      rw [dueAt_eq hp hp' h n, Schedule.due_snd, hnext, Option.getD_some]
      omega
    refine ⟨hdue, ?_⟩
    intro m hnm hdue'
    -- the deadline the late call leaves is a period from now
    obtain ⟨after, hafter, -, -, -, hmoved⟩ := schedule_step hp hp' h n
    rw [hnext, Option.getD_some, if_pos hlate] at hmoved
    obtain rfl := (hmoved hdue).2
    obtain ⟨k, rfl⟩ : ∃ k, m = k + 1 := ⟨m - 1, by omega⟩
    obtain ⟨before, hbefore, -⟩ := schedule_step hp hp' h k
    have hcount := deadline_dueCount hp hp' h (Nat.le_of_lt_succ hnm) hafter hbefore
    rw [dueAt_eq hp hp' h, Schedule.due_snd, hbefore, Option.getD_some] at hdue'
    omega
  · rw [dueAt_eq hp hp' h]
    exact Schedule.due_snd.mpr le_rfl
  · intro g hg hshort
    have hshort' : ∀ n, t (n + 1) - t n ≤ p := fun n => (hshort n).trans hg
    refine ⟨?_, dueCount_eq hp hp' h hshort'⟩
    intro n hn hdue
    obtain ⟨k, rfl⟩ : ∃ k, n = k + 1 := ⟨n - 1, by omega⟩
    obtain ⟨before, hbefore, heq⟩ := onTime hp hp' h hshort' k
    obtain ⟨before', hbefore', hahead, -⟩ := schedule_step hp hp' h k
    obtain rfl : before = before' := Option.some.inj (hbefore.symm.trans hbefore')
    have hreached := hdue
    rw [dueAt_eq hp hp' h, Schedule.due_snd, hbefore, Option.getD_some] at hreached
    have hgap := hshort k
    have hmono := h.mono k
    rw [dueCount_succ (Nat.zero_le k), if_pos hdue, ← heq]
    omega

end Run

/-- A gate of ten milliseconds that is called every three, from just before its clock wraps. -/
theorem gate_keeps_rate_ten :
    (∀ n, gateAt 10 (fun n => 4294967290 + 3 * n) n = Schedule.shown (scheduleAt 10 (fun n => 4294967290 + 3 * n) n)) ∧
      KeepsRate 10 fun n => 4294967290 + 3 * n :=
  gate_keeps_rate (by decide) (by decide) ⟨fun n => by omega, fun n => by omega⟩

end Lhre.Longhorn
