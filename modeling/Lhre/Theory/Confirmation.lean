import Mathlib.Data.List.ReduceOption
import Mathlib.Tactic

/-!
# `Theory.Confirmation` — the first value that comes often enough in a row

Values come one at a time, and some proposals have none. A value is taken when it came a number of times in a row, and is then
kept. What is taken is the value that ends the first part of the sequence with so many equal values at its end.

## Contents
- **Streaks.** `streak`, `streak_concat`, `replicate_suffix_iff`.
- **The machine.** `State`, `step`, `run`; `run_reduceOption`.
- **What is taken.** `First`, `First.concat`, `label_run`, `label_kept`.
-/

namespace Confirmation

variable {α : Type*} {n : ℕ} {a b : α} {l : List α}

/-! ## Streaks -/

variable [DecidableEq α]

/-- How often a value comes at the end of a list. -/
def streak (l : List α) (a : α) : ℕ := (l.reverse.takeWhile fun x => decide (x = a)).length

theorem streak_concat (l : List α) (a b : α) : streak (l ++ [b]) a = if b = a then streak l a + 1 else 0 := by
  unfold streak
  rw [List.reverse_append, List.reverse_singleton, List.singleton_append, List.takeWhile_cons]
  by_cases h : b = a <;> simp [h]

/-- Where another value came last, a value has no streak. -/
theorem streak_eq_zero (h : l.getLast? ≠ some a) : streak l a = 0 := by
  cases l using List.reverseRecOn with
  | nil => rfl
  | append_singleton l b =>
      rw [streak_concat, if_neg]
      rintro rfl
      exact h List.getLast?_concat

/-- **So many equal values at the end** are a streak at least as long. -/
theorem replicate_suffix_iff : List.replicate n a <:+ l ↔ n ≤ streak l a := by
  induction l using List.reverseRecOn generalizing n with
  | nil => simp [streak]
  | append_singleton l b ih =>
      rw [streak_concat]
      cases n with
      | zero => simp
      | succ n =>
          rw [List.replicate_succ', List.suffix_concat_iff]
          by_cases h : b = a
          · subst h
            simp [ih]
          · rw [if_neg h]
            constructor
            · rintro (hnil | ⟨t, heq, -⟩)
              · simp at hnil
              · exact absurd (List.append_inj_right' heq rfl) (by simpa using Ne.symm h)
            · intro hle
              exact absurd hle (Nat.not_succ_le_zero n)

/-! ## The machine -/

/-- The value that is taken, the last one that came, and how often it came in a row. -/
structure State (α : Type*) where
  label : Option α := none
  pending : Option α := none
  count : ℕ := 0

/-- One proposal; `none` says nothing. -/
def step (n : ℕ) (s : State α) : Option α → State α
  | none => s
  | some a =>
      if s.label.isSome then s
      else
        let count := if s.pending = some a then s.count + 1 else 1
        { label := if n ≤ count then some a else none, pending := some a, count := count }

/-- A run of proposals. -/
def run (n : ℕ) (s : State α) (ps : List (Option α)) : State α := ps.foldl (step n) s

/-- Proposals that say nothing do nothing. -/
theorem run_reduceOption (n : ℕ) (s : State α) (ps : List (Option α)) : run n s ps = run n s (ps.reduceOption.map some) := by
  induction ps generalizing s with
  | nil => rfl
  | cons p ps ih =>
      cases p with
      | none =>
          rw [List.reduceOption_cons_of_none]
          exact ih s
      | some a =>
          rw [List.reduceOption_cons_of_some, List.map_cons]
          exact ih (step n s (some a))

/-! ## What is taken -/

/-- The value that is first to come `n` times in a row. -/
def First (n : ℕ) (l : List α) (a : α) : Prop :=
  ∃ k ≤ l.length, List.replicate n a <:+ l.take k ∧ ∀ k' < k, ∀ a', ¬ List.replicate n a' <:+ l.take k'

/-- No value has come `n` times in a row. -/
def Never (n : ℕ) (l : List α) : Prop := ∀ k ≤ l.length, ∀ a, ¬ List.replicate n a <:+ l.take k

omit [DecidableEq α] in
theorem First.unique (hn : 0 < n) (h : First n l a) (h' : First n l b) : a = b := by
  obtain ⟨k, -, hend, hbefore⟩ := h
  obtain ⟨k', -, hend', hbefore'⟩ := h'
  obtain rfl : k = k' := by
    rcases lt_trichotomy k k' with hlt | heq | hgt
    · exact absurd hend (hbefore' k hlt a)
    · exact heq
    · exact absurd hend' (hbefore k' hgt b)
  have hsuffix := List.suffix_of_suffix_length_le hend hend' (by simp)
  have heq : List.replicate n a = List.replicate n b := hsuffix.eq_of_length (by simp)
  exact (List.replicate_right_inj hn.ne').mp heq

omit [DecidableEq α] in
theorem First.not_never (h : First n l a) : ¬ Never n l := by
  obtain ⟨k, hk, hend, -⟩ := h
  exact fun hnever => hnever k hk a hend

omit [DecidableEq α] in
/-- What was taken is not changed by what comes. -/
theorem First.append (h : First n l a) (more : List α) : First n (l ++ more) a := by
  obtain ⟨k, hk, hend, hbefore⟩ := h
  have htake : ∀ k' ≤ k, (l ++ more).take k' = l.take k' := fun k' hk' => List.take_append_of_le_length (hk'.trans hk)
  refine ⟨k, hk.trans (by simp), ?_, fun k' hk' a' => ?_⟩
  · rw [htake k le_rfl]
    exact hend
  · rw [htake k' hk'.le]
    exact hbefore k' hk' a'

omit [DecidableEq α] in
/-- Where nothing was taken, a value is taken when it ends the list often enough. -/
theorem Never.first (h : Never n l) (hend : List.replicate n a <:+ l ++ [b]) : First n (l ++ [b]) a := by
  refine ⟨(l ++ [b]).length, le_rfl, by rwa [List.take_length], fun k' hk' a' => ?_⟩
  rw [List.length_append, List.length_singleton] at hk'
  rw [List.take_append_of_le_length (Nat.lt_succ_iff.mp hk')]
  exact h k' (Nat.lt_succ_iff.mp hk') a'

omit [DecidableEq α] in
theorem Never.concat (h : Never n l) (hno : ∀ a, ¬ List.replicate n a <:+ l ++ [b]) : Never n (l ++ [b]) := by
  intro k hk a
  rw [List.length_append, List.length_singleton] at hk
  rcases Nat.le_succ_iff.mp hk with hle | rfl
  · rw [List.take_append_of_le_length hle]
    exact h k hle a
  · rw [List.take_of_length_le (by simp)]
    exact hno a

/-- Where the machine stands after a list of values. -/
structure Tracks (n : ℕ) (l : List α) (s : State α) : Prop where
  free : s.label = none → Never n l ∧ s.pending = l.getLast? ∧ ∀ a, s.pending = some a → s.count = streak l a
  taken : ∀ a, s.label = some a → First n l a

theorem Tracks.nil (hn : 0 < n) : Tracks n ([] : List α) {} := by
  refine ⟨fun _ => ⟨fun k _ a hend => ?_, rfl, fun a ha => absurd ha (by simp)⟩, fun a ha => absurd ha (by simp)⟩
  rw [List.take_nil, List.suffix_nil, List.replicate_eq_nil_iff] at hend
  omega

/-- **One value** keeps the machine where it should be. -/
theorem Tracks.step (hn : 0 < n) {s : State α} (h : Tracks n l s) (b : α) : Tracks n (l ++ [b]) (step n s (some b)) := by
  unfold Confirmation.step
  dsimp only
  cases hlabel : s.label with
  | some a =>
      rw [if_pos (Option.isSome_some (a := a))]
      refine ⟨fun hnone => absurd hnone (by simp [hlabel]), fun a' ha' => ?_⟩
      exact (h.taken a' ha').append [b]
  | none =>
      obtain ⟨hnever, hpending, hcount⟩ := h.free hlabel
      rw [if_neg (by simp)]
      have hstreak : (if s.pending = some b then s.count + 1 else 1) = streak (l ++ [b]) b := by
        rw [streak_concat, if_pos rfl]
        by_cases hsame : s.pending = some b
        · rw [if_pos hsame, hcount b hsame]
        · rw [if_neg hsame, streak_eq_zero (hpending ▸ hsame)]
      rw [hstreak]
      refine ⟨fun hnone => ⟨hnever.concat fun a hend => ?_, ?_, fun a ha => ?_⟩, fun a ha => ?_⟩
      · -- only the last value has a streak
        have hle := replicate_suffix_iff.mp hend
        have hno : ¬ n ≤ streak (l ++ [b]) b := by
          intro hle'
          rw [if_pos hle'] at hnone
          exact absurd hnone (by simp)
        rw [streak_concat] at hle
        by_cases hab : b = a
        · subst hab
          rw [streak_concat] at hno
          exact hno hle
        · rw [if_neg hab] at hle
          omega
      · exact List.getLast?_concat.symm
      · obtain rfl := Option.some.inj ha
        rfl
      · by_cases hle : n ≤ streak (l ++ [b]) b
        · rw [if_pos hle] at ha
          obtain rfl := Option.some.inj ha
          exact hnever.first (replicate_suffix_iff.mpr hle)
        · rw [if_neg hle] at ha
          exact absurd ha (by simp)

/-- **What is taken** after some proposals is the first value that came `n` times in a row. -/
theorem label_run (hn : 0 < n) (ps : List (Option α)) : (run n {} ps).label = some a ↔ First n ps.reduceOption a := by
  have htracks : ∀ l : List α, Tracks n l (run n {} (l.map some)) := by
    intro l
    induction l using List.reverseRecOn with
    | nil => exact Tracks.nil hn
    | append_singleton l b ih =>
        rw [List.map_append, run, List.foldl_append]
        exact ih.step hn b
  rw [run_reduceOption]
  have h := htracks ps.reduceOption
  constructor
  · exact h.taken a
  · intro hfirst
    cases hlabel : (run n {} (ps.reduceOption.map some)).label with
    | none => exact absurd (h.free hlabel).1 hfirst.not_never
    | some a' => rw [(h.taken a' hlabel).unique hn hfirst]

/-- What is taken is kept. -/
theorem label_kept {s : State α} (h : s.label = some a) (ps : List (Option α)) : (run n s ps).label = some a := by
  induction ps generalizing s with
  | nil => exact h
  | cons p ps ih =>
      apply ih
      cases p with
      | none => exact h
      | some b =>
          unfold step
          dsimp only
          rw [if_pos (by simp [h])]
          exact h

end Confirmation
