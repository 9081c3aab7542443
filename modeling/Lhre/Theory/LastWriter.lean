import Mathlib.Tactic

/-!
# `Theory.LastWriter` — replicas that keep the latest record

A replica holds at most one record; of two records the one with the later stamp is kept, and the hub's where the stamps are equal.
A replica that synchronises with the hub leaves both with the same record. So, in whatever order they do, all replicas agree with the
hub once each of them has synchronised twice.

## Contents
- **The choice.** `join`, `Le`, `join_eq_left`, `le_join_left`, `le_join_right`, `join_mem`.
- **Rounds.** `round`, `round_hub_mono`, `round_covers`, `round_stable`.
- **Agreement.** `two_rounds_agree`.
-/

namespace LastWriter

variable {ρ τ : Type*} [LinearOrder τ] (stamp : ρ → τ)

/-! ## The choice -/

/-- What is kept of the hub's record and a replica's. -/
def join : Option ρ → Option ρ → Option ρ
  | none, mine => mine
  | some hub, none => some hub
  | some hub, some mine => if stamp hub < stamp mine then some mine else some hub

/-- No record is later than another place's. -/
def Le (a b : Option ρ) : Prop := ∀ x, a = some x → ∃ y, b = some y ∧ stamp x ≤ stamp y

variable {stamp} {a b c : Option ρ}

theorem Le.refl (a : Option ρ) : Le stamp a a := fun x hx => ⟨x, hx, le_rfl⟩

theorem Le.trans (hab : Le stamp a b) (hbc : Le stamp b c) : Le stamp a c := by
  intro x hx
  obtain ⟨y, hy, hxy⟩ := hab x hx
  obtain ⟨z, hz, hyz⟩ := hbc y hy
  exact ⟨z, hz, hxy.trans hyz⟩

/-- **A hub that is not behind keeps its record.** -/
theorem join_eq_left (h : Le stamp b a) : join stamp a b = a := by
  cases a with
  | none =>
      cases b with
      | none => rfl
      | some y =>
          obtain ⟨z, hz, -⟩ := h y rfl
          cases hz
  | some x =>
      cases b with
      | none => rfl
      | some y =>
          obtain ⟨z, hz, hyz⟩ := h y rfl
          rw [Option.some.inj hz]
          exact if_neg hyz.not_gt

theorem le_join_left (a b : Option ρ) : Le stamp a (join stamp a b) := by
  rintro x rfl
  cases b with
  | none => exact ⟨x, rfl, le_rfl⟩
  | some y =>
      show ∃ z, (if stamp x < stamp y then some y else some x) = some z ∧ stamp x ≤ stamp z
      split
      case isTrue hlt => exact ⟨y, rfl, hlt.le⟩
      case isFalse => exact ⟨x, rfl, le_rfl⟩

theorem le_join_right (a b : Option ρ) : Le stamp b (join stamp a b) := by
  rintro y rfl
  cases a with
  | none => exact ⟨y, rfl, le_rfl⟩
  | some x =>
      show ∃ z, (if stamp x < stamp y then some y else some x) = some z ∧ stamp y ≤ stamp z
      split
      case isTrue => exact ⟨y, rfl, le_rfl⟩
      case isFalse hlt => exact ⟨x, rfl, not_lt.mp hlt⟩

/-- A record that is kept was one of the two. -/
theorem join_mem {x : ρ} (h : join stamp a b = some x) : a = some x ∨ b = some x := by
  cases a with
  | none => exact Or.inr h
  | some y =>
      cases b with
      | none => exact Or.inl h
      | some z =>
          have hcases : (if stamp y < stamp z then some z else some y) = some x := h
          split at hcases
          · exact Or.inr hcases
          · exact Or.inl hcases

/-! ## Rounds -/

section Rounds
variable (stamp)
variable {ι : Type*} [DecidableEq ι]

/-- The hub and the replicas after some replicas have synchronised, one after the other. -/
def round : Option ρ × (ι → Option ρ) → List ι → Option ρ × (ι → Option ρ)
  | state, [] => state
  | (hub, replica), i :: order =>
      round (join stamp hub (replica i), Function.update replica i (join stamp hub (replica i))) order

variable {stamp} {hub : Option ρ} {replica : ι → Option ρ} {order : List ι}

theorem round_hub_mono (hub : Option ρ) (replica : ι → Option ρ) (order : List ι) :
    Le stamp hub (round stamp (hub, replica) order).1 := by
  induction order generalizing hub replica with
  | nil => exact Le.refl hub
  | cons i order ih => exact (le_join_left hub (replica i)).trans (ih _ _)

/-- A replica that is not ahead of the hub stays so. -/
theorem round_keeps_le {i : ι} (h : Le stamp (replica i) hub) :
    Le stamp ((round stamp (hub, replica) order).2 i) (round stamp (hub, replica) order).1 := by
  induction order generalizing hub replica with
  | nil => exact h
  | cons j order ih =>
      apply ih
      by_cases hij : i = j
      · rw [hij, Function.update_self]
        exact Le.refl _
      · rw [Function.update_of_ne hij]
        exact h.trans (le_join_left hub (replica j))

/-- **After its turn a replica is not ahead of the hub.** -/
theorem round_covers {i : ι} (hi : i ∈ order) :
    Le stamp ((round stamp (hub, replica) order).2 i) (round stamp (hub, replica) order).1 := by
  induction order generalizing hub replica with
  | nil => exact absurd hi List.not_mem_nil
  | cons j order ih =>
      rcases List.mem_cons.mp hi with rfl | hi
      · have hself : Le stamp (Function.update replica i (join stamp hub (replica i)) i) (join stamp hub (replica i)) := by
          rw [Function.update_self]
          exact Le.refl _
        show Le stamp ((round stamp (join stamp hub (replica i), Function.update replica i _) order).2 i) _
        exact round_keeps_le hself
      · exact ih hi

/-- A record of a replica is not later than what the hub has after the turn of the replica. -/
theorem round_collects {i : ι} (hi : i ∈ order) : Le stamp (replica i) (round stamp (hub, replica) order).1 := by
  induction order generalizing hub replica with
  | nil => exact absurd hi List.not_mem_nil
  | cons j order ih =>
      by_cases hij : i = j
      · rw [hij]
        exact (le_join_right hub (replica j)).trans (round_hub_mono _ _ order)
      · have h : Le stamp (Function.update replica j (join stamp hub (replica j)) i) (round stamp
            (join stamp hub (replica j), Function.update replica j (join stamp hub (replica j))) order).1 :=
          ih ((List.mem_cons.mp hi).resolve_left hij)
        rwa [Function.update_of_ne hij] at h

/-- **Where no replica is ahead**, a round leaves the hub as it is, and each replica that had its turn has the hub's record. -/
theorem round_stable (h : ∀ i, Le stamp (replica i) hub) :
    (round stamp (hub, replica) order).1 = hub ∧
      ∀ i, (round stamp (hub, replica) order).2 i = if i ∈ order then hub else replica i := by
  induction order generalizing replica with
  | nil => simp [round]
  | cons j order ih =>
      have hjoin : join stamp hub (replica j) = hub := join_eq_left (h j)
      show (round stamp (join stamp hub (replica j), Function.update replica j (join stamp hub (replica j))) order).1 = hub ∧
        ∀ i, (round stamp (join stamp hub (replica j), Function.update replica j (join stamp hub (replica j))) order).2 i = _
      rw [hjoin]
      have hnext : ∀ i, Le stamp (Function.update replica j hub i) hub := by
        intro i
        by_cases hij : i = j
        · rw [hij, Function.update_self]
          exact Le.refl hub
        · rw [Function.update_of_ne hij]
          exact h i
      obtain ⟨hhub, hreplica⟩ := ih hnext
      refine ⟨hhub, fun i => ?_⟩
      rw [hreplica]
      by_cases hij : i = j
      · simp [hij]
      · simp [hij]

/-- What the hub ends with was there. -/
theorem round_mem {x : ρ} (h : (round stamp (hub, replica) order).1 = some x) : hub = some x ∨ ∃ i, replica i = some x := by
  induction order generalizing hub replica with
  | nil => exact Or.inl h
  | cons j order ih =>
      rcases ih h with hx | ⟨i, hx⟩
      · rcases join_mem hx with hx | hx
        · exact Or.inl hx
        · exact Or.inr ⟨j, hx⟩
      · by_cases hij : i = j
        · rw [hij, Function.update_self] at hx
          rcases join_mem hx with hx | hx
          · exact Or.inl hx
          · exact Or.inr ⟨j, hx⟩
        · rw [Function.update_of_ne hij] at hx
          exact Or.inr ⟨i, hx⟩

/-! ## Agreement -/

/-- **Two rounds are enough.** When every replica has had its turn twice, all have the record of the hub, which is one that was
there, and no record that was there is later. -/
theorem two_rounds_agree (stamp : ρ → τ) (hub : Option ρ) (replica : ι → Option ρ) {first second : List ι} (hfirst : ∀ i, i ∈ first) (hsecond : ∀ i, i ∈ second) :
    let state := round stamp (round stamp (hub, replica) first) second
    (∀ i, state.2 i = state.1) ∧ Le stamp hub state.1 ∧ (∀ i, Le stamp (replica i) state.1) ∧
      ∀ x, state.1 = some x → hub = some x ∨ ∃ i, replica i = some x := by
  intro state
  have hbehind : ∀ i, Le stamp ((round stamp (hub, replica) first).2 i) (round stamp (hub, replica) first).1 :=
    fun i => round_covers (hfirst i)
  obtain ⟨hhub, hreplica⟩ : state.1 = (round stamp (hub, replica) first).1 ∧ ∀ i, state.2 i =
      if i ∈ second then (round stamp (hub, replica) first).1 else (round stamp (hub, replica) first).2 i :=
    round_stable hbehind
  have hsame : state.1 = (round stamp (hub, replica) first).1 := hhub
  refine ⟨fun i => ?_, ?_, fun i => ?_, fun x hx => ?_⟩
  · rw [hsame]
    exact (hreplica i).trans (if_pos (hsecond i))
  · rw [hsame]
    exact round_hub_mono hub replica first
  · rw [hsame]
    exact round_collects (hfirst i)
  · rw [hsame] at hx
    exact round_mem hx

end Rounds

end LastWriter
