import Mathlib.Data.Finset.Card
import Mathlib.Data.Finset.Range
import Mathlib.Logic.Function.Basic
import Mathlib.Logic.Relation

/-!
# `Theory.DisjointForest` — parent pointers of a disjoint-set forest

Parent pointers on the numbers below `n`, with the root of each number and a rank that grows towards the roots. Shortening a
path changes no root; hanging one root below another joins two classes. The rank is no stored field, so any of the two roots
may go below the other.

## Contents
- **Forests.** `Forest`, `above`, `Forest.above_lt`.
- **Operations.** `Forest.halve`, `Forest.link`.
- **Classes.** `Tracks`, `Tracks.link`, `Tracks.skip`.
-/

namespace Lhre.DisjointForest

variable {n : ℕ} {p root rank : ℕ → ℕ}

/-! ## Forests -/

/-- Parent pointers, the root that each number leads to, and a rank that grows along each pointer. -/
structure Forest (n : ℕ) (p root rank : ℕ → ℕ) : Prop where
  inside : ∀ i, p i ≠ i → i < n ∧ p i < n
  root_lt : ∀ i, i < n → root i < n
  root_parent : ∀ i, root (p i) = root i
  fixed : ∀ i, p i = i ↔ root i = i
  root_root : ∀ i, root (root i) = root i
  climbs : ∀ i, p i ≠ i → rank i < rank (p i)

/-- Every number its own root. -/
theorem Forest.discrete (n : ℕ) : Forest n id id fun _ => 0 where
  inside _ h := absurd rfl h
  root_lt _ h := h
  root_parent _ := rfl
  fixed _ := Iff.rfl
  root_root _ := rfl
  climbs _ h := absurd rfl h

theorem Forest.climbs_le (h : Forest n p root rank) (i : ℕ) : rank i ≤ rank (p i) := by
  by_cases hi : p i = i
  · rw [hi]
  · exact (h.climbs i hi).le

/-- How many numbers have a higher rank. -/
def above (n : ℕ) (rank : ℕ → ℕ) (i : ℕ) : ℕ := ((Finset.range n).filter fun j => rank i < rank j).card

theorem above_le (n : ℕ) (rank : ℕ → ℕ) (i : ℕ) : above n rank i ≤ n := by
  simpa [above] using Finset.card_filter_le (Finset.range n) fun j => rank i < rank j

theorem above_lt {i j : ℕ} (hj : j < n) (hij : rank i < rank j) : above n rank j < above n rank i := by
  refine Finset.card_lt_card (Finset.ssubset_iff_of_subset ?_ |>.mpr ⟨j, ?_, ?_⟩)
  · intro k hk
    simp only [Finset.mem_filter] at hk ⊢
    exact ⟨hk.1, hij.trans hk.2⟩
  · simpa using ⟨hj, hij⟩
  · simp

/-! ## Operations -/

/-- Two pointers ahead is the pointer of no root, is inside, and ranks higher. -/
theorem Forest.grandparent (h : Forest n p root rank) {i : ℕ} (hi : p i ≠ i) :
    p (p i) < n ∧ rank i < rank (p (p i)) := by
  have hrank : rank i < rank (p (p i)) := (h.climbs i hi).trans_le (h.climbs_le (p i))
  by_cases hp : p (p i) = p i
  · rw [hp]
    exact ⟨(h.inside i hi).2, h.climbs i hi⟩
  · exact ⟨(h.inside (p i) hp).2, hrank⟩

/-- Skipping a parent: no root changes. -/
theorem Forest.halve (h : Forest n p root rank) {i : ℕ} (hi : p i ≠ i) :
    Forest n (Function.update p i (p (p i))) root rank := by
  obtain ⟨hlt, hrank⟩ := h.grandparent hi
  have hne : p (p i) ≠ i := fun heq => by
    rw [heq] at hrank
    exact lt_irrefl _ hrank
  constructor
  case inside =>
    intro j hj
    by_cases hji : j = i
    · subst hji
      simpa using ⟨(h.inside j hi).1, hlt⟩
    · simp only [Function.update_of_ne hji] at hj ⊢
      exact h.inside j hj
  case root_lt => exact h.root_lt
  case root_parent =>
    intro j
    by_cases hji : j = i
    · subst hji
      rw [Function.update_self, h.root_parent, h.root_parent]
    · rw [Function.update_of_ne hji, h.root_parent]
  case fixed =>
    intro j
    by_cases hji : j = i
    · subst hji
      rw [Function.update_self]
      exact ⟨fun heq => absurd heq hne, fun heq => absurd ((h.fixed j).mpr heq) hi⟩
    · rw [Function.update_of_ne hji]
      exact h.fixed j
  case root_root => exact h.root_root
  case climbs =>
    intro j hj
    by_cases hji : j = i
    · subst hji
      rwa [Function.update_self]
    · rw [Function.update_of_ne hji] at hj ⊢
      exact h.climbs j hj

/-- The roots once one root hangs below another. -/
def rehang (keep drop : ℕ) (root : ℕ → ℕ) (i : ℕ) : ℕ := if root i = drop then keep else root i

/-- The tree that is kept rises above the one that is dropped. -/
def lift (keep drop : ℕ) (root rank : ℕ → ℕ) (i : ℕ) : ℕ := if root i = keep then rank i + rank drop + 1 else rank i

/-- Hanging one root below another. -/
theorem Forest.link (h : Forest n p root rank) {keep drop : ℕ} (hkeep : root keep = keep) (hdrop : root drop = drop)
    (hkn : keep < n) (hdn : drop < n) (hne : keep ≠ drop) :
    Forest n (Function.update p drop keep) (rehang keep drop root) (lift keep drop root rank) := by
  constructor
  case inside =>
    intro j hj
    by_cases hjd : j = drop
    · subst hjd
      simpa using ⟨hdn, hkn⟩
    · rw [Function.update_of_ne hjd] at hj ⊢
      exact h.inside j hj
  case root_lt =>
    intro j hj
    unfold rehang
    split
    · exact hkn
    · exact h.root_lt j hj
  case root_parent =>
    intro j
    by_cases hjd : j = drop
    · subst hjd
      simp [rehang, hkeep, hdrop, hne]
    · simp only [rehang, Function.update_of_ne hjd, h.root_parent]
  case fixed =>
    intro j
    by_cases hjd : j = drop
    · subst hjd
      simp [rehang, hdrop]
    · rw [Function.update_of_ne hjd, h.fixed, rehang]
      split
      · case isTrue hroot =>
        -- a member of the dropped tree other than its root leads elsewhere, before and after
        constructor
        · intro heq
          exact absurd (heq.symm.trans hroot) hjd
        · intro heq
          rw [← heq, hkeep] at hroot
          exact absurd hroot hne
      · exact Iff.rfl
  case root_root =>
    intro j
    by_cases hjd : root j = drop
    · simp [rehang, hjd, hkeep]
    · simp [rehang, hjd, h.root_root]
  case climbs =>
    intro j hj
    by_cases hjd : j = drop
    · subst hjd
      simp only [lift, Function.update_self, hdrop, hkeep, hne.symm, if_false, if_true]
      omega
    · rw [Function.update_of_ne hjd] at hj ⊢
      have hlt := h.climbs j hj
      simp only [lift, h.root_parent]
      split <;> omega

/-! ## Classes -/

/-- The roots tell the classes of a relation apart. -/
def Tracks (E : ℕ → ℕ → Prop) (root : ℕ → ℕ) : Prop := ∀ i j, root i = root j ↔ Relation.EqvGen E i j

theorem Tracks.discrete : Tracks (fun _ _ => False) id := by
  intro i j
  constructor
  · rintro rfl
    exact .refl _
  · intro h
    induction h with
    | rel _ _ h => exact h.elim
    | refl _ => rfl
    | symm _ _ _ ih => exact ih.symm
    | trans _ _ _ _ _ ih ih' => exact ih.trans ih'

theorem Tracks.congr {E E' : ℕ → ℕ → Prop} (h : Tracks E root) (hE : ∀ i j, E i j ↔ E' i j) : Tracks E' root := by
  have heq : E = E' := by
    funext i j
    exact propext (hE i j)
  exact heq ▸ h

/-- A relation with one more pair. -/
def Extend (E : ℕ → ℕ → Prop) (a b : ℕ) (i j : ℕ) : Prop := E i j ∨ i = a ∧ j = b

/-- A pair whose members are in one class already adds nothing. -/
theorem Tracks.skip {E : ℕ → ℕ → Prop} (h : Tracks E root) {a b : ℕ} (hab : root a = root b) :
    Tracks (Extend E a b) root := by
  intro i j
  constructor
  · intro hij
    exact ((h i j).mp hij).mono fun _ _ => Or.inl
  · intro hij
    induction hij with
    | rel i j hij =>
      obtain hij | ⟨rfl, rfl⟩ := hij
      · exact (h i j).mpr (.rel _ _ hij)
      · exact hab
    | refl _ => rfl
    | symm _ _ _ ih => exact ih.symm
    | trans _ _ _ _ _ ih ih' => exact ih.trans ih'

/-- Hanging the root of one member of a pair below that of the other adds the pair. -/
theorem Tracks.link {E : ℕ → ℕ → Prop} (h : Tracks E root) {a b keep drop : ℕ}
    (hab : root a = keep ∧ root b = drop ∨ root a = drop ∧ root b = keep) :
    Tracks (Extend E a b) (rehang keep drop root) := by
  have hpair : Relation.EqvGen (Extend E a b) a b := .rel a b (Or.inr ⟨rfl, rfl⟩)
  have hold (i j : ℕ) (hij : root i = root j) : Relation.EqvGen (Extend E a b) i j :=
    ((h i j).mp hij).mono fun _ _ => Or.inl
  -- a member of the dropped class and one of the kept class meet over the pair
  have hmeet (i j : ℕ) (hi : root i = drop) (hj : root j = keep) : Relation.EqvGen (Extend E a b) i j := by
    obtain ⟨ha, hb⟩ | ⟨ha, hb⟩ := hab
    · exact ((hold i b (hi.trans hb.symm)).trans _ _ _ (hpair.symm _ _)).trans _ _ _ (hold a j (ha.trans hj.symm))
    · exact ((hold i a (hi.trans ha.symm)).trans _ _ _ hpair).trans _ _ _ (hold b j (hb.trans hj.symm))
  intro i j
  constructor
  · intro hij
    unfold rehang at hij
    split at hij <;> split at hij
    · case isTrue.isTrue hi hj => exact hold i j (hi.trans hj.symm)
    · case isTrue.isFalse hi _ => exact hmeet i j hi hij.symm
    · case isFalse.isTrue _ hj => exact (hmeet j i hj hij).symm _ _
    · exact hold i j hij
  · intro hij
    induction hij with
    | rel i j hij =>
      obtain hij | ⟨rfl, rfl⟩ := hij
      · have heq : root i = root j := (h i j).mpr (.rel _ _ hij)
        simp [rehang, heq]
      · obtain ⟨ha, hb⟩ | ⟨ha, hb⟩ := hab <;> simp [rehang, ha, hb]
    | refl _ => rfl
    | symm _ _ _ ih => exact ih.symm
    | trans _ _ _ _ _ ih ih' => exact ih.trans ih'

end Lhre.DisjointForest
