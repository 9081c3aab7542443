import Mathlib.Data.List.Pairwise
import Mathlib.Tactic

/-!
# `Theory.Overlap` — detecting overlaps with one owner per point

Claimants come one after the other. Each covers some points and is either plain or carries a key; two claimants conflict
unless they carry different keys. A scan that keeps for every point only the claimant that covered it last compares a
newcomer with the owners of its points. It sees every overlap with a plain claimant, but of two claimants with one key
it forgets the first as soon as a claimant with another key has covered the point in between.

## Contents
- **The scan.** `Conflict`, `owner`, `Fits`, `AcceptedFrom`, and what appending a claimant does to each.
- **What an accepted list guarantees.** `exists_owner_of_plain`, `disjoint_of_plain`, and `pairwise_iff_not_interleaved`:
  conflicting claimants are pairwise disjoint exactly when no point is covered by two claimants of one key with one of
  another key between them.
- **What is accepted.** `acceptedFrom_of_pairwise`: pairwise disjoint claimants are accepted in any order.
-/

namespace Overlap

variable {σ ι κ : Type*} [DecidableEq ι] (covers : σ → List ι) (key : σ → Option κ)

/-! ## The scan -/

/-- Two claimants that may not share a point. -/
def Conflict (s t : σ) : Prop := key s = none ∨ key t = none ∨ key s = key t

theorem Conflict.symm {s t : σ} (h : Conflict key s t) : Conflict key t s := by
  rcases h with h | h | h
  · right
    left
    exact h
  · left
    exact h
  · right
    right
    exact h.symm

/-- The claimant that covered a point last. -/
def owner (l : List σ) (p : ι) : Option σ := (l.filter fun s => decide (p ∈ covers s)).getLast?

/-- A newcomer conflicts with no owner of its points. -/
def Fits (l : List σ) (s : σ) : Prop := ∀ p ∈ covers s, ∀ t, owner covers l p = some t → ¬ Conflict key t s

/-- The scan accepts a list after the claimants `before`. -/
def AcceptedFrom : (before l : List σ) → Prop
  | _, [] => True
  | before, s :: rest => Fits covers key before s ∧ AcceptedFrom (before ++ [s]) rest

variable {covers key}

theorem owner_append_singleton (l : List σ) (s : σ) (p : ι) :
    owner covers (l ++ [s]) p = if p ∈ covers s then some s else owner covers l p := by
  unfold owner
  by_cases h : p ∈ covers s
  · rw [if_pos h, List.filter_append, List.filter_cons_of_pos (by simpa using h)]
    simp
  · rw [if_neg h, List.filter_append, List.filter_cons_of_neg (by simpa using h)]
    simp

theorem acceptedFrom_append (before l : List σ) (s : σ) :
    AcceptedFrom covers key before (l ++ [s]) ↔
      AcceptedFrom covers key before l ∧ Fits covers key (before ++ l) s := by
  induction l generalizing before with
  | nil => simp [AcceptedFrom]
  | cons a l ih =>
      show Fits covers key before a ∧ AcceptedFrom covers key (before ++ [a]) (l ++ [s]) ↔ _
      rw [ih, List.append_assoc]
      exact and_assoc.symm

/-- The owner of a point is a claimant that covers it. -/
theorem of_owner {l : List σ} {p : ι} {t : σ} (h : owner covers l p = some t) : t ∈ l ∧ p ∈ covers t := by
  have hmem := List.mem_filter.mp (List.mem_of_getLast? h)
  exact ⟨hmem.1, by simpa using hmem.2⟩

/-- A covered point has an owner. -/
theorem exists_owner {l : List σ} {p : ι} {s : σ} (hs : s ∈ l) (hp : p ∈ covers s) :
    ∃ t, owner covers l p = some t := by
  have hne : (l.filter fun s => decide (p ∈ covers s)) ≠ [] := by
    apply List.ne_nil_of_mem
    exact List.mem_filter.mpr ⟨hs, by simpa using hp⟩
  exact ⟨_, List.getLast?_eq_some_getLast hne⟩

/-- A claimant of a point that is not its owner came before the owner. -/
theorem sublist_of_owner {l : List σ} {p : ι} {s t : σ} (hs : s ∈ l) (hp : p ∈ covers s)
    (ht : owner covers l p = some t) (hne : s ≠ t) : [s, t].Sublist l := by
  obtain ⟨init, hinit⟩ := List.getLast?_eq_some_iff.mp ht
  have hmem : s ∈ init ++ [t] := by
    rw [← hinit]
    exact List.mem_filter.mpr ⟨hs, by simpa using hp⟩
  have hs' : s ∈ init := by
    rcases List.mem_append.mp hmem with h | h
    · exact h
    · exact absurd (List.mem_singleton.mp h) hne
  have hsub : [s, t].Sublist (init ++ [t]) := List.Sublist.append (List.singleton_sublist.mpr hs') (List.Sublist.refl [t])
  rw [← hinit] at hsub
  exact hsub.trans List.filter_sublist

/-! ## What an accepted list guarantees -/

/-- **A plain claimant keeps its points.** The owner of a point a plain claimant covers is plain. -/
theorem exists_owner_of_plain {l : List σ} (h : AcceptedFrom covers key [] l) {s : σ} (hs : s ∈ l)
    (hplain : key s = none) {p : ι} (hp : p ∈ covers s) : ∃ t, owner covers l p = some t ∧ key t = none := by
  induction l using List.reverseRecOn with
  | nil => exact absurd hs List.not_mem_nil
  | append_singleton l a ih =>
      obtain ⟨hl, hfits⟩ := (acceptedFrom_append [] l a).mp h
      rw [owner_append_singleton]
      rcases List.mem_append.mp hs with hs | hs
      · obtain ⟨t, ht, hkey⟩ := ih hl hs
        by_cases hpa : p ∈ covers a
        · exact absurd (Or.inl hkey) (hfits p hpa t ht)
        · rw [if_neg hpa]
          exact ⟨t, ht, hkey⟩
      · rw [List.mem_singleton.mp hs] at hp hplain
        rw [if_pos hp]
        exact ⟨a, rfl, hplain⟩

/-- **Every overlap with a plain claimant is seen.** -/
theorem disjoint_of_plain {l : List σ} (h : AcceptedFrom covers key [] l) :
    l.Pairwise fun s t => key s = none ∨ key t = none → (covers s).Disjoint (covers t) := by
  induction l using List.reverseRecOn with
  | nil => exact List.Pairwise.nil
  | append_singleton l a ih =>
      obtain ⟨hl, hfits⟩ := (acceptedFrom_append [] l a).mp h
      rw [List.pairwise_append]
      refine ⟨ih hl, List.pairwise_singleton _ _, ?_⟩
      intro s hs t ht hplain p hps hpt
      rw [List.mem_singleton.mp ht] at hpt hplain
      rcases hplain with hplain | hplain
      · obtain ⟨u, hu, hkey⟩ := exists_owner_of_plain hl hs hplain hps
        exact hfits p hpt u hu (Or.inl hkey)
      · obtain ⟨u, hu⟩ := exists_owner hs hps
        exact hfits p hpt u hu (Or.inr (Or.inl hplain))

variable (covers key) in
/-- A point is covered by two claimants of one key with a claimant of another key between them. -/
def Interleaved (l : List σ) : Prop :=
  ∃ s u t, [s, u, t].Sublist l ∧ key s = key t ∧ key u ≠ key s ∧ ∃ p, p ∈ covers s ∧ p ∈ covers u ∧ p ∈ covers t

omit [DecidableEq ι] in
theorem Interleaved.append {l : List σ} (h : Interleaved covers key l) (a : σ) : Interleaved covers key (l ++ [a]) := by
  obtain ⟨s, u, t, hsub, hkey, hother, hpoint⟩ := h
  exact ⟨s, u, t, hsub.trans (List.sublist_append_left l [a]), hkey, hother, hpoint⟩

/-- In an accepted list a newcomer overlaps a claimant of its own key only behind the back of the owner. -/
theorem interleaved_of_overlap {l : List σ} {a : σ} (hl : AcceptedFrom covers key [] l) (hfits : Fits covers key l a)
    {s : σ} (hs : s ∈ l) (hconflict : Conflict key s a) {p : ι} (hps : p ∈ covers s) (hpa : p ∈ covers a) :
    Interleaved covers key (l ++ [a]) := by
  obtain ⟨t, ht⟩ := exists_owner hs hps
  have hno : ¬ Conflict key t a := hfits p hpa t ht
  have hkey : key s = key a := by
    rcases hconflict with hplain | hplain | hkey
    · obtain ⟨u, hu, hu'⟩ := exists_owner_of_plain hl hs hplain hps
      exact absurd (Or.inl hu') (hfits p hpa u hu)
    · exact absurd (Or.inr (Or.inl hplain)) hno
    · exact hkey
  have hother : key t ≠ key s := by
    intro heq
    exact hno (Or.inr (Or.inr (heq.trans hkey)))
  have hne : s ≠ t := by
    rintro rfl
    exact hother rfl
  refine ⟨s, t, a, ?_, hkey, hother, p, hps, (of_owner ht).2, hpa⟩
  exact List.Sublist.append (sublist_of_owner hs hps ht hne) (List.Sublist.refl [a])

/-- **What the scan guarantees.** The conflicting claimants of an accepted list are pairwise disjoint exactly when no
    point is covered by two claimants of one key with one of another key between them. -/
theorem pairwise_iff_not_interleaved {l : List σ} (h : AcceptedFrom covers key [] l) :
    (l.Pairwise fun s t => Conflict key s t → (covers s).Disjoint (covers t)) ↔ ¬ Interleaved covers key l := by
  constructor
  · rintro hpair ⟨s, u, t, hsub, hkey, -, p, hps, -, hpt⟩
    have hst : [s, t].Sublist l := by
      refine List.Sublist.trans ?_ hsub
      exact List.Sublist.cons_cons s (List.sublist_cons_self u [t])
    exact List.pairwise_iff_forall_sublist.mp hpair hst (Or.inr (Or.inr hkey)) hps hpt
  · intro hno
    induction l using List.reverseRecOn with
    | nil => exact List.Pairwise.nil
    | append_singleton l a ih =>
        obtain ⟨hl, hfits⟩ := (acceptedFrom_append [] l a).mp h
        rw [List.pairwise_append]
        refine ⟨ih hl (fun hl' => hno (hl'.append a)), List.pairwise_singleton _ _, ?_⟩
        intro s hs t ht hconflict p hps hpt
        rw [List.mem_singleton.mp ht] at hconflict hpt
        exact hno (interleaved_of_overlap hl hfits hs hconflict hps hpt)

/-! ## What is accepted -/

/-- **Pairwise disjoint claimants are accepted in any order.** -/
theorem acceptedFrom_of_pairwise {l : List σ}
    (h : l.Pairwise fun s t => Conflict key s t → (covers s).Disjoint (covers t)) : AcceptedFrom covers key [] l := by
  induction l using List.reverseRecOn with
  | nil => trivial
  | append_singleton l a ih =>
      obtain ⟨hl, -, hlast⟩ := List.pairwise_append.mp h
      rw [acceptedFrom_append]
      refine ⟨ih hl, ?_⟩
      intro p hp t ht hconflict
      obtain ⟨htl, hpt⟩ := of_owner ht
      exact hlast t htl a (List.mem_singleton_self a) hconflict hpt hp

end Overlap
