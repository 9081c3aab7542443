import Mathlib.Tactic
import Lhre.Theory.Dict

/-!
# `Theory.Reordering` — what does not depend on the order of a list

A pass over a list often reads it in the order in which it happens to be listed. Here is when the result is the same for
every order.

## Contents
- **Items.** `getLast?_map`, `flatMap_forall₂`.
- **Sorting.** `insertionSort_eq`.
- **Lookups.** `lookup_eq`, where the entries of the key that is looked up agree.
-/

namespace Reordering

variable {α β γ : Type*}

/-! ## Items -/

/-- What the last item says does not depend on the order, where all items say the same. -/
theorem getLast?_map {l l' : List α} (h : l.Perm l') {g : α → β} (hg : ∀ a ∈ l, ∀ b ∈ l, g a = g b) :
    l.getLast?.map g = l'.getLast?.map g := by
  cases hl : l.getLast? with
  | none =>
      rw [List.getLast?_eq_none_iff] at hl
      subst hl
      rw [← h.nil_eq]
      rfl
  | some a =>
      have ha := List.mem_of_getLast? hl
      cases hl' : l'.getLast? with
      | none =>
          rw [List.getLast?_eq_none_iff] at hl'
          exact absurd (h.mem_iff.mp ha) (by simp [hl'])
      | some b => exact congrArg some (hg a ha b (h.mem_iff.mpr (List.mem_of_getLast? hl')))

/-- Lists joined from reordered parts are reorderings of each other. -/
theorem flatMap_forall₂ {f : α → List γ} {g : β → List γ} {l : List α} {l' : List β}
    (h : List.Forall₂ (fun a b => (f a).Perm (g b)) l l') : (l.flatMap f).Perm (l'.flatMap g) := by
  induction h with
  | nil => exact List.Perm.nil
  | cons hab _ ih =>
      rw [List.flatMap_cons, List.flatMap_cons]
      exact hab.append ih

/-! ## Sorting -/

/-- **A sorted list is the same for every order** of its items, where no two of them tie. -/
theorem insertionSort_eq {r : α → α → Prop} [DecidableRel r] [Std.Total r] [IsTrans α r] {l l' : List α} (h : l.Perm l')
    (hanti : ∀ a ∈ l, ∀ b ∈ l, r a b → r b a → a = b) : l.insertionSort r = l'.insertionSort r := by
  have hperm : (l.insertionSort r).Perm (l'.insertionSort r) :=
    (List.perm_insertionSort r l).trans (h.trans (List.perm_insertionSort r l').symm)
  refine List.Perm.eq_of_pairwise ?_ (List.pairwise_insertionSort r l) (List.pairwise_insertionSort r l') hperm
  intro a b ha hb
  exact hanti a ((List.mem_insertionSort r).mp ha) b (h.mem_iff.mpr ((List.mem_insertionSort r).mp hb))

/-! ## Lookups -/

section Lookups

variable {κ ν : Type*} [DecidableEq κ]

/-- An entry is found if all entries of its key agree with it. -/
theorem get?_of_mem {d : Dict κ ν} {k : κ} {v : ν} (hmem : (k, v) ∈ d) (h : ∀ w, (k, w) ∈ d → w = v) :
    Dict.get? d k = some v := by
  induction d with
  | nil => exact absurd hmem List.not_mem_nil
  | cons entry d ih =>
      rw [Dict.get?_cons]
      split
      · rename_i hk
        exact congrArg some (h entry.2 (hk ▸ List.mem_cons_self))
      · rename_i hk
        refine ih ?_ fun w hw => h w (List.mem_cons_of_mem _ hw)
        exact (List.mem_cons.mp hmem).resolve_left fun heq => hk (congrArg Prod.fst heq)

theorem lookup_eq {d d' : Dict κ ν} (h : d.Perm d') {k : κ} (hk : ∀ v w, (k, v) ∈ d → (k, w) ∈ d → v = w) :
    Dict.get? d k = Dict.get? d' k := by
  cases hget : Dict.get? d k with
  | none =>
      rw [Dict.get?_eq_none] at hget
      exact (Dict.get?_eq_none.mpr fun hmem => hget ((h.map Prod.fst).mem_iff.mpr hmem)).symm
  | some v =>
      obtain ⟨⟨k, w⟩, hmem, rfl⟩ := List.mem_map.mp (Dict.mem_keys.mpr ⟨v, hget⟩)
      have hw := get?_of_mem hmem fun v hv => hk v w hv hmem
      obtain rfl := Option.some.inj (hget.symm.trans hw)
      exact (get?_of_mem (h.mem_iff.mp hmem) fun w hw => hk w v (h.mem_iff.mpr hw) hmem).symm

end Lookups

end Reordering
