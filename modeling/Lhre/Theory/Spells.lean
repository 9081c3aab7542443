import Mathlib.Tactic
import Mathlib.Data.List.SplitBy

/-!
# `Theory.Spells` — the longest stretches of a list on which a test holds

A spell is a stretch of a list on which a test holds and that no neighbour extends. One pass over the list that starts a
summary at the first item of a spell, grows it at the others and puts it out at the first item after leaves one summary for
each spell, in order. Where items have keys, the longest stretches of one key make up the list, and the summary of the last of
them is started or grown by each new item.

## Contents
- **Spells.** `Holds`, `IsSpell`, `IsSpell.start_unique`, `IsSpell.lt_of_lt`, `exists_isSpell`.
- **One more item.** `isSpell_append`, `isSpell_extend`, `isSpell_single`.
- **The pass.** `Pass.step`, `pass`, `stretch`, `Walked.step`, `pass_spells`, `exists_left`, `exists_right`.
- **Stretches of one key.** `byKey`, `byKey_append_same`, `byKey_append_ne`; `summary`, `ended`, `current`.
-/

namespace Spells

variable {α β : Type*} {p : α → Bool} {xs : List α} {i j k : ℕ}

/-! ## Spells -/

/-- The test holds at an index. -/
def Holds (p : α → Bool) (xs : List α) (k : ℕ) : Prop := ∃ a, xs[k]? = some a ∧ p a = true

/-- The indices from `i` to before `j` are a spell. -/
structure IsSpell (p : α → Bool) (xs : List α) (i j : ℕ) : Prop where
  nonempty : i < j
  holds : ∀ k, i ≤ k → k < j → Holds p xs k
  before : ∀ k, k + 1 = i → ¬ Holds p xs k
  after : ¬ Holds p xs j

theorem Holds.lt (h : Holds p xs k) : k < xs.length := by
  obtain ⟨a, ha, -⟩ := h
  exact (List.getElem?_eq_some_iff.mp ha).1

theorem not_holds_length : ¬ Holds p xs xs.length := fun h => absurd h.lt (lt_irrefl _)

theorem IsSpell.le (h : IsSpell p xs i j) : j ≤ xs.length := by
  have hlast := (h.holds (j - 1) (by have := h.nonempty; omega) (by have := h.nonempty; omega)).lt
  omega

/-- **Where a spell starts** is fixed by where it ends. -/
theorem IsSpell.start_unique {i' : ℕ} (h : IsSpell p xs i j) (h' : IsSpell p xs i' j) : i = i' := by
  have hle : ∀ {a b : ℕ}, IsSpell p xs a j → IsSpell p xs b j → a ≤ b := by
    intro a b ha hb
    by_contra hlt
    have hlast := ha.nonempty
    exact ha.before (a - 1) (by omega) (hb.holds (a - 1) (by omega) (by omega))
  exact le_antisymm (hle h h') (hle h' h)

/-- A spell that ends earlier ends before the other starts. -/
theorem IsSpell.lt_of_lt {i' j' : ℕ} (h : IsSpell p xs i j) (h' : IsSpell p xs i' j') (hlt : j < j') : j < i' := by
  by_contra hle
  exact h.after (h'.holds j (not_lt.mp hle) hlt)

/-- **Where the test holds** there is a spell. -/
theorem exists_isSpell (h : Holds p xs k) : ∃ i j, IsSpell p xs i j ∧ i ≤ k ∧ k < j := by
  classical
  have hstart : ∃ i, i ≤ k ∧ ∀ l, i ≤ l → l ≤ k → Holds p xs l :=
    ⟨k, le_rfl, fun l hl hl' => le_antisymm hl hl' ▸ h⟩
  have hend : ∃ j, k < j ∧ ¬ Holds p xs j := ⟨xs.length, h.lt, not_holds_length⟩
  refine ⟨Nat.find hstart, Nat.find hend, ⟨?_, ?_, ?_, (Nat.find_spec hend).2⟩, (Nat.find_spec hstart).1,
    (Nat.find_spec hend).1⟩
  · exact (Nat.find_spec hstart).1.trans_lt (Nat.find_spec hend).1
  · intro l hl hl'
    rcases le_or_gt l k with hle | hgt
    · exact (Nat.find_spec hstart).2 l hl hle
    · by_contra hnot
      exact Nat.find_min hend hl' ⟨hgt, hnot⟩
  · intro l hl hholds
    -- the start would have been one earlier
    have hle : l + 1 ≤ k := hl.symm ▸ (Nat.find_spec hstart).1
    apply Nat.find_min hstart (show l < Nat.find hstart by omega)
    refine ⟨by omega, fun m hm hm' => ?_⟩
    rcases hm.eq_or_lt with rfl | hlt
    · exact hholds
    · exact (Nat.find_spec hstart).2 m (by omega) hm'

/-! ## One more item -/

variable {a : α}

theorem holds_append_of_lt (hk : k < xs.length) : Holds p (xs ++ [a]) k ↔ Holds p xs k := by
  unfold Holds
  rw [List.getElem?_append_left hk]

theorem holds_append_length : Holds p (xs ++ [a]) xs.length ↔ p a = true := by
  simp [Holds]

/-- A spell that ended stays one, and a new item may let one that had not ended go on. -/
theorem isSpell_append (hj : j ≤ xs.length) :
    IsSpell p (xs ++ [a]) i j ↔ IsSpell p xs i j ∧ (j = xs.length → p a = false) := by
  have hsame : ∀ k, k < j → (Holds p (xs ++ [a]) k ↔ Holds p xs k) := fun k hk => holds_append_of_lt (hk.trans_le hj)
  have hafter : ¬ Holds p (xs ++ [a]) j ↔ ¬ Holds p xs j ∧ (j = xs.length → p a = false) := by
    rcases hj.eq_or_lt with rfl | hlt
    · simp [holds_append_length, not_holds_length]
    · simp [holds_append_of_lt hlt, hlt.ne]
  constructor
  · intro h
    have hwide := h.nonempty
    obtain ⟨hno, hlast⟩ := hafter.mp h.after
    refine ⟨⟨hwide, fun k hk hk' => (hsame k hk').mp (h.holds k hk hk'), fun k hk hholds => ?_, hno⟩, hlast⟩
    exact h.before k hk ((hsame k (by omega)).mpr hholds)
  · rintro ⟨h, hlast⟩
    have hwide := h.nonempty
    refine ⟨hwide, fun k hk hk' => (hsame k hk').mpr (h.holds k hk hk'), fun k hk hholds => ?_, hafter.mpr ⟨h.after, hlast⟩⟩
    exact h.before k hk ((hsame k (by omega)).mp hholds)

/-- A spell that had not ended goes on with an item that holds. -/
theorem isSpell_extend (h : IsSpell p xs i xs.length) (ha : p a = true) : IsSpell p (xs ++ [a]) i (xs.length + 1) := by
  have hwide := h.nonempty
  refine ⟨by omega, fun k hk hk' => ?_, fun k hk hholds => ?_, ?_⟩
  · rcases (Nat.lt_succ_iff.mp hk').eq_or_lt with rfl | hlt
    · exact holds_append_length.mpr ha
    · exact (holds_append_of_lt hlt).mpr (h.holds k hk hlt)
  · exact h.before k hk ((holds_append_of_lt (by omega)).mp hholds)
  · have hend : ¬ Holds p (xs ++ [a]) (xs ++ [a]).length := not_holds_length
    simpa using hend

/-- An item that holds after one that does not starts a spell. -/
theorem isSpell_single (hlast : ∀ k, k + 1 = xs.length → ¬ Holds p xs k) (ha : p a = true) :
    IsSpell p (xs ++ [a]) xs.length (xs.length + 1) := by
  refine ⟨Nat.lt_succ_self _, fun k hk hk' => ?_, fun k hk hholds => ?_, ?_⟩
  · obtain rfl : k = xs.length := by omega
    exact holds_append_length.mpr ha
  · exact hlast k hk ((holds_append_of_lt (by omega)).mp hholds)
  · have hend : ¬ Holds p (xs ++ [a]) (xs ++ [a]).length := not_holds_length
    simpa using hend

/-! ## The pass -/

variable (p) (start : α → β) (grow : β → α → β)

/-- A pass: the summary of the spell it is in, and those of the spells behind it. -/
structure Pass (β : Type*) where
  cur : Option β
  out : List β

/-- One item. -/
def Pass.step (s : Pass β) (a : α) : Pass β :=
  if p a then { s with cur := some (s.cur.elim (start a) fun b => grow b a) }
  else { cur := none, out := s.out ++ s.cur.toList }

/-- A pass over a list, and the summary that is left at its end. -/
def pass (xs : List α) : List β :=
  let s := xs.foldl (Pass.step p start grow) { cur := none, out := [] }
  s.out ++ s.cur.toList

/-- What the items from `i` to before `j` come to. -/
def stretch (xs : List α) (i j : ℕ) : Option β :=
  match (xs.take j).drop i with
  | [] => none
  | a :: as => some (as.foldl grow (start a))

variable {p start grow}

theorem stretch_append (hj : j ≤ xs.length) : stretch start grow (xs ++ [a]) i j = stretch start grow xs i j := by
  unfold stretch
  rw [List.take_append_of_le_length hj]

theorem stretch_extend {b : β} (hi : i < xs.length) (h : stretch start grow xs i xs.length = some b) :
    stretch start grow (xs ++ [a]) i (xs.length + 1) = some (grow b a) := by
  unfold stretch at h ⊢
  rw [List.take_length] at h
  rw [List.take_of_length_le (by simp), List.drop_append_of_le_length hi.le]
  cases hdrop : xs.drop i with
  | nil =>
      rw [hdrop] at h
      exact absurd h (by simp)
  | cons c cs =>
      rw [hdrop] at h
      simp only [List.cons_append, List.foldl_append, List.foldl_cons, List.foldl_nil]
      rw [Option.some.inj h]

theorem stretch_single : stretch start grow (xs ++ [a]) xs.length (xs.length + 1) = some (start a) := by
  unfold stretch
  rw [List.take_of_length_le (by simp), List.drop_left]
  rfl

/-- Where a pass stands after a list: the spells that ended, and the one that has not. -/
structure Walked (p : α → Bool) (start : α → β) (grow : β → α → β) (xs : List α) (s : Pass β) (bs : List (ℕ × ℕ)) : Prop where
  ended : ∀ i j, (i, j) ∈ bs ↔ IsSpell p xs i j ∧ j < xs.length
  apart : bs.Pairwise fun a b => a.2 < b.1
  out : List.Forall₂ (fun ij b => stretch start grow xs ij.1 ij.2 = some b) bs s.out
  cur_none : s.cur = none → ∀ k, k + 1 = xs.length → ¬ Holds p xs k
  cur_some : ∀ b, s.cur = some b → ∃ i, IsSpell p xs i xs.length ∧ stretch start grow xs i xs.length = some b

theorem Walked.nil : Walked p start grow ([] : List α) { cur := none, out := [] } [] := by
  refine ⟨fun i j => ?_, List.Pairwise.nil, List.Forall₂.nil, fun _ k hk => absurd hk (by simp), fun b hb => absurd hb (by simp)⟩
  simp

variable {s : Pass β} {bs : List (ℕ × ℕ)}

/-- What stretches come to, a new item does not change. -/
theorem stretches_append {bs : List (ℕ × ℕ)} {out : List β} (hle : ∀ ij ∈ bs, ij.2 ≤ xs.length)
    (h : List.Forall₂ (fun ij b => stretch start grow xs ij.1 ij.2 = some b) bs out) :
    List.Forall₂ (fun ij b => stretch start grow (xs ++ [a]) ij.1 ij.2 = some b) bs out := by
  apply ((List.forall₂_and_left _ _).mpr ⟨hle, h⟩).imp
  rintro ij b ⟨hij, hb⟩
  rw [stretch_append hij]
  exact hb

/-- The summary the pass holds goes to the end of those it put out. -/
theorem Walked.close (h : Walked p start grow xs s bs) :
    ∃ bs', (∀ i j, (i, j) ∈ bs' ↔ IsSpell p xs i j) ∧ (bs'.Pairwise fun a b => a.2 < b.1) ∧
      List.Forall₂ (fun ij b => stretch start grow xs ij.1 ij.2 = some b) bs' (s.out ++ s.cur.toList) := by
  cases hcur : s.cur with
  | none =>
      refine ⟨bs, fun i j => ?_, h.apart, by simpa using h.out⟩
      rw [h.ended, and_iff_left_iff_imp]
      intro hspell
      -- the last item does not hold
      refine lt_of_le_of_ne hspell.le ?_
      rintro rfl
      have hwide := hspell.nonempty
      exact h.cur_none hcur (xs.length - 1) (by omega) (hspell.holds _ (by omega) (by omega))
  | some b =>
      obtain ⟨i₀, hopen, hsum⟩ := h.cur_some b hcur
      refine ⟨bs ++ [(i₀, xs.length)], fun i j => ?_, ?_, ?_⟩
      · rw [List.mem_append, List.mem_singleton, h.ended]
        constructor
        · rintro (⟨hspell, -⟩ | heq)
          · exact hspell
          · obtain ⟨rfl, rfl⟩ := Prod.mk.inj heq
            exact hopen
        · intro hspell
          rcases hspell.le.eq_or_lt with rfl | hlt
          · exact Or.inr (by rw [hspell.start_unique hopen])
          · exact Or.inl ⟨hspell, hlt⟩
      · rw [List.pairwise_append]
        refine ⟨h.apart, List.pairwise_singleton _ _, ?_⟩
        rintro ⟨i, j⟩ hij b hb
        obtain rfl := List.mem_singleton.mp hb
        obtain ⟨hspell, hlt⟩ := (h.ended i j).mp hij
        exact hspell.lt_of_lt hopen hlt
      · exact List.rel_append h.out (List.Forall₂.cons hsum List.Forall₂.nil)

/-- **One more item** keeps the pass where it should be. -/
theorem Walked.step (h : Walked p start grow xs s bs) (a : α) :
    ∃ bs', Walked p start grow (xs ++ [a]) (s.step p start grow a) bs' := by
  unfold Pass.step
  cases ha : p a with
  | true =>
      refine ⟨bs, fun i j => ?_, h.apart, stretches_append (fun ij hij => ((h.ended ij.1 ij.2).mp hij).2.le) h.out,
        fun hcur => absurd hcur (by simp), fun b hb => ?_⟩
      · rw [h.ended, List.length_append, List.length_singleton]
        constructor
        · rintro ⟨hspell, hlt⟩
          exact ⟨(isSpell_append hlt.le).mpr ⟨hspell, fun heq => absurd heq hlt.ne⟩, by omega⟩
        · rintro ⟨hspell, hlt⟩
          obtain ⟨hspell, hend⟩ := (isSpell_append (Nat.lt_succ_iff.mp hlt)).mp hspell
          refine ⟨hspell, lt_of_le_of_ne hspell.le fun heq => ?_⟩
          rw [ha] at hend
          exact absurd (hend heq) (by simp)
      · rw [List.length_append, List.length_singleton]
        cases hcur : s.cur with
        | none =>
            rw [hcur] at hb
            obtain rfl := Option.some.inj hb
            exact ⟨xs.length, isSpell_single (h.cur_none hcur) ha, stretch_single⟩
        | some c =>
            rw [hcur] at hb
            obtain rfl := Option.some.inj hb
            obtain ⟨i, hopen, hsum⟩ := h.cur_some c hcur
            exact ⟨i, isSpell_extend hopen ha, stretch_extend hopen.nonempty hsum⟩
  | false =>
      obtain ⟨bs', hmem, hapart, hout⟩ := h.close
      refine ⟨bs', fun i j => ?_, hapart, stretches_append (fun ij hij => ((hmem ij.1 ij.2).mp hij).le) hout,
        fun _ k hk => ?_, fun b hb => absurd hb (by simp)⟩
      · rw [hmem, List.length_append, List.length_singleton]
        constructor
        · intro hspell
          exact ⟨(isSpell_append hspell.le).mpr ⟨hspell, fun _ => ha⟩, Nat.lt_succ_iff.mpr hspell.le⟩
        · rintro ⟨hspell, hlt⟩
          exact ((isSpell_append (Nat.lt_succ_iff.mp hlt)).mp hspell).1
      · rw [List.length_append, List.length_singleton, Nat.add_right_cancel_iff] at hk
        rw [hk, holds_append_length, ha]
        simp

/-- **A pass** leaves one summary for each spell, in order. -/
theorem pass_spells (p : α → Bool) (start : α → β) (grow : β → α → β) (xs : List α) :
    ∃ bs : List (ℕ × ℕ), (∀ i j, (i, j) ∈ bs ↔ IsSpell p xs i j) ∧ (bs.Pairwise fun a b => a.2 < b.1) ∧
      List.Forall₂ (fun ij b => stretch start grow xs ij.1 ij.2 = some b) bs (Spells.pass p start grow xs) := by
  have hwalked : ∃ bs, Walked p start grow xs (xs.foldl (Pass.step p start grow) { cur := none, out := [] }) bs := by
    induction xs using List.reverseRecOn with
    | nil => exact ⟨[], Walked.nil⟩
    | append_singleton xs a ih =>
        obtain ⟨bs, h⟩ := ih
        rw [List.foldl_append]
        exact h.step a
  obtain ⟨bs, h⟩ := hwalked
  exact h.close

/-- Each summary is of a spell. -/
theorem exists_left {R : α → β → Prop} {bs : List α} {out : List β} (h : List.Forall₂ R bs out) {b : β} (hb : b ∈ out) :
    ∃ a ∈ bs, R a b := by
  induction h with
  | nil => exact absurd hb List.not_mem_nil
  | cons hab _ ih =>
      rcases List.mem_cons.mp hb with rfl | hb
      · exact ⟨_, List.mem_cons_self, hab⟩
      · obtain ⟨a, ha, hr⟩ := ih hb
        exact ⟨a, List.mem_cons_of_mem _ ha, hr⟩

/-- Each spell has a summary. -/
theorem exists_right {R : α → β → Prop} {bs : List α} {out : List β} (h : List.Forall₂ R bs out) {a : α} (ha : a ∈ bs) :
    ∃ b ∈ out, R a b :=
  exists_left h.flip ha

/-! ## Stretches of one key -/

section Keyed

variable {κ : Type*} [DecidableEq κ] (key : α → κ)

/-- The longest stretches of one key. -/
def byKey (xs : List α) : List (List α) := xs.splitBy fun a b => decide (key a = key b)

theorem byKey_single (a : α) : byKey key [a] = [[a]] := List.splitBy_of_isChain (by simp) (by simp)

variable {key}

/-- An item of another key is a stretch of its own. -/
theorem byKey_append_ne (h : ∀ b ∈ xs.getLast?, key b ≠ key a) : byKey key (xs ++ [a]) = byKey key xs ++ [[a]] := by
  have hcut : ∀ b ∈ xs.getLast?, decide (key b = key a) = false := fun b hb => decide_eq_false (h b hb)
  calc byKey key (xs ++ [a]) = byKey key xs ++ byKey key [a] := List.splitBy_append_cons [] hcut
    _ = byKey key xs ++ [[a]] := by rw [byKey_single]

/-- An item of the last key goes to the last stretch. -/
theorem byKey_append_same {b : α} (hb : xs.getLast? = some b) (h : key b = key a) :
    ∃ gs g, byKey key xs = gs ++ [g] ∧ byKey key (xs ++ [a]) = gs ++ [g ++ [a]] := by
  have hne : byKey key xs ≠ [] := by
    unfold byKey
    rw [List.splitBy_ne_nil]
    rintro rfl
    exact absurd hb (by simp)
  obtain ⟨gs, g, hgs⟩ : ∃ gs g, byKey key xs = gs ++ [g] := ⟨_, _, (List.dropLast_append_getLast hne).symm⟩
  obtain ⟨hflat, hnil, hchain, hapart⟩ := List.splitBy_eq_iff.mp hgs
  have hg : g ≠ [] := fun hg => hnil (by simp [hg])
  have hlast : g.getLast hg = b := by
    rw [hflat, List.flatten_append, List.flatten_singleton, List.getLast?_append_of_ne_nil _ hg] at hb
    rw [List.getLast?_eq_some_getLast hg] at hb
    exact Option.some.inj hb
  refine ⟨gs, g, hgs, List.splitBy_eq_iff.mpr ⟨?_, ?_, ?_, ?_⟩⟩
  · rw [hflat]
    simp
  · simpa [hg] using hnil
  · intro m hm
    rcases List.mem_append.mp hm with hm | hm
    · exact hchain m (List.mem_append_left _ hm)
    · obtain rfl := List.mem_singleton.mp hm
      rw [List.isChain_append]
      refine ⟨hchain g (by simp), List.isChain_singleton _, fun x hx y hy => ?_⟩
      rw [List.getLast?_eq_some_getLast hg, hlast] at hx
      obtain rfl := Option.mem_some_iff.mp hx
      obtain rfl : a = y := by simpa using hy
      exact decide_eq_true h
  · rw [List.isChain_append] at hapart ⊢
    refine ⟨hapart.1, List.isChain_singleton _, fun x hx y hy => ?_⟩
    obtain rfl : g ++ [a] = y := by simpa using hy
    obtain ⟨hxne, hgne, hlt⟩ := hapart.2.2 x hx g (by simp)
    exact ⟨hxne, by simp, by rwa [List.head_append_of_ne_nil hg]⟩

variable (start : α → β) (grow : β → α → β)

/-- The summary of a stretch. -/
def summary : List α → Option β
  | [] => none
  | a :: as => some (as.foldl grow (start a))

variable (key)

/-- The summaries of the stretches that a later one follows. -/
def ended (xs : List α) : List β := (byKey key xs).dropLast.filterMap (summary start grow)

/-- The summary of the last stretch. -/
def current (xs : List α) : Option β := (byKey key xs).getLast?.bind (summary start grow)

variable {key start grow}

theorem ended_append_current :
    ended key start grow xs ++ (current key start grow xs).toList = (byKey key xs).filterMap (summary start grow) := by
  unfold ended current
  cases hlast : (byKey key xs).getLast? with
  | none =>
      rw [List.getLast?_eq_none_iff.mp hlast]
      rfl
  | some g =>
      obtain ⟨gs, hgs⟩ := List.getLast?_eq_some_iff.mp hlast
      rw [hgs, List.dropLast_concat, List.filterMap_append]
      cases hsum : summary start grow g with
      | none => simp [hsum]
      | some b => simp [hsum]

variable (start grow)

/-- **Another key** ends the last stretch and starts one. -/
theorem summaries_append_ne (h : ∀ b ∈ xs.getLast?, key b ≠ key a) :
    ended key start grow (xs ++ [a]) = ended key start grow xs ++ (current key start grow xs).toList ∧
      current key start grow (xs ++ [a]) = some (start a) := by
  rw [ended_append_current]
  unfold ended current
  rw [byKey_append_ne h, List.dropLast_concat, List.getLast?_concat]
  exact ⟨rfl, rfl⟩

/-- **The same key** grows the last stretch. -/
theorem summaries_append_same {b : α} (hb : xs.getLast? = some b) (h : key b = key a) :
    ended key start grow (xs ++ [a]) = ended key start grow xs ∧
      current key start grow (xs ++ [a]) = (current key start grow xs).map fun s => grow s a := by
  obtain ⟨gs, g, hgs, hgs'⟩ := byKey_append_same (a := a) hb h
  unfold ended current
  rw [hgs, hgs', List.dropLast_concat, List.dropLast_concat, List.getLast?_concat, List.getLast?_concat]
  refine ⟨rfl, ?_⟩
  cases g with
  | nil =>
      have hnil : [] ∉ byKey key xs := List.nil_notMem_splitBy _ xs
      rw [hgs] at hnil
      exact absurd (List.mem_append_right gs (List.mem_singleton_self [])) hnil
  | cons c cs => simp [summary]

end Keyed

end Spells
