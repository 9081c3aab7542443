import Lhre.Autonomy.LidarDetector
import Lhre.Autonomy.Correctness.ConeAssociation
import Lhre.Autonomy.Correctness.ConeSides
import Lhre.Theory.Confirmation

/-!
# `Autonomy.Correctness.LidarRuns` — runs of the cone detector

What is clustered is a window of scans, each once. A cone gets the side it is proposed first at the start, or else the first
one that is proposed often enough in a row, and keeps it until a restart. What the track builder reads is the map.

## Contents
- **Windows.** `lastOfEach`, `expire_concat`, `window`, `window_later`, `window_same`.
- **Labels.** `known`, `StableSideLabels.cell`, `updateOne_cell`, `update_ok`.
- **Markers.** `Shows`, `Shows.cone`, `shows_published`.
- **Runs.** `Sound`, `Sided`, `updateSide_ok`, `process_ok`, `processAll_ok`.
- **Main results.** `stacked_scans`, `sides_confirmed`, `builder_has_map`.
-/

namespace Lhre.Autonomy.Lidar

open ConeMap ConeSides

variable {K : Type} [Field K] [LinearOrder K] {p : DetectorParams K} {lib : DetectorLibraries K}

/-! ## The window -/

section Window

variable {P : Type}

/-- The last item of each time. -/
def lastOfEach : List (ℤ × P) → List (ℤ × P)
  | [] => []
  | e :: es => if es.any fun e' => decide (e'.1 = e.1) then lastOfEach es else e :: lastOfEach es

/-- One more item takes the place of the one of its time. -/
theorem lastOfEach_concat (es : List (ℤ × P)) (e' : ℤ × P) :
    lastOfEach (es ++ [e']) = (lastOfEach es).filter (fun e => decide (e.1 ≠ e'.1)) ++ [e'] := by
  induction es with
  | nil => rfl
  | cons e es ih =>
      have hany : (es ++ [e']).any (fun x => decide (x.1 = e.1)) =
          (es.any (fun x => decide (x.1 = e.1)) || decide (e'.1 = e.1)) := by simp
      rw [List.cons_append, lastOfEach, hany, ih, lastOfEach]
      by_cases hlater : es.any (fun x => decide (x.1 = e.1)) = true
      · rw [if_pos (by simp [hlater]), if_pos hlater]
      · rw [if_neg hlater]
        by_cases hsame : e.1 = e'.1
        · rw [if_pos (by simp [hsame]), List.filter_cons_of_neg (by simp [hsame])]
        · rw [if_neg (by simp [hlater, Ne.symm hsame]), List.filter_cons_of_pos (by simp [hsame]), List.cons_append]

/-- The last item is never removed, and of the others those from before the window that come first are. -/
theorem expire_concat (oldest : ℤ) (es : List (ℤ × P)) (e : ℤ × P) :
    expire oldest (es ++ [e]) = es.dropWhile (fun x => decide (x.1 ≤ oldest)) ++ [e] := by
  induction es with
  | nil => rfl
  | cons x es ih =>
      rw [List.dropWhile_cons]
      cases es with
      | nil =>
          show expire oldest [x, e] = _
          unfold expire
          by_cases h : x.1 ≤ oldest
          · simp [h, expire]
          · simp [h]
      | cons y es =>
          show expire oldest (x :: y :: (es ++ [e])) = _
          unfold expire
          by_cases h : x.1 ≤ oldest
          · rw [if_pos h, if_pos (decide_eq_true h)]
            exact ih
          · rw [if_neg h, if_neg (by simpa using h)]
            rfl

/-- The items of a window: the newest one, and of those before it the last ones that are late enough. -/
def window (oldest : ℤ) (frames : ℕ) (es : List (ℤ × P)) (newest : ℤ × P) : List (ℤ × P) :=
  (es.filter fun e => decide (oldest < e.1)).rtake (frames - 1) ++ [newest]

theorem rtake_rtake (es : List (ℤ × P)) {m n : ℕ} (h : m ≤ n) : (es.rtake n).rtake m = es.rtake m := by
  simp only [List.rtake_eq_reverse_take_reverse, List.reverse_reverse, List.take_take, min_eq_left h]

theorem rtake_sublist (es : List (ℤ × P)) (n : ℕ) : (es.rtake n).Sublist es := by
  rw [List.rtake]
  exact List.drop_sublist _ _

/-- In the order of the times, what is before a window comes first. -/
theorem dropWhile_eq_filter {es : List (ℤ × P)} (h : es.Pairwise fun a b => a.1 ≤ b.1) (oldest : ℤ) :
    es.dropWhile (fun x => decide (x.1 ≤ oldest)) = es.filter fun e => decide (oldest < e.1) := by
  induction es with
  | nil => rfl
  | cons e es ih =>
      obtain ⟨hfirst, hrest⟩ := List.pairwise_cons.mp h
      rw [List.dropWhile_cons, List.filter_cons]
      by_cases hle : e.1 ≤ oldest
      · rw [if_pos (decide_eq_true hle), if_neg (by simpa using hle)]
        exact ih hrest
      · rw [if_neg (by simpa using hle), if_pos (by simpa using hle)]
        have hall : es.filter (fun e => decide (oldest < e.1)) = es := by
          apply List.filter_eq_self.mpr
          intro x hx
          exact decide_eq_true ((not_le.mp hle).trans_le (hfirst x hx))
        rw [hall]

/-- The last items of a list and those that are late enough, taken in either order. -/
theorem filter_rtake {es : List (ℤ × P)} (h : es.Pairwise fun a b => a.1 ≤ b.1) (oldest : ℤ) (n : ℕ) :
    (es.rtake n).filter (fun e => decide (oldest < e.1)) = (es.filter fun e => decide (oldest < e.1)).rtake n := by
  induction es using List.reverseRecOn generalizing n with
  | nil => simp
  | append_singleton es e ih =>
      obtain ⟨hrest, -, hlast⟩ := List.pairwise_append.mp h
      cases n with
      | zero => simp
      | succ n =>
          rw [List.rtake_concat_succ, List.filter_append, List.filter_append, ih hrest]
          by_cases hlt : oldest < e.1
          · rw [List.filter_singleton, decide_eq_true hlt, cond_true, List.rtake_concat_succ]
          · have hnone : es.filter (fun e => decide (oldest < e.1)) = [] := by
              apply List.filter_eq_nil_iff.mpr
              intro x hx hlate
              exact hlt ((of_decide_eq_true hlate).trans_le (hlast x hx e List.mem_cons_self))
            rw [hnone, List.filter_singleton, decide_eq_false hlt]
            simp

/-- What is later than a later bound. -/
theorem filter_filter_of_le (es : List (ℤ × P)) {oldest oldest' : ℤ} (h : oldest ≤ oldest') :
    (es.filter fun e => decide (oldest < e.1)).filter (fun e => decide (oldest' < e.1)) =
      es.filter fun e => decide (oldest' < e.1) := by
  rw [List.filter_filter]
  apply List.filter_congr
  intro e _
  by_cases hlt : oldest' < e.1
  · simp [hlt, h.trans_lt hlt]
  · simp [hlt]

/-- **A scan of a later time** moves the window on. -/
theorem window_later {es : List (ℤ × P)} (hsorted : es.Pairwise fun a b => a.1 ≤ b.1) {newest next : ℤ × P}
    (hlast : ∀ e ∈ es, e.1 ≤ newest.1) (span : ℤ) (hlater : newest.1 ≤ next.1) {frames : ℕ} (hpos : 0 < frames) :
    expire (next.1 - span) ((window (newest.1 - span) frames es newest ++ [next]).rtake frames) =
      window (next.1 - span) frames (es ++ [newest]) next := by
  obtain ⟨n, rfl⟩ := Nat.exists_eq_succ_of_ne_zero hpos.ne'
  have hle : newest.1 - span ≤ next.1 - span := by omega
  have hkept : (window (newest.1 - span) (n + 1) es newest).Pairwise fun a b => a.1 ≤ b.1 := by
    have hsub : (window (newest.1 - span) (n + 1) es newest).Sublist (es ++ [newest]) :=
      ((rtake_sublist _ _).trans List.filter_sublist).append_right _
    refine List.Pairwise.sublist hsub (List.pairwise_append.mpr ⟨hsorted, List.pairwise_singleton _ _, ?_⟩)
    intro e he x hx
    obtain rfl := List.mem_singleton.mp hx
    exact hlast e he
  rw [Nat.succ_eq_add_one, List.rtake_concat_succ, expire_concat, dropWhile_eq_filter (hkept.sublist (rtake_sublist _ _)),
    filter_rtake hkept]
  unfold window
  rw [Nat.add_sub_cancel, List.filter_append, List.filter_append, filter_rtake (hsorted.sublist List.filter_sublist),
    filter_filter_of_le es hle]
  congr 1
  by_cases hlt : next.1 - span < newest.1
  · rw [List.filter_singleton, decide_eq_true hlt, cond_true]
    cases n with
    | zero => simp
    | succ n => rw [List.rtake_concat_succ, List.rtake_concat_succ, rtake_rtake _ (Nat.le_succ n)]
  · have hnone : es.filter (fun e => decide (next.1 - span < e.1)) = [] := by
      apply List.filter_eq_nil_iff.mpr
      intro e he hlate
      exact hlt ((of_decide_eq_true hlate).trans_le (hlast e he))
    rw [hnone, List.filter_singleton, decide_eq_false hlt]
    simp

/-- **A scan of the same time** takes the place of the newest. -/
theorem window_same (es : List (ℤ × P)) {newest next : ℤ × P} (span : ℤ) (hsame : newest.1 = next.1) {frames : ℕ}
    (hpos : 0 < frames) :
    expire (next.1 - span) (((window (newest.1 - span) frames es newest).dropLast ++ [next]).rtake frames) =
      window (next.1 - span) frames es next := by
  obtain ⟨n, rfl⟩ := Nat.exists_eq_succ_of_ne_zero hpos.ne'
  unfold window
  rw [List.dropLast_concat, Nat.succ_eq_add_one, List.rtake_concat_succ, Nat.add_sub_cancel, rtake_rtake _ le_rfl,
    expire_concat, hsame]
  congr 1
  apply List.dropWhile_eq_self_iff.mpr
  intro hne
  have hmem := (rtake_sublist _ n).subset (List.getElem_mem hne)
  simpa using (List.mem_filter.mp hmem).2

end Window

/-! ## Labels -/

/-- A side that is known. -/
def known (side : ℤ) : Option ℤ := if side = 0 then none else some side

@[simp] theorem known_zero : known 0 = none := rfl

theorem known_of_ne {side : ℤ} (h : side ≠ 0) : known side = some side := if_neg h

theorem known_eq_some {side a : ℤ} : known side = some a ↔ side = a ∧ a ≠ 0 := by
  unfold known
  split <;> grind

/-- What the labels keep of a cone. -/
def StableSideLabels.cell (s : StableSideLabels) (i : ℕ) : Confirmation.State ℤ where
  label := known (s.labels.getD i 0)
  pending := known (s.pending.getD i 0)
  count := s.counts.getD i 0

/-- All cones up to a number have their places. -/
structure StableSideLabels.Sized (s : StableSideLabels) (size : ℕ) : Prop where
  labels : s.labels.length = size
  pending : s.pending.length = size
  counts : s.counts.length = size

/-- One proposal for a cone. -/
def propose (n : ℕ) (seed : Bool) (c : Confirmation.State ℤ) (side : Option ℤ) : Confirmation.State ℤ :=
  if seed then { c with label := c.label.or side } else Confirmation.step n c side

theorem getD_append_zeros {α : Type} [Zero α] (l : List α) (k i : ℕ) : (l ++ List.replicate k 0).getD i 0 = l.getD i 0 := by
  rcases lt_or_ge i l.length with hlt | hge
  · rw [List.getD_append _ _ _ _ hlt]
  · rw [List.getD_append_right _ _ _ _ hge, List.getD_eq_default _ _ hge]
    rcases lt_or_ge (i - l.length) k with hlt | hge'
    · rw [List.getD_replicate _ hlt]
    · exact List.getD_eq_default _ _ (by simpa using hge')

/-- New cones start without a label. -/
theorem labelsFor_ok {s : StableSideLabels} {n size : ℕ} (hs : s.Sized n) (hle : n ≤ size) :
    ∃ s', s.labelsFor size = .ok s' ∧ s'.Sized size ∧ s'.confirmations = s.confirmations ∧ ∀ i, s'.cell i = s.cell i := by
  unfold StableSideLabels.labelsFor
  rw [if_neg (by rw [hs.labels]; omega)]
  refine ⟨_, rfl, ⟨?_, ?_, ?_⟩, rfl, fun i => ?_⟩
  · simp [hs.labels, hle]
  · simp [hs.labels, hs.pending, hle]
  · simp [hs.labels, hs.counts, hle]
  · simp only [StableSideLabels.cell, getD_append_zeros]

theorem getD_set {α : Type} (l : List α) (j i : ℕ) (a d : α) (hj : j < l.length) :
    (l.set j a).getD i d = if j = i then a else l.getD i d := by
  simp only [List.getD_eq_getElem?_getD, List.getElem?_set]
  split
  · rename_i heq
    subst heq
    simp
  · rfl

/-- A cone that has a label keeps it, and a proposal without a side does nothing. -/
theorem propose_skip {n : ℕ} {seed : Bool} {c : Confirmation.State ℤ} {side : Option ℤ} (h : c.label ≠ none ∨ side = none) :
    propose n seed c side = c := by
  unfold propose Confirmation.step
  cases hlabel : c.label with
  | none =>
      obtain rfl := h.resolve_left (not_not.mpr hlabel)
      cases seed
      · rfl
      · simp [← hlabel]
  | some a =>
      cases seed
      · cases side <;> simp
      · have hor : (some a).or side = c.label := hlabel.symm
        simp only [if_true]
        rw [hor]

/-- What a proposal does to a cone without a label. -/
theorem updateOne_free {s : StableSideLabels} {size j : ℕ} (hs : s.Sized size) (hj : j < size) {side : ℤ} (hside : side ≠ 0)
    (hfree : s.labels.getD j 0 = 0) :
    let count := if side = s.pending.getD j 0 then s.counts.getD j 0 + 1 else 1
    s.updateOne false j side =
      { s with
        labels := if s.confirmations ≤ count then s.labels.set j side else s.labels
        pending := s.pending.set j side, counts := s.counts.set j count } := by
  intro count
  have hcount : ∀ c, (s.counts.set j c).getD j 0 = c := fun c => by rw [getD_set _ _ _ _ _ (hs.counts ▸ hj), if_pos rfl]
  have hlabel : ¬ (s.labels.getD j 0 ≠ 0 ∨ side = 0) := not_or.mpr ⟨not_not.mpr hfree, hside⟩
  unfold StableSideLabels.updateOne
  rw [if_neg hlabel, if_neg Bool.false_ne_true]
  by_cases hsame : side = s.pending.getD j 0
  · have hset : s.pending.set j side = s.pending := by
      have hlt : j < s.pending.length := hs.pending ▸ hj
      rw [hsame, List.getD_eq_getElem _ _ hlt]
      exact List.set_getElem_self hlt
    have hc : count = s.counts.getD j 0 + 1 := if_pos hsame
    rw [if_pos hsame, hset, hc]
    dsimp only
    rw [hcount]
    split <;> rfl
  · have hc : count = 1 := if_neg hsame
    rw [if_neg hsame, hc]
    dsimp only
    rw [hcount]
    split <;> rfl

/-- **One proposal** changes the cone it is for, and no other. -/
theorem updateOne_cell {s : StableSideLabels} {size j : ℕ} (hs : s.Sized size) (hj : j < size) (seed : Bool) (side : ℤ) :
    (s.updateOne seed j side).Sized size ∧ (s.updateOne seed j side).confirmations = s.confirmations ∧
      ∀ i, (s.updateOne seed j side).cell i =
        if j = i then propose s.confirmations seed (s.cell i) (known side) else s.cell i := by
  by_cases hskip : s.labels.getD j 0 ≠ 0 ∨ side = 0
  · have hkeep : s.updateOne seed j side = s := by
      unfold StableSideLabels.updateOne
      rw [if_pos hskip]
    rw [hkeep]
    refine ⟨hs, rfl, fun i => ?_⟩
    split
    · rename_i heq
      subst heq
      rw [propose_skip]
      rcases hskip with hne | rfl
      · refine Or.inl ?_
        show known (s.labels.getD j 0) ≠ none
        rw [known_of_ne hne]
        exact Option.some_ne_none _
      · exact Or.inr rfl
    · rfl
  · obtain ⟨hzero, hside⟩ := not_or.mp hskip
    have hfree : s.labels.getD j 0 = 0 := not_not.mp hzero
    cases seed with
    | true =>
        unfold StableSideLabels.updateOne
        rw [if_neg hskip, if_pos rfl]
        refine ⟨⟨by simp [hs.labels], hs.pending, hs.counts⟩, rfl, fun i => ?_⟩
        unfold StableSideLabels.cell
        dsimp only
        rw [getD_set _ _ _ _ _ (hs.labels ▸ hj)]
        split
        · rename_i heq
          subst heq
          rw [hfree]
          rfl
        · rfl
    | false =>
        obtain ⟨count, hcount, hupdate⟩ : ∃ count, count = (if side = s.pending.getD j 0 then s.counts.getD j 0 + 1 else 1) ∧
            s.updateOne false j side =
              { s with
                labels := if s.confirmations ≤ count then s.labels.set j side else s.labels
                pending := s.pending.set j side, counts := s.counts.set j count } :=
          ⟨_, rfl, updateOne_free hs hj hside hfree⟩
        have hlabels : (if s.confirmations ≤ count then s.labels.set j side else s.labels).length = size := by
          split
          · rw [List.length_set, hs.labels]
          · exact hs.labels
        rw [hupdate]
        refine ⟨⟨hlabels, by simp [hs.pending], by simp [hs.counts]⟩, rfl, fun i => ?_⟩
        unfold StableSideLabels.cell
        dsimp only
        rw [getD_set _ _ _ _ _ (hs.pending ▸ hj), getD_set _ _ _ _ _ (hs.counts ▸ hj)]
        by_cases heq : j = i
        · subst heq
          have hpending : known (s.pending.getD j 0) = some side ↔ side = s.pending.getD j 0 := by
            rw [known_eq_some, eq_comm, and_iff_left hside]
          have hstep : propose s.confirmations false
              { label := known (s.labels.getD j 0), pending := known (s.pending.getD j 0), count := s.counts.getD j 0 }
              (known side) = { label := if s.confirmations ≤ count then some side else none, pending := some side
                               count := count } := by
            rw [known_of_ne hside, hfree, hcount]
            unfold propose Confirmation.step
            simp only [hpending, known_zero, Option.isSome_none, Bool.false_eq_true, if_false]
          rw [if_pos rfl, if_pos rfl, if_pos rfl, hstep, known_of_ne hside]
          congr 1
          split
          · rw [getD_set _ _ _ _ _ (hs.labels ▸ hj), if_pos rfl, known_of_ne hside]
          · rw [hfree, known_zero]
        · rw [if_neg heq, if_neg heq, if_neg heq]
          congr 2
          split
          · rw [getD_set _ _ _ _ _ (hs.labels ▸ hj), if_neg heq]
          · rfl

/-- **A round of proposals**, one for each cone. -/
theorem update_ok {s : StableSideLabels} {n : ℕ} (hs : s.Sized n) {proposed : List ℤ} (hle : n ≤ proposed.length) (seed : Bool) :
    ∃ s', s.update proposed seed = .ok s' ∧ s'.Sized proposed.length ∧ s'.confirmations = s.confirmations ∧
      ∀ i, s'.cell i = propose s.confirmations seed (s.cell i) (known (proposed.getD i 0)) := by
  obtain ⟨s₀, hresize, hsized, hconf, hcell⟩ := labelsFor_ok hs hle
  have hloop : ∀ sides : List ℤ, sides.length ≤ proposed.length →
      let s' := sides.zipIdx.foldl (fun (s : StableSideLabels) (e : ℤ × ℕ) => s.updateOne seed e.2 e.1) s₀
      s'.Sized proposed.length ∧ s'.confirmations = s₀.confirmations ∧
        ∀ i, s'.cell i = propose s₀.confirmations seed (s₀.cell i) (known (sides.getD i 0)) := by
    intro sides
    induction sides using List.reverseRecOn with
    | nil =>
        intro _
        refine ⟨hsized, rfl, fun i => ?_⟩
        rw [propose_skip (Or.inr (by simp))]
        rfl
    | append_singleton sides side ih =>
        intro hlen
        rw [List.length_append, List.length_singleton] at hlen
        obtain ⟨hsized', hconf', hcell'⟩ := ih (by omega)
        dsimp only
        rw [List.zipIdx_append, List.foldl_append]
        obtain ⟨hone, honeconf, honecell⟩ := updateOne_cell hsized' (show sides.length < proposed.length by omega) seed side
        simp only [List.zipIdx_singleton, List.foldl_cons, List.foldl_nil, Nat.zero_add]
        refine ⟨hone, honeconf.trans hconf', fun i => ?_⟩
        rw [honecell, hconf', hcell']
        rcases lt_trichotomy i sides.length with hlt | rfl | hgt
        · rw [if_neg hlt.ne', List.getD_append _ _ _ _ hlt]
        · rw [if_pos rfl, List.getD_eq_default _ _ le_rfl, known_zero, propose_skip (Or.inr rfl),
            List.getD_append_right _ _ _ _ le_rfl, Nat.sub_self]
          rfl
        · rw [if_neg hgt.ne, List.getD_eq_default _ _ hgt.le, List.getD_eq_default _ _ (by simp; omega)]
  obtain ⟨hsized', hconf', hcell'⟩ := hloop proposed le_rfl
  refine ⟨_, ?_, hsized', hconf'.trans hconf, fun i => ?_⟩
  · unfold StableSideLabels.update
    rw [hresize]
    rfl
  · rw [hcell' i, hconf, hcell i]

/-! ## The markers -/

/-- Where an entry is. -/
def placeOf (entry : Entry K) : K × K := (entry.x, entry.y)

/-- Some cones of the builder are those of a map whose sides pass a test. -/
def ShowsSide (test : ℤ → Bool) (cones : Dict ℕ (K × K)) (sided : List (Entry K × ℤ)) : Prop :=
  ∀ i, cones.get? i = (sided[i]?.filter fun e => test e.2).map fun e => placeOf e.1

/-- All of them are. -/
structure Shows (cones : TrackCones K) (sided : List (Entry K × ℤ)) : Prop where
  left : ShowsSide (fun side => decide (side = 1)) cones.left sided
  right : ShowsSide (fun side => decide (side = -1)) cones.right sided
  unknown : ShowsSide (fun side => decide (side ≠ 1 ∧ side ≠ -1)) cones.unknown sided

theorem getElem?_concat {α : Type} (l : List α) (a : α) (i : ℕ) :
    (l ++ [a])[i]? = if i = l.length then some a else l[i]? := by
  rcases lt_trichotomy i l.length with hlt | rfl | hgt
  · rw [if_neg hlt.ne, List.getElem?_append_left hlt]
  · simp
  · rw [if_neg hgt.ne', List.getElem?_eq_none (by simp; omega), List.getElem?_eq_none hgt.le]

variable {test : ℤ → Bool} {cones : Dict ℕ (K × K)} {sided : List (Entry K × ℤ)} {entry : Entry K} {side : ℤ}

omit [Field K] [LinearOrder K] in
theorem ShowsSide.add (h : ShowsSide test cones sided) (htest : test side = true) :
    ShowsSide test (cones.set sided.length (placeOf entry)) (sided ++ [(entry, side)]) := by
  intro i
  rw [Dict.get?_set, getElem?_concat, h i]
  split
  · simp [htest]
  · rfl

omit [Field K] [LinearOrder K] in
theorem ShowsSide.skip (h : ShowsSide test cones sided) (htest : test side = false) :
    ShowsSide test cones (sided ++ [(entry, side)]) := by
  intro i
  rw [getElem?_concat, h i]
  split
  · rename_i heq
    subst heq
    simp [htest]
  · rfl

omit [LinearOrder K] in
/-- **The markers of one more cone.** -/
theorem Shows.cone {cones : TrackCones K} (h : Shows cones sided) (published : List String) :
    Shows ((coneMarkers published sided.length entry side).foldl TrackCones.read cones) (sided ++ [(entry, side)]) := by
  -- a marker that deletes is not read
  have hadd : (coneMarkers published sided.length entry side).foldl TrackCones.read cones =
      cones.read { action := .add, ns := markerStyle side, id := sided.length, position := placeOf entry } := by
    unfold coneMarkers
    rw [List.foldl_append]
    split
    · split <;> rfl
    · rfl
  rw [hadd]
  unfold TrackCones.read
  rw [if_neg (by simp)]
  by_cases hleft : side = 1
  · subst hleft
    exact ⟨h.left.add rfl, h.right.skip rfl, h.unknown.skip rfl⟩
  · by_cases hright : side = -1
    · subst hright
      exact ⟨h.left.skip rfl, h.right.add rfl, h.unknown.skip rfl⟩
    · have hstyle : markerStyle side = "cones" := by
        unfold markerStyle
        rw [if_neg hleft, if_neg hright]
      rw [if_neg (by simp [hstyle]), if_neg (by simp [hstyle]), if_pos hstyle]
      exact ⟨h.left.skip (by simpa using hleft), h.right.skip (by simpa using hright),
        h.unknown.add (by simpa using ⟨hleft, hright⟩)⟩

omit [LinearOrder K] in
/-- **What is published** shows the whole map. -/
theorem shows_published (published : List String) (sided : List (Entry K × ℤ)) :
    Shows (conesCb (sided.zipIdx.flatMap fun ((entry, side), i) => coneMarkers published i entry side)) sided := by
  induction sided using List.reverseRecOn with
  | nil => exact ⟨fun i => rfl, fun i => rfl, fun i => rfl⟩
  | append_singleton sided e ih =>
      unfold conesCb at ih ⊢
      rw [List.zipIdx_append, List.flatMap_append, List.foldl_append]
      simp only [List.zipIdx_singleton, List.flatMap_cons, List.flatMap_nil, List.append_nil, Nat.zero_add]
      exact ih.cone published

/-! ## Runs -/

/-- The sides proposed for a cone, in order. -/
def proposedFor (proposals : List (Pose2D K × List ℤ)) (i : ℕ) : List (Option ℤ) :=
  proposals.map fun e => known (e.2.getD i 0)

/-- What the labels keep of a cone: the first proposal is taken as it is. -/
def expected (n : ℕ) : List (Option ℤ) → Confirmation.State ℤ
  | [] => {}
  | first :: rest => Confirmation.run n { label := first } rest

theorem propose_expected (n : ℕ) (sides : List (Option ℤ)) (side : Option ℤ) :
    propose n sides.isEmpty (expected n sides) side = expected n (sides ++ [side]) := by
  cases sides with
  | nil => rfl
  | cons first rest =>
      show Confirmation.step n (Confirmation.run n { label := first } rest) side = Confirmation.run n _ (rest ++ [side])
      rw [Confirmation.run, Confirmation.run, List.foldl_append]
      rfl

variable (p lib) in
/-- What holds of the detector between two scans, but for the labels it shows. -/
structure Sound (s : LidarConeDetector K) : Prop where
  confirmations : s.stableSides.confirmations = p.sideConfirmations
  sized : ∃ n ≤ s.coneMap.length, s.stableSides.Sized n
  votes : s.sideVotes.length ≤ s.coneMap.length
  cells : ∀ i, s.stableSides.cell i = expected p.sideConfirmations (proposedFor s.proposals i)
  seeded : s.seededSides = !s.proposals.isEmpty
  pose : s.lastSidePose = s.proposals.getLast?.map Prod.fst
  spaced : (s.proposals.map Prod.fst).IsChain fun a b => ¬ lib.hypot (b.x - a.x) (b.y - a.y) < p.sideUpdateDistance

variable (p) in
/-- The labels it shows. -/
structure Sided (s : LidarConeDetector K) : Prop where
  unknown : p.classifySides = false → s.coneSides = List.replicate s.coneMap.length 0
  labels : p.classifySides = true → s.coneSides = s.stableSides.labels
  length : s.coneSides.length = s.coneMap.length

theorem Sound.init : Sound p lib (LidarConeDetector.init p) where
  confirmations := rfl
  sized := ⟨0, le_rfl, rfl, rfl, rfl⟩
  votes := le_rfl
  cells := fun _ => rfl
  seeded := rfl
  pose := rfl
  spaced := List.isChain_nil

variable {s : LidarConeDetector K}

/-- **The sides** after a scan: the labels have a place for each cone, and a proposal comes only far enough from the last. -/
theorem updateSide_ok (hrange : InRange lib.sides.delaunay) (hiterate : ∀ edges, (lib.iterate edges).Perm edges)
    (h : Sound p lib s) (pose : Pose2D K) :
    ∃ s', s.updateSideClassification p lib pose = .ok s' ∧ Sound p lib s' ∧ Sided p s' ∧ s'.coneMap = s.coneMap ∧
      s'.scanHistory = s.scanHistory ∧ s'.lastScanNs = s.lastScanNs ∧ ∃ more, s'.proposals = s.proposals ++ more := by
  unfold LidarConeDetector.updateSideClassification
  by_cases hclassify : p.classifySides = false
  · rw [if_pos hclassify]
    refine ⟨_, rfl, ⟨h.confirmations, h.sized, h.votes, h.cells, h.seeded, h.pose, h.spaced⟩, ⟨fun _ => rfl, ?_, by simp⟩,
      rfl, rfl, rfl, [], (List.append_nil _).symm⟩
    intro htrue
    rw [hclassify] at htrue
    exact absurd htrue Bool.false_ne_true
  · rw [if_neg hclassify]
    obtain ⟨n, hn, hsized⟩ := h.sized
    obtain ⟨stable, hresize, hsized', hconf, hcell⟩ := labelsFor_ok hsized hn
    rw [hresize]
    dsimp only [bind, Except.bind]
    have hvotes : (s.sideVotes ++ List.replicate (s.coneMap.length - s.sideVotes.length) (0 : K)).length = s.coneMap.length := by
      have hle := h.votes
      simp
      omega
    split
    · refine ⟨_, rfl, ⟨hconf.trans h.confirmations, ⟨_, le_rfl, hsized'⟩, hvotes.le, fun i => (hcell i).trans (h.cells i), h.seeded,
        h.pose, h.spaced⟩, ⟨fun hfalse => absurd hfalse hclassify, fun _ => rfl, hsized'.labels⟩, rfl, rfl, rfl, [],
        (List.append_nil _).symm⟩
    · rename_i hfar
      generalize hadded : List.zipWith (fun vote (entry : Entry K) => vote + sideVote p lib entry.x entry.y pose)
        (s.sideVotes ++ List.replicate (s.coneMap.length - s.sideVotes.length) 0) s.coneMap = added
      have hlen : added.length = s.coneMap.length := by
        rw [← hadded, List.length_zipWith, hvotes, min_self]
      have hplaces : (s.coneMap.map fun entry => (entry.x, entry.y)).length = added.length := by
        rw [List.length_map, hlen]
      obtain ⟨labels, hlabels, hcount⟩ : ∃ labels, classifyConeSides lib.sides lib.iterate p.boundary
          (s.coneMap.map fun entry => (entry.x, entry.y)) added = .ok labels ∧ labels.length = s.coneMap.length := by
        refine ⟨_, classifyBy_eq hrange hiterate bySize hplaces, ?_⟩
        simp [componentLabels, hlen]
      rw [hlabels]
      dsimp only
      obtain ⟨stable', hupdate, hsized'', hconf', hcell'⟩ := update_ok hsized' hcount.ge (!s.seededSides)
      rw [hupdate]
      dsimp only
      rw [hcount] at hsized''
      refine ⟨_, rfl, ⟨?_, ⟨_, le_rfl, hsized''⟩, hlen.le, fun i => ?_, ?_, ?_, ?_⟩,
        ⟨fun hfalse => absurd hfalse hclassify, fun _ => rfl, hsized''.labels⟩, rfl, rfl, rfl, _, rfl⟩
      · exact (hconf'.trans hconf).trans h.confirmations
      · show stable'.cell i = expected p.sideConfirmations (proposedFor (s.proposals ++ [(pose, labels)]) i)
        have hempty : (proposedFor s.proposals i).isEmpty = !s.seededSides := by
          rw [h.seeded, Bool.not_not]
          cases s.proposals <;> rfl
        rw [hcell' i, hconf, hcell i, h.confirmations, h.cells i, ← hempty, propose_expected]
        simp [proposedFor]
      · simp
      · simp
      · rw [List.map_append, List.isChain_append]
        refine ⟨h.spaced, List.isChain_singleton _, fun a ha b hb => ?_⟩
        obtain rfl : pose = b := by simpa using hb
        have hlast : s.lastSidePose = some a := by
          rw [h.pose, ← List.getLast?_map]
          exact ha
        intro hnear
        apply hfar
        rw [hlast]
        exact decide_eq_true hnear

/-- A map does not get shorter. -/
theorem length_updateConeMap (detections : List (K × K)) (coneMap : List (Entry K)) (radius : K) :
    coneMap.length ≤ (updateConeMap detections coneMap radius).1.length := by
  rw [updateConeMap_eq, List.length_append, length_absorbAll]
  exact Nat.le_add_right _ _

omit [Field K] [LinearOrder K] in
theorem restart_iff (s : LidarConeDetector K) (stampNs : ℤ) :
    (s.lastScanNs.any fun last => decide (stampNs < last)) = true ↔ ∃ last, s.lastScanNs = some last ∧ stampNs < last := by
  cases s.lastScanNs <;> simp

/-- A scan keeps what is known of the sides, unless the detector starts anew. -/
theorem Sound.stackScan (h : Sound p lib s) (stampNs : ℤ) (points : List (K × K × K)) :
    Sound p lib (s.stackScan p stampNs points).1 ∧
      ((∀ last, s.lastScanNs = some last → last ≤ stampNs) → (s.stackScan p stampNs points).1.proposals = s.proposals) := by
  unfold LidarConeDetector.stackScan
  dsimp only
  by_cases hrestart : (s.lastScanNs.any fun last => decide (stampNs < last)) = true
  · rw [if_pos hrestart]
    refine ⟨?_, fun hlater => ?_⟩
    · split <;> exact ⟨rfl, ⟨0, Nat.zero_le _, rfl, rfl, rfl⟩, Nat.zero_le _, fun _ => rfl, rfl, rfl, List.isChain_nil⟩
    · obtain ⟨last, hlast, hlt⟩ := (restart_iff s stampNs).mp hrestart
      exact absurd (hlater last hlast) (not_le.mpr hlt)
  · rw [if_neg hrestart]
    refine ⟨?_, fun _ => ?_⟩
    · split <;> exact ⟨h.confirmations, h.sized, h.votes, h.cells, h.seeded, h.pose, h.spaced⟩
    · split <;> rfl

omit [LinearOrder K] in
/-- What a scan publishes shows the map it leaves. -/
theorem published_shows (hne : s.coneMap ≠ []) :
    ∃ msg, s.publishAccumulated.2 = some msg ∧ Shows (conesCb msg) (s.coneMap.zip s.coneSides) := by
  unfold LidarConeDetector.publishAccumulated
  rw [if_neg hne]
  exact ⟨_, rfl, shows_published s.publishedNamespaces _⟩

omit [LinearOrder K] in
theorem publishAccumulated_eq (s : LidarConeDetector K) :
    s.publishAccumulated.1 = { s with publishedNamespaces := s.publishAccumulated.1.publishedNamespaces } := by
  unfold LidarConeDetector.publishAccumulated
  split <;> rfl

/-- **A scan**: nothing is raised, and the detector, the labels it shows and the message are as they should be. -/
theorem process_ok (hrange : InRange lib.sides.delaunay) (hiterate : ∀ edges, (lib.iterate edges).Perm edges)
    (h : Sound p lib s) (scan : ScanInput K) :
    ∃ s' msg, s.process p lib scan = .ok (s', msg) ∧ Sound p lib s' ∧ Sided p s' ∧
      s'.scanHistory = (s.stackScan p scan.stampNs scan.points).1.scanHistory ∧ s'.lastScanNs = some scan.stampNs ∧
      (s'.coneMap ≠ [] → ∃ m, msg = some m ∧ Shows (conesCb m) (s'.coneMap.zip s'.coneSides)) ∧
      ((∀ last, s.lastScanNs = some last → last ≤ scan.stampNs) → ∃ more, s'.proposals = s.proposals ++ more) := by
  obtain ⟨hstacked, hkept⟩ := h.stackScan scan.stampNs scan.points
  have hlast : (s.stackScan p scan.stampNs scan.points).1.lastScanNs = some scan.stampNs := rfl
  unfold LidarConeDetector.process
  generalize s.stackScan p scan.stampNs scan.points = stacked at *
  obtain ⟨s₁, points⟩ := stacked
  dsimp only at *
  have hgrown : Sound p lib { s₁ with coneMap := (updateConeMap (detections p lib points) s₁.coneMap p.dedupRadius).1 } := by
    have hle := length_updateConeMap (detections p lib points) s₁.coneMap p.dedupRadius
    obtain ⟨n, hn, hsized⟩ := hstacked.sized
    exact ⟨hstacked.confirmations, ⟨n, hn.trans hle, hsized⟩, hstacked.votes.trans hle, hstacked.cells, hstacked.seeded,
      hstacked.pose, hstacked.spaced⟩
  obtain ⟨s₂, hupdate, hsound, hsided, hmap, hhistory, hlast₂, more, hmore⟩ := updateSide_ok hrange hiterate hgrown scan.pose
  rw [hupdate]
  have hpub := publishAccumulated_eq s₂
  refine ⟨s₂.publishAccumulated.1, s₂.publishAccumulated.2, rfl, ?_, ?_, ?_, ?_, ?_, fun hlater => ⟨more, ?_⟩⟩
  · rw [hpub]
    exact ⟨hsound.confirmations, hsound.sized, hsound.votes, hsound.cells, hsound.seeded, hsound.pose, hsound.spaced⟩
  · rw [hpub]
    exact ⟨hsided.unknown, hsided.labels, hsided.length⟩
  · rw [hpub]
    exact hhistory
  · rw [hpub]
    exact hlast₂.trans hlast
  · rw [hpub]
    exact fun hne => published_shows (s := s₂) hne
  · rw [hpub]
    show s₂.proposals = s.proposals ++ more
    rw [hmore, ← hkept hlater]

variable (p) in
/-- What the track builder has is the map, once there is one. -/
structure Published (s : LidarConeDetector K × Option (List (Marker K))) : Prop where
  sided : Sided p s.1
  shows : s.1.coneMap ≠ [] → ∃ msg, s.2 = some msg ∧ Shows (conesCb msg) (s.1.coneMap.zip s.1.coneSides)

omit [Field K] [LinearOrder K] in
theorem Published.init : Published p (LidarConeDetector.init p, none) where
  sided := ⟨fun _ => rfl, fun _ => rfl, rfl⟩
  shows := fun hne => absurd rfl hne

theorem processAll_cons {s s' : LidarConeDetector K × Option (List (Marker K))} {scan : ScanInput K} {scans : List (ScanInput K)}
    {msg : Option (List (Marker K))} (h : s.1.process p lib scan = .ok (s'.1, msg)) (hmsg : s'.2 = msg.orElse fun _ => s.2) :
    processAll p lib s (scan :: scans) = processAll p lib s' scans := by
  unfold processAll
  rw [List.foldlM_cons, h]
  show List.foldlM _ (s'.1, msg.orElse fun _ => s.2) scans = _
  rw [← hmsg]

/-- **Any scans**: nothing is raised. -/
theorem processAll_ok (hrange : InRange lib.sides.delaunay) (hiterate : ∀ edges, (lib.iterate edges).Perm edges)
    (scans : List (ScanInput K)) {s : LidarConeDetector K × Option (List (Marker K))} (h : Sound p lib s.1)
    (hpub : Published p s) : ∃ s', processAll p lib s scans = .ok s' ∧ Sound p lib s'.1 ∧ Published p s' := by
  induction scans generalizing s with
  | nil => exact ⟨s, rfl, h, hpub⟩
  | cons scan scans ih =>
      obtain ⟨s', msg, hok, hsound, hsided, -, -, hshows, -⟩ := process_ok hrange hiterate h scan
      have hpub' : Published p (s', msg.orElse fun _ => s.2) := by
        refine ⟨hsided, fun hne => ?_⟩
        obtain ⟨m, rfl, hm⟩ := hshows hne
        exact ⟨m, rfl, hm⟩
      obtain ⟨end', hrun, hend⟩ := ih (s := (s', msg.orElse fun _ => s.2)) hsound hpub'
      exact ⟨end', (processAll_cons hok rfl).trans hrun, hend⟩

/-! ## The window of a run -/

/-- The times and the points of some scans. -/
def times (scans : List (ScanInput K)) : List (ℤ × List (K × K × K)) := scans.map fun scan => (scan.stampNs, scan.points)

variable (p) in
/-- The history is the window of some scans, each of a later time. -/
structure Windowed (s : LidarConeDetector K) (scans : List (ℤ × List (K × K × K))) : Prop where
  sorted : scans.Pairwise fun a b => a.1 < b.1
  history : (scans = [] ∧ s.scanHistory = [] ∧ s.lastScanNs = none) ∨
    ∃ older newest, scans = older ++ [newest] ∧ s.lastScanNs = some newest.1 ∧
      s.scanHistory = window (newest.1 - p.stackWindowNs) p.stackMaxFrames older newest

omit [Field K] [LinearOrder K] in
/-- **One more scan** of the same run. -/
theorem Windowed.scan {scans : List (ℤ × List (K × K × K))} (h : Windowed p s scans) {stampNs : ℤ} {points : List (K × K × K)}
    (hlater : ∀ last, s.lastScanNs = some last → last ≤ stampNs) {s' : LidarConeDetector K}
    (hhistory : s'.scanHistory = (s.stackScan p stampNs points).1.scanHistory) (hlast : s'.lastScanNs = some stampNs) :
    Windowed p s' (scans.filter (fun e => decide (e.1 ≠ stampNs)) ++ [(stampNs, points)]) := by
  have hno : ¬ (s.lastScanNs.any fun last => decide (stampNs < last)) = true := by
    rw [restart_iff]
    rintro ⟨last, heq, hlt⟩
    exact absurd (hlater last heq) (not_le.mpr hlt)
  unfold LidarConeDetector.stackScan at hhistory
  rw [if_neg hno] at hhistory
  dsimp only at hhistory
  obtain ⟨hsorted, ⟨rfl, hempty, hnone⟩ | ⟨older, newest, rfl, hnewest, hwindow⟩⟩ := h
  · refine ⟨by simp, Or.inr ⟨[], (stampNs, points), rfl, hlast, ?_⟩⟩
    rw [hhistory, if_neg (by simp [hnone]), hempty]
    obtain ⟨n, hn⟩ := Nat.exists_eq_succ_of_ne_zero p.frames_pos.ne'
    rw [hn, List.nil_append]
    simp [window, List.rtake_eq_reverse_take_reverse, expire]
  · have hle := hlater _ hnewest
    obtain ⟨hsorted', -, hbelow⟩ := List.pairwise_append.mp hsorted
    have hbelow' : ∀ e ∈ older, e.1 < newest.1 := fun e he => hbelow e he newest List.mem_cons_self
    rcases hle.eq_or_lt with hsame | hlt
    · -- the newest scan again
      have hfilter : (older ++ [newest]).filter (fun e => decide (e.1 ≠ stampNs)) = older := by
        rw [List.filter_append, List.filter_eq_self.mpr, List.filter_cons_of_neg (by simp [hsame])]
        · simp
        · intro e he
          exact decide_eq_true (hsame ▸ (hbelow' e he).ne)
      rw [hfilter]
      refine ⟨List.pairwise_append.mpr ⟨hsorted', List.pairwise_singleton _ _, ?_⟩, Or.inr ⟨older, _, rfl, hlast, ?_⟩⟩
      · intro e he x hx
        obtain rfl := List.mem_singleton.mp hx
        exact (hbelow' e he).trans_eq hsame
      · rw [hhistory, if_pos (by rw [hnewest, hsame]), hwindow]
        exact window_same older p.stackWindowNs (show newest.1 = (stampNs, points).1 from hsame) p.frames_pos
    · have hfilter : (older ++ [newest]).filter (fun e => decide (e.1 ≠ stampNs)) = older ++ [newest] := by
        apply List.filter_eq_self.mpr
        intro e he
        rcases List.mem_append.mp he with hmem | hmem
        · exact decide_eq_true ((hbelow' e hmem).trans hlt).ne
        · obtain rfl := List.mem_singleton.mp hmem
          exact decide_eq_true hlt.ne
      rw [hfilter]
      refine ⟨List.pairwise_append.mpr ⟨hsorted, List.pairwise_singleton _ _, ?_⟩, Or.inr ⟨_, _, rfl, hlast, ?_⟩⟩
      · intro e he x hx
        obtain rfl := List.mem_singleton.mp hx
        rcases List.mem_append.mp he with hmem | hmem
        · exact (hbelow' e hmem).trans hlt
        · obtain rfl := List.mem_singleton.mp hmem
          exact hlt
      · rw [hhistory, if_neg (by rw [hnewest]; simpa using hlt.ne), hwindow]
        exact window_later (hsorted'.imp fun hab => hab.le) (fun e he => (hbelow' e he).le) p.stackWindowNs
          (show newest.1 ≤ (stampNs, points).1 from hle) p.frames_pos

omit [Field K] [LinearOrder K] in
/-- A scan from before the last one starts a new window. -/
theorem Windowed.restart {s' : LidarConeDetector K} {last stampNs : ℤ} {points : List (K × K × K)}
    (hlast : s.lastScanNs = some last) (hlt : stampNs < last)
    (hhistory : s'.scanHistory = (s.stackScan p stampNs points).1.scanHistory) (hlast' : s'.lastScanNs = some stampNs) :
    Windowed p s' [(stampNs, points)] := by
  have hrestart : (s.lastScanNs.any fun last => decide (stampNs < last)) = true := (restart_iff s stampNs).mpr ⟨last, hlast, hlt⟩
  unfold LidarConeDetector.stackScan at hhistory
  rw [if_pos hrestart] at hhistory
  dsimp only at hhistory
  refine ⟨by simp, Or.inr ⟨[], (stampNs, points), rfl, hlast', ?_⟩⟩
  rw [hhistory, if_neg (by rw [hlast]; simpa using hlt.ne')]
  obtain ⟨n, hn⟩ := Nat.exists_eq_succ_of_ne_zero p.frames_pos.ne'
  rw [hn, List.nil_append]
  simp [window, List.rtake_eq_reverse_take_reverse, expire]

/-- **A run of scans in time** goes on with the window. -/
theorem processAll_window (hrange : InRange lib.sides.delaunay) (hiterate : ∀ edges, (lib.iterate edges).Perm edges)
    (done es : List (ScanInput K)) {s : LidarConeDetector K × Option (List (Marker K))} (h : Sound p lib s.1)
    (hw : Windowed p s.1 (lastOfEach (times done))) (hlast : s.1.lastScanNs = (times done).getLast?.map Prod.fst)
    (hsorted : (done ++ es).Pairwise fun a b => a.stampNs ≤ b.stampNs) :
    ∃ s', processAll p lib s es = .ok s' ∧ Windowed p s'.1 (lastOfEach (times (done ++ es))) := by
  induction es generalizing s done with
  | nil => exact ⟨s, rfl, by simpa using hw⟩
  | cons scan es ih =>
      obtain ⟨s', msg, hok, hsound, -, hhistory, hlast', -⟩ := process_ok hrange hiterate h scan
      have hlater : ∀ last, s.1.lastScanNs = some last → last ≤ scan.stampNs := by
        intro last heq
        rw [hlast, times, List.getLast?_map, Option.map_map] at heq
        obtain ⟨e, he, rfl⟩ := Option.map_eq_some_iff.mp heq
        exact (List.pairwise_append.mp hsorted).2.2 e (List.mem_of_getLast? he) scan List.mem_cons_self
      have hw' := hw.scan hlater hhistory hlast'
      have htimes : times (done ++ [scan]) = times done ++ [(scan.stampNs, scan.points)] := by simp [times]
      obtain ⟨end', hrun, hend⟩ := ih (done ++ [scan]) (s := (s', msg.orElse fun _ => s.2)) hsound
        (by rw [htimes, lastOfEach_concat]; exact hw') (by rw [htimes]; simpa using hlast') (by simpa using hsorted)
      refine ⟨end', (processAll_cons hok rfl).trans hrun, ?_⟩
      simpa using hend

/-- The time of the last scan. -/
theorem processAll_last (hrange : InRange lib.sides.delaunay) (hiterate : ∀ edges, (lib.iterate edges).Perm edges)
    (scans : List (ScanInput K)) {s s' : LidarConeDetector K × Option (List (Marker K))} (h : Sound p lib s.1)
    (hrun : processAll p lib s scans = .ok s') :
    s'.1.lastScanNs = (scans.getLast?.map ScanInput.stampNs).or s.1.lastScanNs := by
  induction scans generalizing s with
  | nil =>
      obtain rfl := Except.ok.inj hrun
      rfl
  | cons scan scans ih =>
      obtain ⟨s₁, msg, hok, hsound, -, -, hlast, -⟩ := process_ok hrange hiterate h scan
      rw [show processAll p lib s (scan :: scans) = processAll p lib (s₁, msg.orElse fun _ => s.2) scans from
        processAll_cons hok rfl] at hrun
      rw [ih hsound hrun, hlast]
      cases scans using List.reverseRecOn with
      | nil => rfl
      | append_singleton scans e =>
          rw [← List.cons_append, List.getLast?_concat, List.getLast?_concat]
          rfl

theorem processAll_append (s : LidarConeDetector K × Option (List (Marker K))) (scans scans' : List (ScanInput K)) :
    processAll p lib s (scans ++ scans') = (processAll p lib s scans).bind fun s => processAll p lib s scans' :=
  List.foldlM_append

/-- **What is clustered is a window of scans.** After any scans, of which the last ones go on in time and the first of these is
from before what came earlier, nothing was raised, and the history has the last of these scans, and of the scans before it that
are the last of their time the latest that are in the window; nothing is left of the earlier scans. -/
theorem stacked_scans (hrange : InRange lib.sides.delaunay) (hiterate : ∀ edges, (lib.iterate edges).Perm edges)
    (before es : List (ScanInput K)) (hne : es ≠ []) (hsorted : es.Pairwise fun a b => a.stampNs ≤ b.stampNs)
    (hrestart : ∀ b ∈ before.getLast?, ∀ e ∈ es.head?, e.stampNs < b.stampNs) :
    ∃ s older newest, processAll p lib (LidarConeDetector.init p, none) (before ++ es) = .ok s ∧
      lastOfEach (times es) = older ++ [newest] ∧
      s.1.scanHistory = window (newest.1 - p.stackWindowNs) p.stackMaxFrames older newest := by
  obtain ⟨s₀, hrun₀, hsound₀, hpub₀⟩ := processAll_ok hrange hiterate before Sound.init Published.init
  have hlast₀ := processAll_last hrange hiterate before Sound.init hrun₀
  obtain ⟨scan, es, rfl⟩ := List.exists_cons_of_ne_nil hne
  obtain ⟨s₁, msg, hok, hsound₁, -, hhistory, hlast₁, -⟩ := process_ok hrange hiterate hsound₀ scan
  -- the first of the last scans starts a window
  have hfirst : Windowed p s₁ [(scan.stampNs, scan.points)] := by
    cases hb : before.getLast? with
    | none =>
        have hnil : before = [] := List.getLast?_eq_none_iff.mp hb
        subst hnil
        obtain rfl := Except.ok.inj hrun₀
        have hstart : Windowed p (LidarConeDetector.init p : LidarConeDetector K) [] := ⟨List.Pairwise.nil, Or.inl ⟨rfl, rfl, rfl⟩⟩
        exact hstart.scan (fun last heq => absurd heq (by simp [LidarConeDetector.init])) hhistory hlast₁
    | some b =>
        rw [hb] at hlast₀
        exact Windowed.restart hlast₀ (hrestart b hb scan rfl) hhistory hlast₁
  obtain ⟨s, hrun, hw⟩ := processAll_window (s := (s₁, msg.orElse fun _ => s₀.2)) hrange hiterate [scan] es hsound₁ hfirst hlast₁
    hsorted
  rw [List.singleton_append] at hw
  have hall : processAll p lib (LidarConeDetector.init p, none) (before ++ scan :: es) = .ok s := by
    rw [processAll_append, hrun₀]
    exact (processAll_cons hok rfl).trans hrun
  rcases hw.history with ⟨hempty, -, hnone⟩ | ⟨older, newest, heq, -, hwindow⟩
  · have hlast := processAll_last hrange hiterate (before ++ scan :: es) Sound.init hall
    rw [hnone, List.getLast?_append_of_ne_nil _ (List.cons_ne_nil scan es), List.getLast?_eq_some_getLast (List.cons_ne_nil scan es)] at hlast
    exact absurd hlast (by simp)
  · exact ⟨s, older, newest, hall, heq, hwindow⟩

/-- A detector that clusters every point for itself. -/
def smallParams : DetectorParams ℚ where
  stackWindowNs := 500
  stackMaxFrames := 2
  clusterRadius := 1
  minClusterPts := 1
  maxClusterPts := 500
  maxClusterExtent := 1
  dedupRadius := 1 / 2
  minRange := 1 / 2
  classifySides := true
  sideVoteMaxRange := 7
  sideVoteMaxForward := 3
  sideVoteMaxLateral := 5
  sideVoteDeadband := 1 / 2
  sideUpdateDistance := 1
  sideConfirmations := 2
  boundary := ⟨3, 4, 0⟩
  window_nonneg := by decide
  frames_pos := by decide
  confirmations_pos := by decide

/-- The library calls of a car that drives straight on, with its cones beside it. -/
def smallLibraries : DetectorLibraries ℚ where
  sides := rowLibraries
  iterate := id
  hypot x y := |x| + |y|
  cos _ := 1
  sin _ := 0
  components _ xy := (List.range xy.length).map fun i => [i]

/-- A scan of one cone to the left of the car. -/
def leftScan (stampNs : ℤ) : ScanInput ℚ where
  stampNs := stampNs
  points := [(0, 2, 0)]
  pose := { stampNs := stampNs, x := 0, y := 0, yaw := 0 }

/-- A replay that starts anew, with a scan that comes twice. -/
theorem stacked_scans_replay :
    ∃ s older newest, processAll smallParams smallLibraries (LidarConeDetector.init smallParams, none)
        ([leftScan 900] ++ [leftScan 100, leftScan 200, leftScan 200]) = .ok s ∧
      lastOfEach (times [leftScan 100, leftScan 200, leftScan 200]) = older ++ [newest] ∧
      s.1.scanHistory = window (newest.1 - 500) 2 older newest :=
  stacked_scans rowLibraries_inRange (fun edges => List.Perm.refl edges) [leftScan 900]
    [leftScan 100, leftScan 200, leftScan 200] (List.cons_ne_nil _ _) (by simp [leftScan]) (by simp [leftScan])

/-! ## The side of a cone -/

/-- The side a cone is given: the one it is proposed at the start, or else the first one proposed so often in a row. -/
def Confirmed (n : ℕ) (proposals : List (List ℤ)) (i : ℕ) (side : ℤ) : Prop :=
  match proposals with
  | [] => False
  | first :: rest =>
      if first.getD i 0 ≠ 0 then side = first.getD i 0
      else Confirmation.First n ((rest.map fun sides => sides.getD i 0).filter fun side => decide (side ≠ 0)) side

theorem reduceOption_known (sides : List ℤ) : (sides.map known).reduceOption = sides.filter fun side => decide (side ≠ 0) := by
  induction sides with
  | nil => rfl
  | cons side sides ih =>
      by_cases h : side = 0
      · subst h
        rw [List.map_cons, known_zero, List.reduceOption_cons_of_none, ih]
        rfl
      · rw [List.map_cons, known_of_ne h, List.reduceOption_cons_of_some, ih, List.filter_cons_of_pos (by simpa using h)]

omit [Field K] [LinearOrder K] in
theorem expected_label {n : ℕ} (hn : 0 < n) (proposals : List (Pose2D K × List ℤ)) (i : ℕ) (side : ℤ) :
    (expected n (proposedFor proposals i)).label = some side ↔ Confirmed n (proposals.map Prod.snd) i side := by
  cases proposals with
  | nil =>
      show (none : Option ℤ) = some side ↔ False
      simp
  | cons first rest =>
      show (Confirmation.run n { label := known (first.2.getD i 0) } (proposedFor rest i)).label = some side ↔ _
      rw [List.map_cons]
      unfold Confirmed
      dsimp only
      by_cases hfirst : first.2.getD i 0 = 0
      · rw [if_neg (not_not.mpr hfirst), hfirst, known_zero, List.map_map]
        have hsides : proposedFor rest i = (rest.map fun e => e.2.getD i 0).map known := by simp [proposedFor]
        rw [hsides, Confirmation.label_run hn, reduceOption_known]
        rfl
      · rw [if_pos hfirst, Confirmation.label_kept (known_of_ne hfirst), Option.some.injEq, eq_comm]

theorem expected_kept {n : ℕ} {sides : List (Option ℤ)} {side : ℤ} (h : (expected n sides).label = some side)
    (more : List (Option ℤ)) : (expected n (sides ++ more)).label = some side := by
  cases sides with
  | nil => exact absurd h (by simp [expected])
  | cons first rest =>
      show (Confirmation.run n { label := first } (rest ++ more)).label = some side
      rw [Confirmation.run, List.foldl_append]
      exact Confirmation.label_kept h more

/-- The label that is shown for a cone. -/
theorem Sided.label (h : Sided p s) (hs : Sound p lib s) (hclassify : p.classifySides = true) (i : ℕ) :
    known (s.coneSides.getD i 0) = (expected p.sideConfirmations (proposedFor s.proposals i)).label := by
  rw [h.labels hclassify, ← hs.cells i]
  rfl

/-- **Sides are confirmed and kept.** After any scans nothing was raised, a cone has the side it was proposed at the start, or
else the first one proposed so often in a row, where the poses of two proposals are so far apart; and whatever scan comes, as
long as it is not from before the last one, the cone keeps it. -/
theorem sides_confirmed (hrange : InRange lib.sides.delaunay) (hiterate : ∀ edges, (lib.iterate edges).Perm edges)
    (hclassify : p.classifySides = true) (scans : List (ScanInput K)) :
    ∃ s msg, processAll p lib (LidarConeDetector.init p, none) scans = .ok (s, msg) ∧
      (∀ i side, side ≠ 0 →
        (s.coneSides.getD i 0 = side ↔ Confirmed p.sideConfirmations (s.proposals.map Prod.snd) i side)) ∧
      ((s.proposals.map Prod.fst).IsChain fun a b => ¬ lib.hypot (b.x - a.x) (b.y - a.y) < p.sideUpdateDistance) ∧
      ∀ scan, (∀ last, s.lastScanNs = some last → last ≤ scan.stampNs) →
        ∃ s' msg', s.process p lib scan = .ok (s', msg') ∧
          ∀ i, s.coneSides.getD i 0 ≠ 0 → s'.coneSides.getD i 0 = s.coneSides.getD i 0 := by
  obtain ⟨⟨s, msg⟩, hrun, hsound, hpub⟩ := processAll_ok hrange hiterate scans Sound.init Published.init
  refine ⟨s, msg, hrun, fun i side hside => ?_, hsound.spaced, fun scan hlater => ?_⟩
  · rw [← expected_label p.confirmations_pos s.proposals i side, ← hpub.sided.label hsound hclassify i, known_eq_some,
      and_iff_left hside]
  · obtain ⟨s', msg', hok, hsound', hsided', -, -, -, hmore⟩ := process_ok hrange hiterate hsound scan
    obtain ⟨more, hmore⟩ := hmore hlater
    refine ⟨s', msg', hok, fun i hne => ?_⟩
    have hbefore := (hpub.sided.label hsound hclassify i).symm.trans (known_of_ne hne)
    have hafter := expected_kept hbefore (proposedFor more i)
    have hlabel := hsided'.label hsound' hclassify i
    rw [hmore, proposedFor, List.map_append] at hlabel
    exact (known_eq_some.mp (hlabel.trans hafter)).1

/-- A cone to the left of the car at the start. -/
theorem sides_confirmed_left :
    ∃ s msg, processAll smallParams smallLibraries (LidarConeDetector.init smallParams, none) [leftScan 100] = .ok (s, msg) ∧
      (s.coneSides.getD 0 0 = 1 ↔ Confirmed 2 (s.proposals.map Prod.snd) 0 1) := by
  obtain ⟨s, msg, hrun, hside, -⟩ := @sides_confirmed ℚ _ _ smallParams smallLibraries rowLibraries_inRange
    (fun edges => List.Perm.refl edges) rfl [leftScan 100]
  exact ⟨s, msg, hrun, hside 0 1 one_ne_zero⟩

/-! ## The cones of the track builder -/

/-- **The track builder has the map.** After any scans nothing was raised, every cone has a label, and once there is a cone, what
the builder reads from the last message are the cones of the map, each with its place among those of its side. -/
theorem builder_has_map (hrange : InRange lib.sides.delaunay) (hiterate : ∀ edges, (lib.iterate edges).Perm edges)
    (scans : List (ScanInput K)) :
    ∃ s msg, processAll p lib (LidarConeDetector.init p, none) scans = .ok (s, msg) ∧
      s.coneSides.length = s.coneMap.length ∧
      (s.coneMap ≠ [] → ∃ m, msg = some m ∧ Shows (conesCb m) (s.coneMap.zip s.coneSides)) := by
  obtain ⟨⟨s, msg⟩, hrun, -, hpub⟩ := processAll_ok hrange hiterate scans Sound.init Published.init
  exact ⟨s, msg, hrun, hpub.sided.length, hpub.shows⟩

/-- After one scan. -/
theorem builder_has_map_left :
    ∃ s msg, processAll smallParams smallLibraries (LidarConeDetector.init smallParams, none) [leftScan 100] = .ok (s, msg) ∧
      s.coneSides.length = s.coneMap.length ∧
      (s.coneMap ≠ [] → ∃ m, msg = some m ∧ Shows (conesCb m) (s.coneMap.zip s.coneSides)) :=
  builder_has_map rowLibraries_inRange (fun edges => List.Perm.refl edges) [leftScan 100]

end Lhre.Autonomy.Lidar
