import Mathlib.Data.List.TakeWhile
import Lhre.Motec.AutoSplit

/-!
# `Motec.Correctness.SplitRanges` — what an automatic split cuts

Overlapping ranges are joined. The loop keeps, of the samples so far, the stop it is in and where the current segment began; a
long stop is cut where the segment before it is long enough, and stays inside the range otherwise.

## Contents
- **Ranges.** `Covers`, `Separated`, `normalizeRanges_spec`, `normalizeRanges_apart`.
- **The law.** `IsLongStop`, `IsStretch`, `SplitLaw`.
- **One pass.** `Walked`, `Walked.step`, `Walked.run`.
- **At a stop.** `run_frame`, `run_stop`, `stop_cases`, `pushed_apart`.
- **The law holds.** `pushed_stop`, `stretch_stop`, `stretch_segment`, `pushed_stretch`.
- **The active range.** `splitLoop_eq`, `active_samplesIn`, `split_law`, `automatic_split`.
- **A short blip.** `shortBlip`, `short_blip_uncut`.
-/

namespace Lhre.Motec

/-! ## Ranges -/

/-- A time in one of the ranges. -/
def Covers (ranges : List (ℚ × ℚ)) (t : ℚ) : Prop := ∃ r ∈ ranges, r.1 ≤ t ∧ t ≤ r.2

theorem covers_cons {r : ℚ × ℚ} {ranges : List (ℚ × ℚ)} {t : ℚ} :
    Covers (r :: ranges) t ↔ (r.1 ≤ t ∧ t ≤ r.2) ∨ Covers ranges t := by
  simp [Covers]

/-- Ranges in ascending order that do not touch. -/
abbrev Separated (ranges : List (ℚ × ℚ)) : Prop := ranges.Pairwise fun r r' => r.2 < r'.1

/-- A range and one that begins in it are one. -/
theorem covers_joined {a b start finish t : ℚ} (hle : a ≤ start) (htouch : start ≤ b) :
    (a ≤ t ∧ t ≤ max b finish) ↔ (a ≤ t ∧ t ≤ b) ∨ (start ≤ t ∧ t ≤ finish) := by
  rw [le_max_iff]
  constructor
  · rintro ⟨hat, htb | htf⟩
    · exact Or.inl ⟨hat, htb⟩
    · rcases le_or_gt t b with htb | hbt
      · exact Or.inl ⟨hat, htb⟩
      · exact Or.inr ⟨htouch.trans hbt.le, htf⟩
  · rintro (⟨hat, htb⟩ | ⟨hst, htf⟩)
    · exact ⟨hat, Or.inl htb⟩
    · exact ⟨hle.trans hst, Or.inr htf⟩

/-- Joining keeps the times, and the ranges apart. -/
theorem mergeRanges_spec (ranges merged : List (ℚ × ℚ)) (hsorted : ranges.Pairwise fun r r' => r.1 ≤ r'.1)
    (hne : ∀ r ∈ ranges, r.1 < r.2) (hmerged : merged.Pairwise fun r r' => r'.2 < r.1) (hmne : ∀ r ∈ merged, r.1 < r.2)
    (hbehind : ∀ m ∈ merged.head?, ∀ r ∈ ranges, m.1 ≤ r.1) :
    (mergeRanges merged ranges).Pairwise (fun r r' => r'.2 < r.1) ∧ (∀ r ∈ mergeRanges merged ranges, r.1 < r.2) ∧
      ∀ t, Covers (mergeRanges merged ranges) t ↔ Covers merged t ∨ Covers ranges t := by
  induction ranges generalizing merged with
  | nil =>
      refine ⟨hmerged, hmne, fun t => ?_⟩
      simp [mergeRanges, Covers]
  | cons r ranges ih =>
      obtain ⟨start, finish⟩ := r
      obtain ⟨hfirst, hrest⟩ := List.pairwise_cons.mp hsorted
      have hr : start < finish := hne (start, finish) List.mem_cons_self
      have hne' : ∀ r ∈ ranges, r.1 < r.2 := fun r hr => hne r (List.mem_cons_of_mem _ hr)
      cases merged with
      | nil =>
          obtain ⟨hapart, hall, hcover⟩ := ih [(start, finish)] hrest hne' (List.pairwise_singleton _ _)
            (by simpa using hr) (by simpa using hfirst)
          refine ⟨hapart, hall, fun t => ?_⟩
          rw [mergeRanges, hcover, covers_cons, covers_cons]
          simp [Covers]
      | cons m merged =>
          obtain ⟨a, b⟩ := m
          have hab : a < b := hmne (a, b) List.mem_cons_self
          have hle : a ≤ start := hbehind (a, b) rfl (start, finish) List.mem_cons_self
          obtain ⟨hapartHead, hapartRest⟩ := List.pairwise_cons.mp hmerged
          have hmne' : ∀ r ∈ merged, r.1 < r.2 := fun r hr => hmne r (List.mem_cons_of_mem _ hr)
          rw [mergeRanges]
          by_cases htouch : start ≤ b
          · rw [if_pos htouch]
            obtain ⟨hapart, hall, hcover⟩ := ih ((a, max b finish) :: merged) hrest hne'
              (List.pairwise_cons.mpr ⟨hapartHead, hapartRest⟩)
              (List.forall_mem_cons.mpr ⟨hab.trans_le (le_max_left b finish), hmne'⟩)
              (by
                rintro m hm r hr
                obtain rfl : (a, max b finish) = m := Option.some.inj hm
                exact hle.trans (hfirst r hr))
            refine ⟨hapart, hall, fun t => ?_⟩
            simp only [hcover, covers_cons, covers_joined hle htouch]
            exact (or_congr_left or_right_comm).trans or_assoc
          · rw [if_neg htouch]
            have hgap : b < start := not_le.mp htouch
            obtain ⟨hapart, hall, hcover⟩ := ih ((start, finish) :: (a, b) :: merged) hrest hne'
              (List.pairwise_cons.mpr ⟨List.forall_mem_cons.mpr
                ⟨hgap, fun r hr => ((hapartHead r hr).trans hab).trans hgap⟩, hmerged⟩)
              (List.forall_mem_cons.mpr ⟨hr, hmne⟩) (by simpa using hfirst)
            refine ⟨hapart, hall, fun t => ?_⟩
            simp only [hcover, covers_cons]
            exact (or_congr_left or_comm).trans or_assoc

/-- The ranges that `normalizeRanges` joins, in their order. -/
def cleanRanges (ranges : List (ℚ × ℚ)) : List (ℚ × ℚ) :=
  (ranges.filter fun r => decide (r.1 < r.2)).mergeSort fun x y => decide (x.1 ≤ y.1)

theorem mem_cleanRanges {ranges : List (ℚ × ℚ)} {r : ℚ × ℚ} : r ∈ cleanRanges ranges ↔ r ∈ ranges ∧ r.1 < r.2 := by
  simp [cleanRanges]

/-- **`normalizeRanges`**: ascending ranges that do not touch, with the times of those that are not empty. -/
theorem normalizeRanges_spec (ranges : List (ℚ × ℚ)) :
    Separated (normalizeRanges ranges) ∧ (∀ r ∈ normalizeRanges ranges, r.1 < r.2) ∧
      ∀ t, Covers (normalizeRanges ranges) t ↔ ∃ r ∈ ranges, r.1 < r.2 ∧ r.1 ≤ t ∧ t ≤ r.2 := by
  have hsorted : (cleanRanges ranges).Pairwise fun r r' => r.1 ≤ r'.1 := by
    have hsort : (cleanRanges ranges).Pairwise fun r r' => decide (r.1 ≤ r'.1) = true := by
      refine List.pairwise_mergeSort ?_ ?_ _
      · intro x y z hxy hyz
        exact decide_eq_true ((of_decide_eq_true hxy).trans (of_decide_eq_true hyz))
      · intro x y
        simpa using le_total x.1 y.1
    exact hsort.imp of_decide_eq_true
  obtain ⟨hapart, hne, hcover⟩ := mergeRanges_spec (cleanRanges ranges) [] hsorted (fun r hr => (mem_cleanRanges.mp hr).2)
    List.Pairwise.nil (by simp) (by simp)
  have hreverse : normalizeRanges ranges = (mergeRanges [] (cleanRanges ranges)).reverse := rfl
  rw [hreverse]
  refine ⟨List.pairwise_reverse.mpr hapart, fun r hr => hne r (List.mem_reverse.mp hr), fun t => ?_⟩
  have hmem : Covers (mergeRanges [] (cleanRanges ranges)).reverse t ↔ Covers (mergeRanges [] (cleanRanges ranges)) t := by
    simp [Covers]
  rw [hmem, hcover]
  simp only [Covers, mem_cleanRanges, List.not_mem_nil, false_and, exists_false, false_or, and_assoc]

/-- Ranges that are apart already are only cleared of the empty ones. -/
theorem normalizeRanges_apart {ranges : List (ℚ × ℚ)} (hapart : Separated ranges) (hle : ∀ r ∈ ranges, r.1 ≤ r.2) :
    normalizeRanges ranges = ranges.filter fun r => decide (r.1 < r.2) := by
  have hfilter : Separated (ranges.filter fun r => decide (r.1 < r.2)) := hapart.sublist List.filter_sublist
  have hclean : cleanRanges ranges = ranges.filter fun r => decide (r.1 < r.2) := by
    refine List.mergeSort_of_pairwise (hfilter.imp_of_mem ?_)
    intro r r' hr _ hlt
    exact decide_eq_true ((hle r (List.mem_of_mem_filter hr)).trans hlt.le)
  have hmerge (rs merged : List (ℚ × ℚ)) (hrs : Separated rs) (hrs' : ∀ m ∈ merged.head?, ∀ r ∈ rs, m.2 < r.1) :
      mergeRanges merged rs = rs.reverse ++ merged := by
    induction rs generalizing merged with
    | nil => rfl
    | cons r rs ih =>
        obtain ⟨start, finish⟩ := r
        obtain ⟨hhead, htail⟩ := List.pairwise_cons.mp hrs
        have hnext := ih ((start, finish) :: merged) htail (by simpa using hhead)
        rw [List.reverse_cons, List.append_assoc]
        cases merged with
        | nil => exact hnext
        | cons m merged =>
            have hgap : ¬ start ≤ m.2 := not_le.mpr (hrs' m rfl (start, finish) List.mem_cons_self)
            rw [mergeRanges, if_neg hgap]
            exact hnext
  have hreverse : normalizeRanges ranges = (mergeRanges [] (cleanRanges ranges)).reverse := rfl
  rw [hreverse, hclean, hmerge _ [] hfilter (by simp), List.append_nil, List.reverse_reverse]

/-! ## The law -/

section Law
variable (still : Sample → Bool) (minimumGapS minimumSegmentS : ℚ)

/-- Where a stop begins: the moving sample before it, or its own first. -/
def stopStart (front stop : List Sample) : Option ℚ := (front.getLast?.or stop.head?).map Sample.t

/-- **A long stop** of the samples: all that is still between two moving samples, or an end. -/
structure IsLongStop (xs front stop back : List Sample) (start finish : ℚ) : Prop where
  split : xs = front ++ (stop ++ back)
  stands : ∀ s ∈ stop, still s = true
  before : ∀ s ∈ front.getLast?, still s = false
  after : ∀ s ∈ back.head?, still s = false
  starts : stopStart front stop = some start
  ends : stop.getLast?.map Sample.t = some finish
  long : minimumGapS ≤ finish - start

/-- **A moving stretch**: what lies between two long stops, or an end, with no long stop in it. -/
structure IsStretch (xs front part back : List Sample) (first last : ℚ) : Prop where
  split : xs = front ++ (part ++ back)
  starts : part.head?.map Sample.t = some first
  ends : part.getLast?.map Sample.t = some last
  opens : front = [] ∨ ∃ f s start finish, front = f ++ s ∧ IsLongStop still minimumGapS xs f s (part ++ back) start finish
  closes : back = [] ∨ ∃ s b start finish, back = s ++ b ∧ IsLongStop still minimumGapS xs (front ++ part) s b start finish
  moves : ∀ f s b start finish, IsLongStop still minimumGapS xs f s b start finish →
    ¬ (front.length ≤ f.length ∧ (f ++ s).length ≤ (front ++ part).length)

/-- **What an automatic split returns** for the samples of the active range. -/
structure SplitLaw (xs : List Sample) (activeStart activeEnd : ℚ) (ranges : List (ℚ × ℚ)) : Prop where
  inside : ∀ r ∈ ranges, activeStart ≤ r.1 ∧ r.1 < r.2 ∧ r.2 ≤ activeEnd
  apart : Separated ranges
  cut : ∀ front stop back start finish, IsLongStop still minimumGapS xs front stop back start finish →
    ∀ r ∈ ranges, (∀ s ∈ stop, r.1 ≤ s.t ∧ s.t ≤ r.2) → start - r.1 < minimumSegmentS
  kept : ∀ front part back first last, IsStretch still minimumGapS xs front part back first last →
    first < last → minimumSegmentS ≤ last - first → ∃ r ∈ ranges, r.1 ≤ first ∧ last ≤ r.2

end Law

/-! ## One pass -/

section Pass
variable {still : Sample → Bool} {minimumGapS minimumSegmentS : ℚ}

/-- A stop that is cut. -/
abbrev SplitState.Cuts (minimumGapS minimumSegmentS : ℚ) (st : SplitState) (gapStart gapEnd : ℚ) : Prop :=
  minimumGapS ≤ gapEnd - gapStart ∧ minimumSegmentS ≤ gapStart - st.segmentStart

theorem step_still_first {st : SplitState} {s : Sample} (hstill : still s = true) (hgap : st.gapStart = none) :
    st.step minimumGapS minimumSegmentS still s =
      { st with gapStart := some (st.previousT.getD s.t), previousT := some s.t } := by
  simp [SplitState.step, hgap, hstill]

theorem step_still_next {st : SplitState} {s : Sample} {u : ℚ} (hstill : still s = true) (hgap : st.gapStart = some u) :
    st.step minimumGapS minimumSegmentS still s = { st with previousT := some s.t } := by
  simp [SplitState.step, hgap, hstill]

theorem step_moving {st : SplitState} {s : Sample} (hmoving : still s = false) (hgap : st.gapStart = none) :
    st.step minimumGapS minimumSegmentS still s = { st with previousT := some s.t } := by
  simp [SplitState.step, hgap, hmoving]

theorem step_cut {st : SplitState} {s : Sample} {u p : ℚ} (hmoving : still s = false) (hgap : st.gapStart = some u)
    (hprevious : st.previousT = some p) (hcut : st.Cuts minimumGapS minimumSegmentS u p) :
    st.step minimumGapS minimumSegmentS still s =
      { ranges := st.ranges ++ [(st.segmentStart, u)], segmentStart := s.t, gapStart := none, previousT := some s.t } := by
  simp [SplitState.step, hgap, hmoving, hprevious, hcut.1, hcut.2]

theorem step_uncut {st : SplitState} {s : Sample} {u p : ℚ} (hmoving : still s = false) (hgap : st.gapStart = some u)
    (hprevious : st.previousT = some p) (hcut : ¬ st.Cuts minimumGapS minimumSegmentS u p) :
    st.step minimumGapS minimumSegmentS still s = { st with gapStart := none, previousT := some s.t } := by
  simp only [SplitState.step, hgap, hmoving, hprevious, Option.getD_some, Bool.false_eq_true, if_false]
  rw [if_neg hcut]

/-- **After the samples so far.** The last one is known; outside a stop it moves, and a stop is known with its start; the
ranges are apart, before the current segment. -/
structure Walked (activeStart : ℚ) (xs : List Sample) (still : Sample → Bool) (st : SplitState) : Prop where
  previous : st.previousT = xs.getLast?.map Sample.t
  between : st.gapStart = none → ∀ s ∈ xs.getLast?, still s = false
  stopped : ∀ u, st.gapStart = some u → ∃ front stop, xs = front ++ stop ∧ stop ≠ [] ∧ (∀ s ∈ stop, still s = true) ∧
    (∀ s ∈ front.getLast?, still s = false) ∧ stopStart front stop = some u
  starts : activeStart ≤ st.segmentStart
  unstarted : st.ranges = [] → st.segmentStart = activeStart
  fresh : st.previousT = none → st.segmentStart = activeStart
  reached : ∀ p, st.previousT = some p → st.segmentStart ≤ p
  gap : ∀ u, st.gapStart = some u → st.segmentStart ≤ u ∧ ∃ p, st.previousT = some p ∧ u ≤ p
  apart : Separated st.ranges
  inside : ∀ r ∈ st.ranges, activeStart ≤ r.1 ∧ r.1 ≤ r.2 ∧ r.2 < st.segmentStart

theorem walked_nil (activeStart : ℚ) : Walked activeStart [] still { segmentStart := activeStart } where
  previous := rfl
  between := by simp
  stopped := by simp
  starts := le_rfl
  unstarted := fun _ => rfl
  fresh := fun _ => rfl
  reached := by simp
  gap := by simp
  apart := List.Pairwise.nil
  inside := by simp

theorem Walked.le_next {activeStart : ℚ} {xs : List Sample} {st : SplitState} (h : Walked activeStart xs still st) {s : Sample}
    (hstart : activeStart ≤ s.t) (hnext : ∀ p ∈ xs.getLast?, p.t < s.t) : st.segmentStart ≤ s.t := by
  cases hprevious : st.previousT with
  | none => exact (h.fresh hprevious).le.trans hstart
  | some p =>
      obtain ⟨last, hlast, hp⟩ := Option.map_eq_some_iff.mp (h.previous.symm.trans hprevious)
      exact (h.reached p hprevious).trans (hp ▸ (hnext last hlast).le)

/-- A step that leaves the ranges and the segment. -/
theorem Walked.extend {activeStart : ℚ} {xs : List Sample} {st st' : SplitState} (h : Walked activeStart xs still st)
    {s : Sample}
    (hstart : activeStart ≤ s.t) (hnext : ∀ p ∈ xs.getLast?, p.t < s.t) (hranges : st'.ranges = st.ranges)
    (hsegment : st'.segmentStart = st.segmentStart) (hprevious : st'.previousT = some s.t)
    (hbetween : st'.gapStart = none → still s = false)
    (hstopped : ∀ u, st'.gapStart = some u → ∃ front stop, xs ++ [s] = front ++ stop ∧ stop ≠ [] ∧
      (∀ s ∈ stop, still s = true) ∧ (∀ s ∈ front.getLast?, still s = false) ∧ stopStart front stop = some u)
    (hgap : ∀ u, st'.gapStart = some u → st.segmentStart ≤ u ∧ u ≤ s.t) : Walked activeStart (xs ++ [s]) still st' where
  previous := by simpa using hprevious
  between := by simpa using hbetween
  stopped := hstopped
  starts := hsegment ▸ h.starts
  unstarted := by rw [hsegment, hranges]; exact h.unstarted
  fresh := by simp [hprevious]
  reached := by
    intro p hp
    obtain rfl : s.t = p := Option.some.inj (hprevious.symm.trans hp)
    rw [hsegment]
    exact h.le_next hstart hnext
  gap := by
    intro u hu
    rw [hsegment]
    exact ⟨(hgap u hu).1, s.t, hprevious, (hgap u hu).2⟩
  apart := hranges ▸ h.apart
  inside := by rw [hsegment, hranges]; exact h.inside

/-- **One sample.** -/
theorem Walked.step {activeStart : ℚ} {xs : List Sample} {st : SplitState} (h : Walked activeStart xs still st) {s : Sample}
    (hstart : activeStart ≤ s.t) (hnext : ∀ p ∈ xs.getLast?, p.t < s.t) :
    Walked activeStart (xs ++ [s]) still (st.step minimumGapS minimumSegmentS still s) := by
  cases hgap : st.gapStart with
  | none =>
      cases hstill : still s with
      | true =>
          -- a stop begins, at the sample before this one
          rw [step_still_first hstill hgap]
          have hstarts : stopStart xs [s] = some (st.previousT.getD s.t) := by
            rw [h.previous, stopStart]
            cases xs.getLast? <;> rfl
          refine h.extend hstart hnext rfl rfl rfl (by simp) ?_ ?_
          · rintro u hu
            obtain rfl : st.previousT.getD s.t = u := Option.some.inj hu
            exact ⟨xs, [s], rfl, by simp, by simpa using hstill, h.between hgap, hstarts⟩
          · rintro u hu
            obtain rfl : st.previousT.getD s.t = u := Option.some.inj hu
            cases hprevious : st.previousT with
            | none => exact ⟨h.le_next hstart hnext, le_rfl⟩
            | some p =>
                obtain ⟨last, hlast, hp⟩ := Option.map_eq_some_iff.mp (h.previous.symm.trans hprevious)
                exact ⟨h.reached p hprevious, hp ▸ (hnext last hlast).le⟩
      | false =>
          rw [step_moving hstill hgap]
          exact h.extend hstart hnext rfl rfl rfl (fun _ => hstill) (by simp [hgap]) (by simp [hgap])
  | some u =>
      obtain ⟨hseg, p, hprevious, hup⟩ := h.gap u hgap
      obtain ⟨last, hlast, hp⟩ := Option.map_eq_some_iff.mp (h.previous.symm.trans hprevious)
      have hps : p < s.t := hp ▸ hnext last hlast
      cases hstill : still s with
      | true =>
          rw [step_still_next hstill hgap]
          obtain ⟨front, stop, hsplit, hne, hstands, hbefore, hstarts⟩ := h.stopped u hgap
          have hhead : (stop ++ [s]).head? = stop.head? := by
            cases stop with
            | nil => exact absurd rfl hne
            | cons first more => rfl
          refine h.extend hstart hnext rfl rfl rfl (by simp [hgap]) ?_ ?_
          · rintro u' hu'
            obtain rfl : u = u' := Option.some.inj (hgap.symm.trans hu')
            refine ⟨front, stop ++ [s], by rw [hsplit, List.append_assoc], by simp, ?_, hbefore, ?_⟩
            · simpa [or_imp, forall_and] using ⟨hstands, hstill⟩
            · rw [stopStart, hhead]
              exact hstarts
          · rintro u' hu'
            obtain rfl : u = u' := Option.some.inj (hgap.symm.trans hu')
            exact ⟨hseg, hup.trans hps.le⟩
      | false =>
          by_cases hcut : st.Cuts minimumGapS minimumSegmentS u p
          · -- the stop is cut: its segment is a range, the next one begins here
            rw [step_cut hstill hgap hprevious hcut]
            refine
              { previous := by simp
                between := by simpa using hstill
                stopped := by simp
                starts := hstart
                unstarted := by simp
                fresh := by simp
                reached := by simp
                gap := by simp
                apart := List.pairwise_append.mpr ⟨h.apart, List.pairwise_singleton _ _, ?_⟩
                inside := ?_ }
            · intro r hr r' hr'
              obtain rfl := List.mem_singleton.mp hr'
              exact (h.inside r hr).2.2
            · intro r hr
              rcases List.mem_append.mp hr with hr | hr
              · obtain ⟨hin, hle, hlt⟩ := h.inside r hr
                exact ⟨hin, hle, hlt.trans_le (h.le_next hstart hnext)⟩
              · obtain rfl := List.mem_singleton.mp hr
                exact ⟨h.starts, hseg, hup.trans_lt hps⟩
          · rw [step_uncut hstill hgap hprevious hcut]
            exact h.extend hstart hnext rfl rfl rfl (fun _ => hstill) (by simp) (by simp)

/-- **A run over samples in the order of their times.** -/
theorem Walked.run {activeStart : ℚ} (ys : List Sample) {xs : List Sample} {st : SplitState}
    (h : Walked activeStart xs still st)
    (hsorted : (xs ++ ys).Pairwise fun s s' => s.t < s'.t) (hstart : ∀ s ∈ ys, activeStart ≤ s.t) :
    Walked activeStart (xs ++ ys) still (ys.foldl (SplitState.step minimumGapS minimumSegmentS still) st) := by
  induction ys generalizing xs st with
  | nil => simpa using h
  | cons s ys ih =>
      have hnext : ∀ p ∈ xs.getLast?, p.t < s.t := fun p hp =>
        (List.pairwise_append.mp hsorted).2.2 p (List.mem_of_getLast? hp) s List.mem_cons_self
      have hsplit : xs ++ s :: ys = xs ++ [s] ++ ys := by simp
      rw [hsplit] at hsorted ⊢
      exact ih (h.step (hstart s List.mem_cons_self) hnext) hsorted fun s' hs' => hstart s' (List.mem_cons_of_mem _ hs')

/-! ## At a stop -/

/-- What one sample adds: a range from the current segment's start, and the next segment begins at the sample. -/
theorem step_frame (minimumGapS minimumSegmentS : ℚ) (still : Sample → Bool) (st : SplitState) (s : Sample) :
    ∃ new, (st.step minimumGapS minimumSegmentS still s).ranges = st.ranges ++ new ∧ (∀ r ∈ new, r.1 = st.segmentStart) ∧
      ((st.step minimumGapS minimumSegmentS still s).segmentStart = st.segmentStart ∨
        (st.step minimumGapS minimumSegmentS still s).segmentStart = s.t) := by
  have hkept (st' : SplitState) (hranges : st'.ranges = st.ranges) (hsegment : st'.segmentStart = st.segmentStart) :
      ∃ new, st'.ranges = st.ranges ++ new ∧ (∀ r ∈ new, r.1 = st.segmentStart) ∧
        (st'.segmentStart = st.segmentStart ∨ st'.segmentStart = s.t) :=
    ⟨[], by simpa using hranges, by simp, Or.inl hsegment⟩
  cases hgap : st.gapStart with
  | none =>
      cases hstill : still s with
      | true => exact step_still_first hstill hgap ▸ hkept _ rfl rfl
      | false => exact step_moving hstill hgap ▸ hkept _ rfl rfl
  | some u =>
      cases hstill : still s with
      | true => exact step_still_next hstill hgap ▸ hkept _ rfl rfl
      | false =>
          simp only [SplitState.step, hgap, hstill, Bool.false_eq_true, if_false]
          split
          · exact ⟨[(st.segmentStart, u)], rfl, by simp, Or.inr rfl⟩
          · exact hkept _ rfl rfl

/-- **The frame of a run**: ranges are added, from the current segment or from a sample of the run. -/
theorem run_frame (minimumGapS minimumSegmentS : ℚ) (still : Sample → Bool) (ys : List Sample) (st : SplitState) :
    ∃ new, (ys.foldl (SplitState.step minimumGapS minimumSegmentS still) st).ranges = st.ranges ++ new ∧
      (∀ r ∈ new, r.1 = st.segmentStart ∨ ∃ s ∈ ys, r.1 = s.t) ∧
      ((ys.foldl (SplitState.step minimumGapS minimumSegmentS still) st).segmentStart = st.segmentStart ∨
        ∃ s ∈ ys, (ys.foldl (SplitState.step minimumGapS minimumSegmentS still) st).segmentStart = s.t) := by
  induction ys generalizing st with
  | nil => exact ⟨[], by simp, by simp, Or.inl rfl⟩
  | cons s ys ih =>
      obtain ⟨first, hfirst, hfrom, hseg⟩ := step_frame minimumGapS minimumSegmentS still st s
      obtain ⟨more, hmore, hmoreFrom, hmoreSeg⟩ := ih (st.step minimumGapS minimumSegmentS still s)
      have hlift {t : ℚ} (h : t = (st.step minimumGapS minimumSegmentS still s).segmentStart ∨ ∃ s' ∈ ys, t = s'.t) :
          t = st.segmentStart ∨ ∃ s' ∈ s :: ys, t = s'.t := by
        rcases h with h | ⟨s', hs', ht⟩
        · rcases hseg with hseg | hseg
          · exact Or.inl (h.trans hseg)
          · exact Or.inr ⟨s, List.mem_cons_self, h.trans hseg⟩
        · exact Or.inr ⟨s', List.mem_cons_of_mem _ hs', ht⟩
      refine ⟨first ++ more, by rw [List.foldl_cons, hmore, hfirst, List.append_assoc], ?_, hlift hmoreSeg⟩
      intro r hr
      rcases List.mem_append.mp hr with hr | hr
      · exact Or.inl (hfrom r hr)
      · exact hlift (hmoreFrom r hr)

theorem pushed_cut {st : SplitState} {u p : ℚ} (hgap : st.gapStart = some u) (hprevious : st.previousT = some p)
    (hcut : st.Cuts minimumGapS minimumSegmentS u p) (activeEnd : ℚ) :
    st.pushed minimumGapS minimumSegmentS activeEnd = st.ranges ++ [(st.segmentStart, u)] := by
  simp [SplitState.pushed, SplitState.close, hgap, hprevious, hcut.1, hcut.2]

/-- Without a stop to cut at the end, the last segment is a range where it is long enough. -/
theorem pushed_uncut {st : SplitState} (huncut : ∀ u p, st.gapStart = some u → st.previousT = some p →
      ¬ st.Cuts minimumGapS minimumSegmentS u p) (activeEnd : ℚ) :
    st.pushed minimumGapS minimumSegmentS activeEnd =
      st.ranges ++ if minimumSegmentS ≤ activeEnd - st.segmentStart then [(st.segmentStart, activeEnd)] else [] := by
  have hclose : st.close minimumGapS minimumSegmentS = (st.ranges, true) := by
    cases hgap : st.gapStart with
    | none => simp [SplitState.close, hgap]
    | some u =>
        cases hprevious : st.previousT with
        | none => simp [SplitState.close, hgap, hprevious]
        | some p =>
            simp only [SplitState.close, hgap, hprevious]
            exact if_neg (huncut u p hgap hprevious)
  simp only [SplitState.pushed, hclose, true_and]
  split
  · rfl
  · rw [List.append_nil]

theorem pushed_frame (minimumGapS minimumSegmentS : ℚ) (st : SplitState) (activeEnd : ℚ) :
    ∃ new, st.pushed minimumGapS minimumSegmentS activeEnd = st.ranges ++ new ∧ ∀ r ∈ new, r.1 = st.segmentStart := by
  by_cases hcut : ∃ u p, st.gapStart = some u ∧ st.previousT = some p ∧ st.Cuts minimumGapS minimumSegmentS u p
  · obtain ⟨u, p, hgap, hprevious, hcut⟩ := hcut
    exact ⟨_, pushed_cut hgap hprevious hcut activeEnd, by simp⟩
  · refine ⟨_, pushed_uncut (fun u p hgap hprevious hcuts => hcut ⟨u, p, hgap, hprevious, hcuts⟩) activeEnd, ?_⟩
    intro r hr
    split at hr
    · rw [List.mem_singleton.mp hr]
    · cases hr

/-- The frame of a run and of what follows it. -/
theorem run_pushed_frame (minimumGapS minimumSegmentS : ℚ) (still : Sample → Bool) (ys : List Sample) (st : SplitState)
    (activeEnd : ℚ) :
    ∃ new, (ys.foldl (SplitState.step minimumGapS minimumSegmentS still) st).pushed minimumGapS minimumSegmentS activeEnd =
        st.ranges ++ new ∧ ∀ r ∈ new, r.1 = st.segmentStart ∨ ∃ s ∈ ys, r.1 = s.t := by
  obtain ⟨new, hnew, hfrom, hseg⟩ := run_frame minimumGapS minimumSegmentS still ys st
  obtain ⟨last, hlast, hlastFrom⟩ := pushed_frame minimumGapS minimumSegmentS
    (ys.foldl (SplitState.step minimumGapS minimumSegmentS still) st) activeEnd
  refine ⟨new ++ last, by rw [hlast, hnew, List.append_assoc], ?_⟩
  intro r hr
  rcases List.mem_append.mp hr with hr | hr
  · exact hfrom r hr
  · rw [hlastFrom r hr]
    exact hseg

/-- Inside a stop nothing but the last sample changes. -/
theorem run_still (ys : List Sample) (st : SplitState) {u : ℚ} (hgap : st.gapStart = some u)
    (hstands : ∀ s ∈ ys, still s = true) :
    ys.foldl (SplitState.step minimumGapS minimumSegmentS still) st =
      { st with previousT := (ys.getLast?.map Sample.t).or st.previousT } := by
  induction ys generalizing st with
  | nil => rfl
  | cons s ys ih =>
      rw [List.foldl_cons, step_still_next (hstands s List.mem_cons_self) hgap,
        ih { st with previousT := some s.t } hgap fun s' hs' => hstands s' (List.mem_cons_of_mem _ hs')]
      rw [List.getLast?_cons]
      cases ys.getLast? <;> rfl

/-- **A run through a stop.** -/
theorem run_stop {activeStart : ℚ} {front stop : List Sample} {st : SplitState} (h : Walked activeStart front still st)
    (hbefore : ∀ s ∈ front.getLast?, still s = false) (hstands : ∀ s ∈ stop, still s = true) {start finish : ℚ}
    (hstarts : stopStart front stop = some start) (hends : stop.getLast?.map Sample.t = some finish) :
    stop.foldl (SplitState.step minimumGapS minimumSegmentS still) st =
      { st with gapStart := some start, previousT := some finish } := by
  have hgap : st.gapStart = none := by
    cases hgap : st.gapStart with
    | none => rfl
    | some u =>
        -- the last sample would be still
        obtain ⟨f, s, hsplit, hne, hs, -, -⟩ := h.stopped u hgap
        have hlast : front.getLast? = some (s.getLast hne) := by
          rw [hsplit, List.getLast?_append_of_ne_nil f hne, List.getLast?_eq_some_getLast hne]
        have hmoves := hbefore _ hlast
        rw [hs _ (List.getLast_mem hne)] at hmoves
        cases hmoves
  cases stop with
  | nil => cases hends
  | cons first more =>
      have hprevious : st.previousT.getD first.t = start := by
        rw [h.previous]
        rw [stopStart, List.head?_cons] at hstarts
        cases hlast : front.getLast? with
        | none => simpa [hlast] using hstarts
        | some p => simpa [hlast] using hstarts
      rw [List.foldl_cons, step_still_first (hstands first List.mem_cons_self) hgap,
        run_still more _ rfl fun s hs => hstands s (List.mem_cons_of_mem _ hs)]
      rw [← hends, List.getLast?_cons, hprevious]
      cases more.getLast? <;> rfl

/-- **At a long stop**: it is cut and what is pushed later begins behind it, or it is not cut and what is pushed later begins
behind it or where its segment does. -/
theorem stop_cases (minimumGapS minimumSegmentS : ℚ) {activeStart : ℚ} {front stop : List Sample} {st : SplitState}
    (h : Walked activeStart front still st)
    (back : List Sample) {start finish : ℚ} (hbefore : ∀ s ∈ front.getLast?, still s = false)
    (hstands : ∀ s ∈ stop, still s = true) (hafter : ∀ s ∈ back.head?, still s = false)
    (hstarts : stopStart front stop = some start) (hends : stop.getLast?.map Sample.t = some finish) (activeEnd : ℚ) :
    let final := (stop ++ back).foldl (SplitState.step minimumGapS minimumSegmentS still) st
    (st.Cuts minimumGapS minimumSegmentS start finish ∧
        ∃ new, final.pushed minimumGapS minimumSegmentS activeEnd = st.ranges ++ (st.segmentStart, start) :: new ∧
          ∀ r ∈ new, ∃ s ∈ back, r.1 = s.t) ∨
      (¬ st.Cuts minimumGapS minimumSegmentS start finish ∧
        ∃ new, final.pushed minimumGapS minimumSegmentS activeEnd = st.ranges ++ new ∧
          ∀ r ∈ new, r.1 = st.segmentStart ∨ ∃ s ∈ back, r.1 = s.t) := by
  dsimp only
  obtain ⟨stopped, hstopped⟩ : ∃ stopped : SplitState,
      stopped = { st with gapStart := some start, previousT := some finish } := ⟨_, rfl⟩
  rw [List.foldl_append, run_stop h hbefore hstands hstarts hends, ← hstopped]
  have hgap : stopped.gapStart = some start := by rw [hstopped]
  have hprevious : stopped.previousT = some finish := by rw [hstopped]
  have hranges : st.ranges = stopped.ranges := by rw [hstopped]
  have hsegment : st.segmentStart = stopped.segmentStart := by rw [hstopped]
  rw [SplitState.Cuts, hranges, hsegment]
  cases back with
  | nil =>
      by_cases hcut : stopped.Cuts minimumGapS minimumSegmentS start finish
      · exact Or.inl ⟨hcut, [], pushed_cut hgap hprevious hcut activeEnd, by simp⟩
      · obtain ⟨new, hnew, hfrom⟩ := pushed_frame minimumGapS minimumSegmentS stopped activeEnd
        exact Or.inr ⟨hcut, new, hnew, fun r hr => Or.inl (hfrom r hr)⟩
  | cons m back =>
      have hmoving : still m = false := hafter m rfl
      rw [List.foldl_cons]
      by_cases hcut : stopped.Cuts minimumGapS minimumSegmentS start finish
      · rw [step_cut hmoving hgap hprevious hcut]
        obtain ⟨new, hnew, hfrom⟩ := run_pushed_frame minimumGapS minimumSegmentS still back
          { ranges := stopped.ranges ++ [(stopped.segmentStart, start)], segmentStart := m.t, previousT := some m.t } activeEnd
        refine Or.inl ⟨hcut, new, by rw [hnew, List.append_assoc]; rfl, ?_⟩
        intro r hr
        rcases hfrom r hr with hr | ⟨s, hs, hr⟩
        · exact ⟨m, List.mem_cons_self, hr⟩
        · exact ⟨s, List.mem_cons_of_mem _ hs, hr⟩
      · rw [step_uncut hmoving hgap hprevious hcut]
        obtain ⟨new, hnew, hfrom⟩ := run_pushed_frame minimumGapS minimumSegmentS still back
          { stopped with gapStart := none, previousT := some m.t } activeEnd
        refine Or.inr ⟨hcut, new, hnew, ?_⟩
        intro r hr
        rcases hfrom r hr with hr | ⟨s, hs, hr⟩
        · exact Or.inl hr
        · exact Or.inr ⟨s, List.mem_cons_of_mem _ hs, hr⟩

/-- What is pushed for all samples: ascending ranges of the active range that do not touch. -/
theorem pushed_apart (minimumGapS minimumSegmentS : ℚ) {activeStart activeEnd : ℚ} {xs : List Sample} {st : SplitState}
    (h : Walked activeStart xs still st)
    (hend : st.previousT = some activeEnd) :
    Separated (st.pushed minimumGapS minimumSegmentS activeEnd) ∧
      ∀ r ∈ st.pushed minimumGapS minimumSegmentS activeEnd, activeStart ≤ r.1 ∧ r.1 ≤ r.2 ∧ r.2 ≤ activeEnd := by
  have hreached : st.segmentStart ≤ activeEnd := h.reached _ hend
  -- one range behind those of the loop
  have hone (finish : ℚ) (hfrom : st.segmentStart ≤ finish) (hto : finish ≤ activeEnd) :
      Separated (st.ranges ++ [(st.segmentStart, finish)]) ∧
        ∀ r ∈ st.ranges ++ [(st.segmentStart, finish)], activeStart ≤ r.1 ∧ r.1 ≤ r.2 ∧ r.2 ≤ activeEnd := by
    refine ⟨List.pairwise_append.mpr ⟨h.apart, List.pairwise_singleton _ _, ?_⟩, ?_⟩
    · intro r hr r' hr'
      obtain rfl := List.mem_singleton.mp hr'
      exact (h.inside r hr).2.2
    · intro r hr
      rcases List.mem_append.mp hr with hr | hr
      · obtain ⟨hin, hle, hlt⟩ := h.inside r hr
        exact ⟨hin, hle, hlt.le.trans hreached⟩
      · obtain rfl := List.mem_singleton.mp hr
        exact ⟨h.starts, hfrom, hto⟩
  by_cases hcut : ∃ u p, st.gapStart = some u ∧ st.previousT = some p ∧ st.Cuts minimumGapS minimumSegmentS u p
  · obtain ⟨u, p, hgap, hprevious, hcut⟩ := hcut
    rw [pushed_cut hgap hprevious hcut]
    obtain ⟨hseg, p', hp', hup⟩ := h.gap u hgap
    obtain rfl : activeEnd = p' := Option.some.inj (hend.symm.trans hp')
    exact hone u hseg hup
  · rw [pushed_uncut fun u p hgap hprevious hcuts => hcut ⟨u, p, hgap, hprevious, hcuts⟩]
    split
    · exact hone activeEnd hreached le_rfl
    · rw [List.append_nil]
      refine ⟨h.apart, fun r hr => ?_⟩
      obtain ⟨hin, hle, hlt⟩ := h.inside r hr
      exact ⟨hin, hle, hlt.le.trans hreached⟩

end Pass

/-! ## The law holds -/

section Holds
variable {still : Sample → Bool} {minimumGapS minimumSegmentS : ℚ}

/-- The loop over the samples of the active range. -/
abbrev splitRun (minimumGapS minimumSegmentS : ℚ) (still : Sample → Bool) (activeStart : ℚ) (xs : List Sample) : SplitState :=
  xs.foldl (SplitState.step minimumGapS minimumSegmentS still) { segmentStart := activeStart }

theorem walked_run {activeStart : ℚ} {xs : List Sample} (hsorted : xs.Pairwise fun s s' => s.t < s'.t)
    (hstart : ∀ s ∈ xs, activeStart ≤ s.t) :
    Walked activeStart xs still (splitRun minimumGapS minimumSegmentS still activeStart xs) :=
  (walked_nil activeStart).run xs hsorted hstart

/-- Samples in the order of their times, from the start of the active range to its end. -/
structure Active (xs : List Sample) (activeStart activeEnd : ℚ) : Prop where
  sorted : xs.Pairwise fun s s' => s.t < s'.t
  start : ∀ s ∈ xs, activeStart ≤ s.t
  first : xs.head?.map Sample.t = some activeStart
  finish : xs.getLast?.map Sample.t = some activeEnd

theorem Active.walked {xs front back : List Sample} {activeStart activeEnd : ℚ} (h : Active xs activeStart activeEnd)
    (hsplit : xs = front ++ back) :
    Walked activeStart front still (splitRun minimumGapS minimumSegmentS still activeStart front) :=
  walked_run (List.pairwise_append.mp (hsplit ▸ h.sorted)).1 fun s hs => h.start s (hsplit ▸ List.mem_append_left _ hs)

theorem Active.before_back {xs front stop back : List Sample} {activeStart activeEnd : ℚ} (h : Active xs activeStart activeEnd)
    (hsplit : xs = front ++ (stop ++ back)) : ∀ s ∈ stop, ∀ s' ∈ back, s.t < s'.t := by
  have hsorted := (List.pairwise_append.mp (hsplit ▸ h.sorted)).2.1
  exact (List.pairwise_append.mp hsorted).2.2

/-- **A range that contains a long stop** begins less than a shortest segment before it. -/
theorem pushed_stop (minimumSegmentS : ℚ) {xs front stop back : List Sample} {activeStart activeEnd start finish : ℚ}
    (h : Active xs activeStart activeEnd) (hstop : IsLongStop still minimumGapS xs front stop back start finish) {r : ℚ × ℚ}
    (hr : r ∈ (splitRun minimumGapS minimumSegmentS still activeStart xs).pushed minimumGapS minimumSegmentS activeEnd ∨
      (splitRun minimumGapS minimumSegmentS still activeStart xs).pushed minimumGapS minimumSegmentS activeEnd = [] ∧
        r.1 = activeStart) (hlt : r.1 < r.2)
    (hcontains : ∀ s ∈ stop, r.1 ≤ s.t ∧ s.t ≤ r.2) : start - r.1 < minimumSegmentS := by
  have hwalked : Walked activeStart front still (splitRun minimumGapS minimumSegmentS still activeStart front) :=
    h.walked hstop.split
  obtain ⟨last, hlast, rfl⟩ := Option.map_eq_some_iff.mp hstop.ends
  have hmem : last ∈ stop := List.mem_of_getLast? hlast
  have hback : ∀ s ∈ back, last.t < s.t := h.before_back hstop.split last hmem
  obtain ⟨hle, hge⟩ := hcontains last hmem
  have hnext : ∀ p ∈ front.getLast?, p.t < last.t := by
    intro p hp
    exact (List.pairwise_append.mp (hstop.split ▸ h.sorted)).2.2 p (List.mem_of_getLast? hp) last (List.mem_append_left _ hmem)
  -- no range of the front reaches the stop
  have hfront : ∀ r' ∈ (splitRun minimumGapS minimumSegmentS still activeStart front).ranges, r'.2 < last.t := by
    intro r' hr'
    have hstart : activeStart ≤ last.t :=
      h.start last (hstop.split ▸ List.mem_append_right _ (List.mem_append_left _ hmem))
    exact (hwalked.inside r' hr').2.2.trans_le (hwalked.le_next hstart hnext)
  have hcases := stop_cases minimumGapS minimumSegmentS hwalked back hstop.before
    hstop.stands hstop.after hstop.starts hstop.ends activeEnd
  dsimp only at hcases
  rw [← List.foldl_append, ← hstop.split] at hcases
  rcases hcases with ⟨hcut, new, hpushed, hfrom⟩ | ⟨huncut, new, hpushed, hfrom⟩
  · rw [hpushed] at hr
    rcases hr with hr | ⟨hnil, -⟩
    · rcases List.mem_append.mp hr with hr | hr
      · exact absurd hge (not_le.mpr (hfront r hr))
      · rcases List.mem_cons.mp hr with rfl | hr
        · -- the range up to the stop: it holds no sample of the stop, or it is empty
          obtain ⟨s, hs, hst⟩ := Option.map_eq_some_iff.mp hstop.starts
          cases hfrontLast : front.getLast? with
          | some p =>
              rw [hfrontLast, Option.some_or, Option.some.injEq] at hs
              exact absurd hge (not_le.mpr (hst ▸ hs ▸ hnext p hfrontLast))
          | none =>
              obtain rfl : front = [] := List.getLast?_eq_none_iff.mp hfrontLast
              have hfirst := h.first
              rw [hstop.split, List.nil_append, List.head?_append, show stop.head? = some s from hs] at hfirst
              have hstart : s.t = activeStart := Option.some.inj hfirst
              exact absurd hlt (not_lt.mpr (hst ▸ hstart.le))
        · obtain ⟨s, hs, hrs⟩ := hfrom r hr
          exact absurd hle (not_le.mpr (hrs ▸ hback s hs))
    · simp at hnil
  · have hshort : start - (splitRun minimumGapS minimumSegmentS still activeStart front).segmentStart < minimumSegmentS := by
      by_contra hlong
      exact huncut ⟨hstop.long, not_lt.mp hlong⟩
    rw [hpushed] at hr
    rcases hr with hr | ⟨hnil, hr⟩
    · rcases List.mem_append.mp hr with hr | hr
      · exact absurd hge (not_le.mpr (hfront r hr))
      · rcases hfrom r hr with hr | ⟨s, hs, hrs⟩
        · exact hr ▸ hshort
        · exact absurd hle (not_le.mpr (hrs ▸ hback s hs))
    · rw [hr, ← hwalked.unstarted (List.append_eq_nil_iff.mp hnil).1]
      exact hshort

/-- **No stop of a stretch is cut**: a stop that the loop is in at a moving sample, or at the end, is not long. -/
theorem stretch_stop (minimumSegmentS : ℚ) {xs front part back : List Sample} {activeStart activeEnd first last : ℚ}
    (h : Active xs activeStart activeEnd)
    (hstretch : IsStretch still minimumGapS xs front part back first last) {p q : List Sample} (hpart : part = p ++ q)
    (hp : p ≠ [])
    (hafter : ∀ s ∈ (q ++ back).head?, still s = false) (u t : ℚ)
    (hgap : (splitRun minimumGapS minimumSegmentS still activeStart (front ++ p)).gapStart = some u)
    (hprevious : (splitRun minimumGapS minimumSegmentS still activeStart (front ++ p)).previousT = some t) :
    ¬ minimumGapS ≤ t - u := by
  intro hlong
  have hsplit : xs = (front ++ p) ++ (q ++ back) := by rw [hstretch.split, hpart]; simp
  have hwalked : Walked activeStart (front ++ p) still (splitRun minimumGapS minimumSegmentS still activeStart (front ++ p)) :=
    h.walked hsplit
  obtain ⟨f, stop, hfs, hne, hstands, hbefore, hstarts⟩ := hwalked.stopped u hgap
  have hends : stop.getLast?.map Sample.t = some t := by
    rw [← hprevious, hwalked.previous, hfs, List.getLast?_append_of_ne_nil f hne]
  refine hstretch.moves f stop (q ++ back) u t
    ⟨by rw [hsplit, hfs, List.append_assoc], hstands, hbefore, hafter, hstarts, hends, hlong⟩ ⟨?_, ?_⟩
  · rcases List.append_eq_append_iff.mp hfs with ⟨c, hf, -⟩ | ⟨c, hf, hc⟩
    · rw [hf, List.length_append]
      exact Nat.le_add_right _ _
    · -- the stop would hold the first sample of the stretch
      rcases hstretch.opens with hfront | ⟨f', s', start, finish, -, hopen⟩
      · simp [hfront]
      · obtain ⟨s, hs⟩ : ∃ s, p.head? = some s := ⟨p.head hp, List.head?_eq_some_head hp⟩
        have hmoving : still s = false := hopen.after s (by rw [hpart]; simp [hs])
        have hstill : still s = true := hstands s (hc ▸ List.mem_append_right _ (List.mem_of_mem_head? hs))
        rw [hstill] at hmoving
        cases hmoving
  · rw [← hfs, hpart, List.length_append, List.length_append, List.length_append]
    omega

/-- **Inside a stretch** the current segment began no later than the stretch. -/
theorem stretch_segment {xs front part back : List Sample} {activeStart activeEnd first last : ℚ}
    (h : Active xs activeStart activeEnd) (hstretch : IsStretch still minimumGapS xs front part back first last)
    {p q : List Sample} (hpart : part = p ++ q) (hp : p ≠ []) :
    (splitRun minimumGapS minimumSegmentS still activeStart (front ++ p)).segmentStart ≤ first := by
  induction p using List.reverseRecOn generalizing q with
  | nil => exact absurd rfl hp
  | append_singleton p s ih =>
      have hsplit : xs = (front ++ (p ++ [s])) ++ (q ++ back) := by rw [hstretch.split, hpart]; simp
      have hwalked : Walked activeStart (front ++ (p ++ [s])) still
          (splitRun minimumGapS minimumSegmentS still activeStart (front ++ (p ++ [s]))) := h.walked hsplit
      by_cases hne : p = []
      · have hfirst : s.t = first := by simpa [hpart, hne] using hstretch.starts
        exact hfirst ▸ hwalked.reached s.t (by rw [hwalked.previous]; simp)
      · have hpart' : part = p ++ s :: q := by rw [hpart]; simp
        have hsegment := ih hpart' hne
        have hbefore : Walked activeStart (front ++ p) still
            (splitRun minimumGapS minimumSegmentS still activeStart (front ++ p)) :=
          h.walked (hsplit.trans (by simp) : xs = (front ++ p) ++ ([s] ++ (q ++ back)))
        have hshort (hmoving : still s = false) (u t : ℚ) := stretch_stop minimumSegmentS h hstretch hpart' hne
          (by simpa using hmoving) u t
        have hrun : splitRun minimumGapS minimumSegmentS still activeStart (front ++ (p ++ [s])) =
            (splitRun minimumGapS minimumSegmentS still activeStart (front ++ p)).step minimumGapS minimumSegmentS still s := by
          rw [splitRun, ← List.append_assoc, List.foldl_append]
          rfl
        rw [hrun]
        obtain ⟨st, hst⟩ : ∃ st, st = splitRun minimumGapS minimumSegmentS still activeStart (front ++ p) := ⟨_, rfl⟩
        rw [← hst] at hsegment hbefore hshort ⊢
        -- the segment changes only where a stop is cut
        cases hgap : st.gapStart with
        | none =>
            cases hstill : still s with
            | true => exact step_still_first hstill hgap ▸ hsegment
            | false => exact step_moving hstill hgap ▸ hsegment
        | some u =>
            cases hstill : still s with
            | true => exact step_still_next hstill hgap ▸ hsegment
            | false =>
                obtain ⟨-, t, hprevious, -⟩ := hbefore.gap u hgap
                exact step_uncut hstill hgap hprevious (fun hcut => hshort hstill u t hgap hprevious hcut.1) ▸ hsegment

/-- **A long stretch is in a range.** -/
theorem pushed_stretch (minimumSegmentS : ℚ) {xs front part back : List Sample} {activeStart activeEnd first last : ℚ}
    (h : Active xs activeStart activeEnd) (hstretch : IsStretch still minimumGapS xs front part back first last)
    (hlong : minimumSegmentS ≤ last - first) :
    ∃ r ∈ (splitRun minimumGapS minimumSegmentS still activeStart xs).pushed minimumGapS minimumSegmentS activeEnd,
      r.1 ≤ first ∧ last ≤ r.2 := by
  have hne : part ≠ [] := by
    rintro rfl
    cases hstretch.starts
  have hpart : part = part ++ [] := by rw [List.append_nil]
  have hsegment : (splitRun minimumGapS minimumSegmentS still activeStart (front ++ part)).segmentStart ≤ first :=
    stretch_segment h hstretch hpart hne
  have hlast : (front ++ part).getLast?.map Sample.t = some last := by
    rw [List.getLast?_append_of_ne_nil front hne]
    exact hstretch.ends
  rcases hstretch.closes with rfl | ⟨stop, rest, start, finish, rfl, hstop⟩
  · have hxs : xs = front ++ part := by rw [hstretch.split, List.append_nil]
    have hend : last = activeEnd := Option.some.inj (hlast.symm.trans (hxs ▸ h.finish))
    rw [hxs, pushed_uncut fun u t hgap hprevious hcut =>
      stretch_stop minimumSegmentS h hstretch hpart hne (by simp) u t hgap hprevious hcut.1]
    refine ⟨(_, activeEnd), List.mem_append_right _ ?_, hsegment, hend.le⟩
    rw [if_pos (hend ▸ hlong.trans (sub_le_sub_left hsegment last))]
    exact List.mem_singleton_self _
  · have hwalked : Walked activeStart (front ++ part) still
        (splitRun minimumGapS minimumSegmentS still activeStart (front ++ part)) := h.walked hstop.split
    have hstart : start = last := by
      obtain ⟨s, hs, hst⟩ := Option.map_eq_some_iff.mp hlast
      have := hstop.starts
      rw [stopStart, hs, Option.some_or] at this
      exact (Option.some.inj this).symm.trans hst
    have hcases := stop_cases minimumGapS minimumSegmentS hwalked rest hstop.before
      hstop.stands hstop.after hstop.starts hstop.ends activeEnd
    dsimp only at hcases
    rw [← List.foldl_append, ← hstop.split] at hcases
    rcases hcases with ⟨-, new, hpushed, -⟩ | ⟨huncut, -⟩
    · exact ⟨_, hpushed ▸ List.mem_append_right _ List.mem_cons_self, hsegment, hstart.ge⟩
    · exact absurd ⟨hstop.long, hstart ▸ hlong.trans (sub_le_sub_left hsegment last)⟩ huncut

end Holds

/-! ## The samples of the active range -/

variable {lower : String → String}

/-- The samples of a range of times. -/
def samplesIn (activeStart activeEnd : ℚ) (samples : List Sample) : List Sample :=
  samples.filter fun s => decide (activeStart ≤ s.t ∧ s.t ≤ activeEnd)

/-- The loop reads the samples of the active range. -/
theorem splitLoop_eq {minimumGapS minimumSegmentS : ℚ} {still : Sample → Bool} (activeStart activeEnd : ℚ)
    (samples : List Sample) (st : SplitState) (hsorted : samples.Pairwise fun s s' => s.t < s'.t) :
    splitLoop minimumGapS minimumSegmentS still activeStart activeEnd samples st =
      (samplesIn activeStart activeEnd samples).foldl (SplitState.step minimumGapS minimumSegmentS still) st := by
  induction samples generalizing st with
  | nil => rfl
  | cons s samples ih =>
      obtain ⟨hlater, hrest⟩ := List.pairwise_cons.mp hsorted
      rw [splitLoop, samplesIn]
      by_cases hbefore : s.t < activeStart
      · rw [if_pos hbefore, List.filter_cons_of_neg (by simp [hbefore])]
        exact ih st hrest
      · rw [if_neg hbefore]
        by_cases hbehind : activeEnd < s.t
        · -- every later sample is behind the active range
          have hnil : (s :: samples).filter (fun s => decide (activeStart ≤ s.t ∧ s.t ≤ activeEnd)) = [] := by
            refine List.filter_eq_nil_iff.mpr ?_
            intro s' hs'
            have hle : s.t ≤ s'.t := by
              rcases List.mem_cons.mp hs' with rfl | hs'
              · exact le_rfl
              · exact (hlater s' hs').le
            simpa using fun _ => hbehind.trans_le hle
          rw [if_pos hbehind, hnil]
          rfl
        · rw [if_neg hbehind, List.filter_cons_of_pos (by simp [not_lt.mp hbefore, not_lt.mp hbehind])]
          exact ih _ hrest

theorem head?_of_least {samples : List Sample} (hsorted : samples.Pairwise fun s s' => s.t < s'.t) {a : Sample}
    (ha : a ∈ samples)
    (hleast : ∀ s ∈ samples, a.t ≤ s.t) : samples.head? = some a := by
  cases samples with
  | nil => cases ha
  | cons s samples =>
      rcases List.mem_cons.mp ha with rfl | ha
      · rfl
      · exact absurd (hleast s List.mem_cons_self) (not_le.mpr ((List.pairwise_cons.mp hsorted).1 a ha))

theorem getLast?_of_greatest {samples : List Sample} (hsorted : samples.Pairwise fun s s' => s.t < s'.t) {b : Sample}
    (hb : b ∈ samples) (hgreatest : ∀ s ∈ samples, s.t ≤ b.t) : samples.getLast? = some b := by
  rcases List.eq_nil_or_concat samples with rfl | ⟨front, s, rfl⟩
  · cases hb
  · rw [List.concat_eq_append] at hsorted hb hgreatest ⊢
    rcases List.mem_append.mp hb with hfront | hlast
    · have hlt : b.t < s.t := (List.pairwise_append.mp hsorted).2.2 b hfront s (List.mem_singleton_self s)
      exact absurd (hgreatest s (by simp)) (not_le.mpr hlt)
    · rw [List.mem_singleton.mp hlast, List.getLast?_concat]

/-- In order, the first time is at most the last. -/
theorem head_le_getLast {samples : List Sample} (hsorted : samples.Pairwise fun s s' => s.t < s'.t) {a b : Sample}
    (ha : samples.head? = some a) (hb : samples.getLast? = some b) : a.t ≤ b.t := by
  cases samples with
  | nil => cases ha
  | cons s samples =>
      obtain rfl : s = a := Option.some.inj ha
      rcases List.mem_cons.mp (List.mem_of_getLast? hb) with rfl | hmem
      · exact le_rfl
      · exact ((List.pairwise_cons.mp hsorted).1 b hmem).le

/-- The active range runs from a sample to a sample. -/
theorem detectActiveRange_mem {c : Channel} (hsorted : c.samples.Pairwise fun s s' => s.t < s'.t) {activeStart activeEnd : ℚ}
    (hactive : detectActiveRange lower c = some (activeStart, activeEnd)) :
    ∃ a ∈ c.samples, ∃ b ∈ c.samples, a.t = activeStart ∧ b.t = activeEnd ∧ a.t ≤ b.t := by
  have hfilter : (c.samples.filter (moving lower c)).Pairwise fun s s' => s.t < s'.t := hsorted.sublist List.filter_sublist
  rw [detectActiveRange] at hactive
  cases hhead : c.samples.head? with
  | none => simp [hhead] at hactive
  | some start =>
      cases hlast : c.samples.getLast? with
      | none => simp [hhead, hlast] at hactive
      | some finish =>
          simp only [hhead, hlast] at hactive
          split at hactive
          next first last hfirst hfinal =>
            cases hactive
            exact ⟨first, List.mem_of_mem_filter (List.mem_of_mem_head? hfirst), last,
              List.mem_of_mem_filter (List.mem_of_getLast? hfinal), rfl, rfl, head_le_getLast hfilter hfirst hfinal⟩
          next =>
            cases hactive
            exact ⟨start, List.mem_of_mem_head? hhead, finish, List.mem_of_getLast? hlast, rfl, rfl,
              head_le_getLast hsorted hhead hlast⟩

theorem active_samplesIn {c : Channel} (hsorted : c.samples.Pairwise fun s s' => s.t < s'.t) {activeStart activeEnd : ℚ}
    (hactive : detectActiveRange lower c = some (activeStart, activeEnd)) :
    Active (samplesIn activeStart activeEnd c.samples) activeStart activeEnd := by
  obtain ⟨a, ha, b, hb, rfl, rfl, hab⟩ := detectActiveRange_mem hsorted hactive
  have hin : (samplesIn a.t b.t c.samples).Pairwise fun s s' => s.t < s'.t := hsorted.sublist List.filter_sublist
  have hmem (s : Sample) (hs : s ∈ samplesIn a.t b.t c.samples) : a.t ≤ s.t ∧ s.t ≤ b.t := by
    simpa using (List.mem_filter.mp hs).2
  have hain : a ∈ samplesIn a.t b.t c.samples := List.mem_filter.mpr ⟨ha, by simp [hab]⟩
  have hbin : b ∈ samplesIn a.t b.t c.samples := List.mem_filter.mpr ⟨hb, by simp [hab]⟩
  refine ⟨hin, fun s hs => (hmem s hs).1, ?_, ?_⟩
  · rw [head?_of_least hin hain fun s hs => (hmem s hs).1]
    rfl
  · rw [getLast?_of_greatest hin hbin fun s hs => (hmem s hs).2]
    rfl

/-- **An automatic split.** -/
theorem split_law {c : Channel} (hsorted : c.samples.Pairwise fun s s' => s.t < s'.t) (minimumGapS minimumSegmentS : ℚ)
    {activeStart activeEnd : ℚ} (hactive : detectActiveRange lower c = some (activeStart, activeEnd)) :
    SplitLaw (fun s => !moving lower c s) minimumGapS minimumSegmentS (samplesIn activeStart activeEnd c.samples)
      activeStart activeEnd (detectSplitRanges lower minimumGapS minimumSegmentS c) := by
  have hin : Active (samplesIn activeStart activeEnd c.samples) activeStart activeEnd := active_samplesIn hsorted hactive
  have hwalked : Walked activeStart (samplesIn activeStart activeEnd c.samples) (fun s => !moving lower c s)
      (splitRun minimumGapS minimumSegmentS (fun s => !moving lower c s) activeStart
        (samplesIn activeStart activeEnd c.samples)) := walked_run hin.sorted hin.start
  obtain ⟨hapart, hinside⟩ := pushed_apart minimumGapS minimumSegmentS hwalked (hwalked.previous.trans hin.finish)
  have hresult : detectSplitRanges lower minimumGapS minimumSegmentS c =
      let ranges := (splitRun minimumGapS minimumSegmentS (fun s => !moving lower c s) activeStart
        (samplesIn activeStart activeEnd c.samples)).pushed minimumGapS minimumSegmentS activeEnd
      if ranges = [] ∧ activeStart < activeEnd then [(activeStart, activeEnd)] else normalizeRanges ranges := by
    simp only [detectSplitRanges, hactive, splitLoop_eq activeStart activeEnd c.samples _ hsorted]
  dsimp only at hresult
  obtain ⟨ranges, hranges⟩ : ∃ ranges, ranges = (splitRun minimumGapS minimumSegmentS (fun s => !moving lower c s) activeStart
    (samplesIn activeStart activeEnd c.samples)).pushed minimumGapS minimumSegmentS activeEnd := ⟨_, rfl⟩
  rw [← hranges] at hresult hapart hinside
  rw [hresult, normalizeRanges_apart hapart fun r hr => (hinside r hr).2.1]
  by_cases hnone : ranges = [] ∧ activeStart < activeEnd
  · -- nothing qualified: the whole range
    obtain ⟨hnil, hlt⟩ := hnone
    rw [if_pos ⟨hnil, hlt⟩]
    refine ⟨by simpa using hlt, List.pairwise_singleton _ _, ?_, ?_⟩
    · intro front stop back start finish hlong r hr hcontains
      obtain rfl := List.mem_singleton.mp hr
      exact pushed_stop minimumSegmentS hin hlong (Or.inr ⟨hranges ▸ hnil, rfl⟩) hlt hcontains
    · intro front part back first last hpart _ hlong
      obtain ⟨r, hr, -⟩ := pushed_stretch minimumSegmentS hin hpart hlong
      rw [← hranges, hnil] at hr
      cases hr
  · rw [if_neg hnone]
    refine ⟨?_, hapart.sublist List.filter_sublist, ?_, ?_⟩
    · intro r hr
      obtain ⟨hmem, hlt⟩ := List.mem_filter.mp hr
      exact ⟨(hinside r hmem).1, of_decide_eq_true hlt, (hinside r hmem).2.2⟩
    · intro front stop back start finish hlong r hr hcontains
      obtain ⟨hmem, hlt⟩ := List.mem_filter.mp hr
      exact pushed_stop minimumSegmentS hin hlong (Or.inl (hranges ▸ hmem)) (of_decide_eq_true hlt) hcontains
    · intro front part back first last hpart hlt hlong
      obtain ⟨r, hr, hfirst, hlast⟩ := pushed_stretch minimumSegmentS hin hpart hlong
      exact ⟨r, List.mem_filter.mpr ⟨hranges ▸ hr, decide_eq_true (hfirst.trans_lt (hlt.trans_le hlast))⟩, hfirst, hlast⟩

/-- **Automatic splitting**: the law of what it returns, nothing for a channel without samples, and `normalizeRanges`. -/
theorem automatic_split (lower : String → String) (c : Channel) (hsorted : c.samples.Pairwise fun s s' => s.t < s'.t)
    (minimumGapS minimumSegmentS : ℚ) :
    (detectActiveRange lower c = none → detectSplitRanges lower minimumGapS minimumSegmentS c = []) ∧
      (∀ activeStart activeEnd, detectActiveRange lower c = some (activeStart, activeEnd) →
        SplitLaw (fun s => !moving lower c s) minimumGapS minimumSegmentS (samplesIn activeStart activeEnd c.samples)
          activeStart activeEnd (detectSplitRanges lower minimumGapS minimumSegmentS c)) ∧
      ∀ ranges, Separated (normalizeRanges ranges) ∧ (∀ r ∈ normalizeRanges ranges, r.1 < r.2) ∧
        ∀ t, Covers (normalizeRanges ranges) t ↔ ∃ r ∈ ranges, r.1 < r.2 ∧ r.1 ≤ t ∧ t ≤ r.2 := by
  refine ⟨?_, ?_, normalizeRanges_spec⟩
  · intro hnone
    rw [detectSplitRanges, hnone]
  · intro activeStart activeEnd hactive
    exact split_law hsorted minimumGapS minimumSegmentS hactive

/-! ## A short blip -/

/-- A run of five seconds before a stop of twenty-five. -/
def shortBlip : Channel :=
  { name := "run", unit := "state"
    samples := [⟨0, some 1⟩, ⟨5, some 1⟩, ⟨6, some 0⟩, ⟨30, some 0⟩, ⟨31, some 1⟩, ⟨60, some 1⟩, ⟨61, some 0⟩, ⟨90, some 0⟩,
      ⟨91, some 1⟩, ⟨120, some 1⟩] }

theorem shortBlip_samples : shortBlip.samples =
    [⟨0, some 1⟩, ⟨5, some 1⟩, ⟨6, some 0⟩, ⟨30, some 0⟩, ⟨31, some 1⟩, ⟨60, some 1⟩, ⟨61, some 0⟩, ⟨90, some 0⟩,
      ⟨91, some 1⟩, ⟨120, some 1⟩] := rfl

theorem shortBlip_sorted : shortBlip.samples.Pairwise fun s s' => s.t < s'.t := by
  rw [shortBlip_samples]
  norm_num

theorem shortBlip_moving (t x : ℚ) : moving id shortBlip ⟨t, some x⟩ = decide (1 / 2 < |x|) := by
  have hmode : splitMode id shortBlip = .state := by decide
  have hthreshold : motionThreshold id shortBlip = some (1 / 2) := by
    simp [motionThreshold, hmode, shortBlip_samples]
  simp [moving, hmode, hthreshold]

theorem shortBlip_one (t : ℚ) : moving id shortBlip ⟨t, some 1⟩ = true := by
  rw [shortBlip_moving]
  norm_num

theorem shortBlip_zero (t : ℚ) : moving id shortBlip ⟨t, some 0⟩ = false := by
  rw [shortBlip_moving]
  norm_num

theorem shortBlip_active : detectActiveRange id shortBlip = some (0, 120) := by
  simp [detectActiveRange, shortBlip_samples, List.filter, shortBlip_one, shortBlip_zero]

theorem shortBlip_ranges : detectSplitRanges id 12 8 shortBlip = [(0, 60), (91, 120)] := by
  have hpushed :
      (splitLoop 12 8 (fun s => !moving id shortBlip s) 0 120 shortBlip.samples { segmentStart := 0 }).pushed 12 8 120 =
        [(0, 60), (91, 120)] := by
    decide +kernel
  simp only [detectSplitRanges, shortBlip_active, hpushed]
  rw [if_neg (by simp), normalizeRanges_apart] <;> norm_num

/-- The stop behind the blip. -/
theorem shortBlip_stop : IsLongStop (fun s => !moving id shortBlip s) 12 (samplesIn 0 120 shortBlip.samples)
    [⟨0, some 1⟩, ⟨5, some 1⟩] [⟨6, some 0⟩, ⟨30, some 0⟩]
    [⟨31, some 1⟩, ⟨60, some 1⟩, ⟨61, some 0⟩, ⟨90, some 0⟩, ⟨91, some 1⟩, ⟨120, some 1⟩] 5 30 := by
  refine ⟨?_, ?_, ?_, ?_, rfl, rfl, ?_⟩
  · rw [samplesIn, shortBlip_samples]
    norm_num [List.filter]
  · simp [shortBlip_zero]
  · simp [shortBlip_one]
  · simp [shortBlip_one]
  · norm_num

/-- A channel whose samples are in order, at the default thresholds. -/
theorem automatic_split_blip : SplitLaw (fun s => !moving id shortBlip s) 12 8 (samplesIn 0 120 shortBlip.samples) 0 120
    (detectSplitRanges id 12 8 shortBlip) :=
  (automatic_split id shortBlip shortBlip_sorted 12 8).2.1 0 120 shortBlip_active

/-- **A long stop behind a short blip is not cut**, although other ranges were returned. -/
theorem short_blip_uncut :
    ¬ ∀ (c : Channel) (minimumGapS minimumSegmentS activeStart activeEnd : ℚ), (c.samples.Pairwise fun s s' => s.t < s'.t) →
      detectActiveRange id c = some (activeStart, activeEnd) → ∀ front stop back start finish,
        IsLongStop (fun s => !moving id c s) minimumGapS
          (samplesIn activeStart activeEnd c.samples) front stop back start finish →
        ∀ r ∈ detectSplitRanges id minimumGapS minimumSegmentS c, (∀ s ∈ stop, r.1 ≤ s.t ∧ s.t ≤ r.2) →
          detectSplitRanges id minimumGapS minimumSegmentS c = [(activeStart, activeEnd)] := by
  intro h
  have hwhole := h shortBlip 12 8 0 120 shortBlip_sorted shortBlip_active _ _ _ 5 30 shortBlip_stop (0, 60)
    (by rw [shortBlip_ranges]; simp) (by norm_num)
  rw [shortBlip_ranges] at hwhole
  cases hwhole

end Lhre.Motec
