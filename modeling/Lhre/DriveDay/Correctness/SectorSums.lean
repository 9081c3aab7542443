import Lhre.DriveDay.Sectors
import Lhre.Theory.Lines

/-!
# `DriveDay.Correctness.SectorSums` — sectors and the stitched lap

A sector time is taken where the position first goes up through a gate, and the stitched lap cuts where `interp` finds the gate.
The two are apart by the time the lap stands at the gate.

## Contents
- **Laps.** `Steady`.
- **Crossings.** `cross_spec`, `cross_mono`.
- **Interpolation.** `interp_mono`.
- **Standing at a gate.** `standing`, `interp_cross`.
- **Bests.** `fastest_best`, `theo_le`.
- **The stitched lap.** `Stitched`, `stitched_lap`, `stitched_excess`.
- **Consistency.** `Consistent`, `sectors_consistent`.
- **A lap that stands at a gate.** `slowGate`, `stitched_stands`.
-/

namespace Lhre.DriveDay

open Lines

/-! ## Laps -/

/-- A lap whose clock and position never go back, from its start to its duration. -/
structure Steady (l : RawLap) : Prop where
  nonempty : l.points ≠ []
  clock : l.times.Pairwise (· ≤ ·)
  forward : l.positions.Pairwise (· ≤ ·)
  inside : ∀ t ∈ l.times, 0 ≤ t ∧ t ≤ l.dur

theorem RawLap.length_times (l : RawLap) : l.times.length = l.points.length := List.length_map _

theorem RawLap.length_positions (l : RawLap) : l.positions.length = l.points.length := List.length_map _

/-! ## Crossings -/

/-- The position goes up through the gate behind an index. -/
structure CrossesAt (u : List ℚ) (gate : ℚ) (i : ℕ) : Prop where
  below : u.getD i 0 ≤ gate
  above : gate ≤ u.getD (i + 1) 0
  rises : u.getD i 0 < u.getD (i + 1) 0

theorem cross_spec {u t : List ℚ} {gate c : ℚ} (h : cross u t gate = some c) :
    ∃ i, i + 1 < u.length ∧ CrossesAt u gate i ∧ (∀ j < i, ¬ CrossesAt u gate j) ∧
      c = t.getD i 0 + (t.getD (i + 1) 0 - t.getD i 0) * (gate - u.getD i 0) / (u.getD (i + 1) 0 - u.getD i 0) := by
  obtain ⟨i, hfind, hc⟩ := Option.map_eq_some_iff.mp h
  obtain ⟨hi, hmem, hbefore⟩ := List.find?_range_eq_some.mp hfind
  have hlt : i < u.length - 1 := List.mem_range.mp hmem
  simp only [Bool.and_eq_true, decide_eq_true_eq] at hi
  refine ⟨i, by omega, ⟨hi.1.1, hi.1.2, hi.2⟩, ?_, hc.symm⟩
  intro j hj hcross
  have hnot := hbefore j hj
  rw [decide_eq_true hcross.below, decide_eq_true hcross.above, decide_eq_true hcross.rises] at hnot
  cases hnot

section Tables
variable {u t : List ℚ} (hlength : u.length = t.length) (hu : u.Pairwise (· ≤ ·)) (ht : t.Pairwise (· ≤ ·))
include hlength ht

/-- A crossing lies between the two times around it. -/
theorem cross_bounds {gate c : ℚ} (h : cross u t gate = some c) :
    ∃ i, i + 1 < u.length ∧ CrossesAt u gate i ∧ t.getD i 0 ≤ c ∧ c ≤ t.getD (i + 1) 0 := by
  obtain ⟨i, hi, hcross, -, rfl⟩ := cross_spec h
  have hstep : t.getD i 0 ≤ t.getD (i + 1) 0 := getD_mono ht (Nat.le_succ i) (hlength ▸ hi)
  exact ⟨i, hi, hcross, line_bounds hcross.below hcross.above hcross.rises hstep⟩

include hu

/-- **The second gate is crossed after the first.** -/
theorem cross_mono {g0 g1 a b : ℚ} (hg : g0 < g1) (ha : cross u t g0 = some a) (hb : cross u t g1 = some b) : a ≤ b := by
  obtain ⟨i, hi, hcross, -, hia⟩ := cross_spec ha
  obtain ⟨j, hj, hcross', -, hjb⟩ := cross_spec hb
  have hstep (k : ℕ) (hk : k + 1 < u.length) : t.getD k 0 ≤ t.getD (k + 1) 0 := getD_mono ht (Nat.le_succ k) (hlength ▸ hk)
  rcases lt_trichotomy i j with hij | rfl | hji
  · have hbound := (line_bounds hcross.below hcross.above hcross.rises (hstep i hi)).2
    have hbound' := (line_bounds hcross'.below hcross'.above hcross'.rises (hstep j hj)).1
    have hmid : t.getD (i + 1) 0 ≤ t.getD j 0 := getD_mono ht hij (by omega)
    rw [← hia] at hbound
    rw [← hjb] at hbound'
    exact hbound.trans (hmid.trans hbound')
  · rw [hia, hjb]
    exact line_mono hg.le hcross.rises (hstep i hi)
  · -- the position would be past the second gate before the first
    have hmid : u.getD (j + 1) 0 ≤ u.getD i 0 := getD_mono hu hji (by omega)
    exact absurd (hcross'.above.trans (hmid.trans hcross.below)) (not_le.mpr hg)

/-! ## Interpolation -/

/-- **Interpolation over two ascending lists is monotone.** -/
theorem interp_mono {x x' : ℚ} (hxx : x ≤ x') : interp u t x ≤ interp u t x' := by
  have hstep (k : ℕ) (hk : k + 1 < u.length) : t.getD k 0 ≤ t.getD (k + 1) 0 := getD_mono ht (Nat.le_succ k) (hlength ▸ hk)
  have hpoint {i : ℕ} {y : ℚ} (hi : i + 1 < u.length) (hle : u.getD i 0 ≤ y) (hlt : y < u.getD (i + 1) 0) :=
    line_bounds hle hlt.le (hle.trans_lt hlt) (hstep i hi)
  rcases interp_cases u t x with ⟨hx, heq⟩ | ⟨hx0, hx, heq⟩ | ⟨i, hi, hx0, hle, hlt, heq⟩
  · rw [heq]
    rcases interp_cases u t x' with ⟨-, heq'⟩ | ⟨-, -, heq'⟩ | ⟨j, hj, -, hle', hlt', heq'⟩
    · rw [heq']
    · rw [heq']
      rcases Nat.eq_zero_or_pos u.length with hnil | hpos
      · rw [hnil]
      · exact getD_mono ht (Nat.zero_le _) (by omega)
    · rw [heq']
      exact (getD_mono ht (Nat.zero_le _) (by omega)).trans (hpoint hj hle' hlt').1
  · rcases interp_cases u t x' with ⟨hx', -⟩ | ⟨-, -, heq'⟩ | ⟨j, hj, -, -, hlt', -⟩
    · exact absurd (hx0.trans_le hxx) (not_lt.mpr hx')
    · rw [heq, heq']
    · have hlast : u.getD (j + 1) 0 ≤ u.getD (u.length - 1) 0 := getD_mono hu (by omega) (by omega)
      exact absurd (hlt'.trans_le (hlast.trans (hx.trans hxx))) (lt_irrefl _)
  · rw [heq]
    rcases interp_cases u t x' with ⟨hx', -⟩ | ⟨-, -, heq'⟩ | ⟨j, hj, -, hle', hlt', heq'⟩
    · exact absurd (hx0.trans_le hxx) (not_lt.mpr hx')
    · rw [heq']
      exact (hpoint hi hle hlt).2.trans (getD_mono ht (by omega) (by omega))
    · rw [heq']
      rcases lt_trichotomy i j with hij | rfl | hji
      · exact (hpoint hi hle hlt).2.trans ((getD_mono ht hij (by omega)).trans (hpoint hj hle' hlt').1)
      · exact line_mono hxx (hle.trans_lt hlt) (hstep i hi)
      · have hmid : u.getD (j + 1) 0 ≤ u.getD i 0 := getD_mono hu hji (by omega)
        exact absurd (hlt'.trans_le (hmid.trans (hle.trans hxx))) (lt_irrefl _)

end Tables

/-! ## Standing at a gate -/

/-- The times at which a lap is at a gate. -/
def timesAt (l : RawLap) (gate : ℚ) : List ℚ := (l.points.filter fun p => decide (p.u = gate)).map Point.t

/-- From the first to the last time at a gate. -/
def dwell (l : RawLap) (gate : ℚ) : ℚ :=
  match (timesAt l gate).head?, (timesAt l gate).getLast? with
  | some first, some last => last - first
  | _, _ => 0

/-- How long a lap stands at a gate; a lap that begins there stands before it crosses. -/
def standing (l : RawLap) (gate : ℚ) : ℚ := if l.positions.head? = some gate then -dwell l gate else dwell l gate

section AtGate
variable {l : RawLap} {gate : ℚ}

theorem getD_times {i : ℕ} (hi : i < l.points.length) : l.times.getD i 0 = l.points[i].t := by
  rw [List.getD_eq_getElem _ _ (by rw [l.length_times]; exact hi)]
  exact List.getElem_map _

theorem getD_positions {i : ℕ} (hi : i < l.points.length) : l.positions.getD i 0 = l.points[i].u := by
  rw [List.getD_eq_getElem _ _ (by rw [l.length_positions]; exact hi)]
  exact List.getElem_map _

theorem timesAt_split {i : ℕ} (hi : i < l.points.length) (hat : l.positions.getD i 0 = gate) :
    timesAt l gate = ((l.points.take i).filter fun p => decide (p.u = gate)).map Point.t ++
      l.times.getD i 0 :: ((l.points.drop (i + 1)).filter fun p => decide (p.u = gate)).map Point.t := by
  have hsplit : l.points = l.points.take i ++ l.points[i] :: l.points.drop (i + 1) := by
    rw [List.getElem_cons_drop, List.take_append_drop]
  rw [getD_positions hi] at hat
  rw [timesAt, getD_times hi]
  conv_lhs => rw [hsplit]
  rw [List.filter_append, List.filter_cons_of_pos (p := fun p : Point => decide (p.u = gate)) (decide_eq_true hat),
    List.map_append, List.map_cons]

/-- The first time at a gate. -/
theorem timesAt_head {i : ℕ} (hi : i < l.points.length) (hat : l.positions.getD i 0 = gate)
    (hbefore : ∀ j < i, l.positions.getD j 0 ≠ gate) : (timesAt l gate).head? = some (l.times.getD i 0) := by
  have hnil : (l.points.take i).filter (fun p => decide (p.u = gate)) = [] := by
    refine List.filter_eq_nil_iff.mpr ?_
    intro p hp
    obtain ⟨j, hj, rfl⟩ := List.mem_take_iff_getElem.mp hp
    have hne := hbefore j (by omega)
    rw [getD_positions (by omega)] at hne
    simpa using hne
  rw [timesAt_split hi hat, hnil]
  rfl

/-- The last time at a gate. -/
theorem timesAt_last {i : ℕ} (hi : i < l.points.length) (hat : l.positions.getD i 0 = gate)
    (hafter : ∀ j, i < j → j < l.points.length → l.positions.getD j 0 ≠ gate) :
    (timesAt l gate).getLast? = some (l.times.getD i 0) := by
  have hnil : (l.points.drop (i + 1)).filter (fun p => decide (p.u = gate)) = [] := by
    refine List.filter_eq_nil_iff.mpr ?_
    intro p hp
    obtain ⟨j, hj, rfl⟩ := List.mem_drop_iff_getElem.mp hp
    have hne := hafter (i + 1 + j) (by omega) (by omega)
    rw [getD_positions (by omega)] at hne
    simpa using hne
  rw [timesAt_split hi hat, hnil]
  exact List.getLast?_concat

theorem timesAt_nil (hne : ∀ j < l.points.length, l.positions.getD j 0 ≠ gate) : timesAt l gate = [] := by
  rw [timesAt, List.map_eq_nil_iff, List.filter_eq_nil_iff]
  intro p hp
  obtain ⟨j, hj, rfl⟩ := List.mem_iff_getElem.mp hp
  have hnot := hne j hj
  rw [getD_positions hj] at hnot
  simpa using hnot

theorem dwell_eq {first last : ℚ} (hfirst : (timesAt l gate).head? = some first)
    (hlast : (timesAt l gate).getLast? = some last) : dwell l gate = last - first := by
  simp only [dwell, hfirst, hlast]

theorem dwell_nil (hnil : timesAt l gate = []) : dwell l gate = 0 := by
  simp only [dwell, hnil, List.head?_nil]

theorem head?_positions (hne : l.points ≠ []) : l.positions.head? = some (l.positions.getD 0 0) := by
  cases hpoints : l.points with
  | nil => exact absurd hpoints hne
  | cons p rest => simp [RawLap.positions, hpoints]

theorem standing_first (hne : l.points ≠ []) (hat : l.positions.getD 0 0 = gate) : standing l gate = -dwell l gate :=
  if_pos (by rw [head?_positions hne, hat])

theorem standing_later (hne : l.points ≠ []) (hat : l.positions.getD 0 0 < gate) : standing l gate = dwell l gate := by
  refine if_neg ?_
  rw [head?_positions hne]
  intro h
  exact hat.ne (Option.some.inj h)

/-- **`interp` and the crossing** are apart by the time the lap stands at the gate. -/
theorem interp_cross (h : Steady l) {c : ℚ} (hc : cross l.positions l.times gate = some c) :
    interp l.positions l.times gate = c + standing l gate := by
  obtain ⟨i, hi, hcross, hfirst, hline⟩ := cross_spec hc
  have hlength : l.positions.length = l.points.length := l.length_positions
  have hmono {j k : ℕ} (hjk : j ≤ k) (hk : k < l.points.length) : l.positions.getD j 0 ≤ l.positions.getD k 0 :=
    getD_mono h.forward hjk (by omega)
  -- behind the start, the gate is crossed from below
  have hbelow (h0 : l.positions.getD 0 0 < gate) (j : ℕ) (hj : j ≤ i) : l.positions.getD j 0 < gate := by
    induction j with
    | zero => exact h0
    | succ j ih =>
        have hprevious := ih (by omega)
        by_contra hnot
        exact hfirst j (by omega) ⟨hprevious.le, not_lt.mp hnot, hprevious.trans_le (not_lt.mp hnot)⟩
  have hpast {j : ℕ} (hj : i + 1 ≤ j) (hj' : j < l.points.length) : gate ≤ l.positions.getD j 0 :=
    hcross.above.trans (hmono hj hj')
  rcases interp_cases l.positions l.times gate with ⟨hle, heq⟩ | ⟨h0, hle, heq⟩ | ⟨j, hj, h0, hle, hlt, heq⟩
  · -- the lap begins at the gate
    have hzero : l.positions.getD 0 0 = gate := le_antisymm ((hmono (Nat.zero_le i) (by omega)).trans hcross.below) hle
    have hat : l.positions.getD i 0 = gate := le_antisymm hcross.below (hzero ▸ hmono (Nat.zero_le i) (by omega))
    have hhead := timesAt_head (by omega) hzero (by simp)
    have hlast := timesAt_last (by omega) hat (by
      intro j hj hj'
      have hup : gate < l.positions.getD (i + 1) 0 := hat ▸ hcross.rises
      exact (hup.trans_le (hmono hj hj')).ne')
    rw [heq, hline, standing_first h.nonempty hzero, dwell_eq hhead hlast, hat]
    ring
  · -- the lap ends at the gate
    have hend : l.positions.getD (l.points.length - 1) 0 = gate :=
      le_antisymm (hlength ▸ hle) (hpast (by omega) (by omega))
    have hnext : l.positions.getD (i + 1) 0 = gate :=
      le_antisymm ((hmono (by omega) (by omega)).trans hend.le) hcross.above
    have hhead := timesAt_head (by omega) hnext (by
      intro j hj
      exact (hbelow h0 j (by omega)).ne)
    have hlast := timesAt_last (by omega) hend (by omega)
    have hwidth : gate - l.positions.getD i 0 ≠ 0 := sub_ne_zero.mpr (hbelow h0 i le_rfl).ne'
    rw [heq, hline, standing_later h.nonempty h0, dwell_eq hhead hlast, hnext,
      mul_div_cancel_right₀ _ hwidth, hlength]
    ring
  · rcases hcross.above.eq_or_lt with hnext | hnext
    · -- the lap reaches the gate at a fix, and leaves it at a later one
      have hij : i + 1 ≤ j := by
        by_contra hnot
        have hup : l.positions.getD (j + 1) 0 ≤ gate := (hmono (by omega) (by omega)).trans hnext.ge
        exact lt_irrefl _ (hlt.trans_le hup)
      have hat : l.positions.getD j 0 = gate := le_antisymm hle (hpast hij (by omega))
      have hhead := timesAt_head (by omega) hnext.symm (by
        intro k hk
        exact (hbelow h0 k (by omega)).ne)
      have hlast := timesAt_last (by omega) hat (by
        intro k hk hk'
        exact (hlt.trans_le (hmono hk hk')).ne')
      have hwidth : gate - l.positions.getD i 0 ≠ 0 := sub_ne_zero.mpr (hbelow h0 i le_rfl).ne'
      rw [heq, hline, standing_later h.nonempty h0, dwell_eq hhead hlast, hat, ← hnext, sub_self,
        mul_zero, zero_div, mul_div_cancel_right₀ _ hwidth]
      ring
    · -- no fix is at the gate
      have hbetween : i = j := by
        rcases lt_trichotomy i j with hij | rfl | hji
        · exact absurd (hnext.trans_le ((hmono hij (by omega)).trans hle)) (lt_irrefl _)
        · rfl
        · exact absurd (hlt.trans_le ((hmono hji (by omega)).trans hcross.below)) (lt_irrefl _)
      have hnil : timesAt l gate = [] := timesAt_nil (by
        intro k hk
        rcases Nat.lt_or_ge i k with hik | hki
        · exact (hnext.trans_le (hmono hik hk)).ne'
        · exact (hbelow h0 k hki).ne)
      rw [heq, hline, standing_later h.nonempty h0, dwell_nil hnil, ← hbetween, add_zero]

end AtGate

/-! ## Bests -/

theorem foldl_fastest (k : Fin 3) (rest : List RawLap) (first : RawLap) :
    let l := rest.foldl (fun a l => if (l.sec k).getD 0 < (a.sec k).getD 0 then l else a) first
    (l = first ∨ l ∈ rest) ∧ ∀ l' ∈ first :: rest, (l.sec k).getD 0 ≤ (l'.sec k).getD 0 := by
  induction rest generalizing first with
  | nil => simp
  | cons next rest ih =>
      dsimp only
      rw [List.foldl_cons]
      by_cases hlt : (next.sec k).getD 0 < (first.sec k).getD 0
      · rw [if_pos hlt]
        obtain ⟨hmem, hle⟩ := ih next
        refine ⟨Or.inr ?_, ?_⟩
        · rcases hmem with hmem | hmem
          · rw [hmem]
            exact List.mem_cons_self
          · exact List.mem_cons_of_mem _ hmem
        · intro l' hl'
          rcases List.mem_cons.mp hl' with rfl | hl'
          · exact (hle next List.mem_cons_self).trans hlt.le
          · exact hle l' hl'
      · rw [if_neg hlt]
        obtain ⟨hmem, hle⟩ := ih first
        refine ⟨hmem.imp_right (List.mem_cons_of_mem _), ?_⟩
        intro l' hl'
        rcases List.mem_cons.mp hl' with rfl | hl'
        · exact hle _ List.mem_cons_self
        · rcases List.mem_cons.mp hl' with rfl | hl'
          · exact (hle first List.mem_cons_self).trans (not_lt.mp hlt)
          · exact hle l' (List.mem_cons_of_mem _ hl')

/-- **The lap of a sector** has its best time. -/
theorem fastest_best {vr : List RawLap} {k : Fin 3} {l : RawLap} (h : fastest vr k = some l) :
    l ∈ vr ∧ ∃ v, l.sec k = some v ∧ best vr k = some v := by
  unfold fastest at h
  cases hfilter : vr.filter fun l => (l.sec k).isSome with
  | nil => simp [hfilter] at h
  | cons first rest =>
      rw [hfilter] at h
      obtain ⟨hmem, hle⟩ := foldl_fastest k rest first
      have hl := Option.some.inj h
      rw [hl] at hmem hle
      have hlmem : l ∈ vr.filter fun l => (l.sec k).isSome := by
        rw [hfilter]
        rcases hmem with hmem | hmem
        · rw [hmem]
          exact List.mem_cons_self
        · exact List.mem_cons_of_mem _ hmem
      obtain ⟨hlvr, hsome⟩ := List.mem_filter.mp hlmem
      obtain ⟨v, hv⟩ := Option.isSome_iff_exists.mp hsome
      refine ⟨hlvr, v, hv, List.min?_eq_some_iff.mpr ⟨List.mem_filterMap.mpr ⟨l, hlvr, hv⟩, ?_⟩⟩
      intro v' hv'
      obtain ⟨l', hl', hsec⟩ := List.mem_filterMap.mp hv'
      have hin : l' ∈ first :: rest := hfilter ▸ List.mem_filter.mpr ⟨hl', by simp [hsec]⟩
      simpa [hv, hsec] using hle l' hin

theorem best_le {vr : List RawLap} {k : Fin 3} {v : ℚ} (h : best vr k = some v) {l : RawLap} (hl : l ∈ vr) {v' : ℚ}
    (hv' : l.sec k = some v') : v ≤ v' :=
  (List.min?_eq_some_iff.mp h).2 v' (List.mem_filterMap.mpr ⟨l, hl, hv'⟩)

theorem theo_eq {vr : List RawLap} {s : ℚ} (h : theo vr = some s) :
    ∃ a b c, best vr 0 = some a ∧ best vr 1 = some b ∧ best vr 2 = some c ∧ s = a + b + c := by
  obtain ⟨a, ha, h⟩ := Option.bind_eq_some_iff.mp h
  obtain ⟨b, hb, h⟩ := Option.bind_eq_some_iff.mp h
  obtain ⟨c, hc, hs⟩ := Option.map_eq_some_iff.mp h
  exact ⟨a, b, c, ha, hb, hc, hs.symm⟩

/-- **The theoretical best** is at most the sectors of a lap that has them all. -/
theorem theo_le {vr : List RawLap} {s : ℚ} (h : theo vr = some s) {l : RawLap} (hl : l ∈ vr) {a b c : ℚ}
    (ha : l.sec 0 = some a) (hb : l.sec 1 = some b) (hc : l.sec 2 = some c) : s ≤ a + b + c := by
  obtain ⟨a', b', c', ha', hb', hc', rfl⟩ := theo_eq h
  exact add_le_add (add_le_add (best_le ha' hl ha) (best_le hb' hl hb)) (best_le hc' hl hc)

/-! ## The stitched lap -/

/-- Points whose times and positions never go back, between two times and two positions, up to the last time. -/
structure Stitched (points : List Point) (first last start finish : ℚ) : Prop where
  clock : (points.map Point.t).Pairwise (· ≤ ·)
  clockIn : ∀ p ∈ points, first ≤ p.t ∧ p.t ≤ last
  forward : (points.map Point.u).Pairwise (· ≤ ·)
  forwardIn : ∀ p ∈ points, start ≤ p.u ∧ p.u ≤ finish
  ends : (points.map Point.t).getLast? = some last

theorem Stitched.exists_last {points : List Point} {first last start finish : ℚ} (h : Stitched points first last start finish) :
    ∃ p ∈ points, p.t = last := by
  exact List.mem_map.mp (List.mem_of_getLast? h.ends)

/-- Pieces that follow each other. -/
theorem Stitched.append {points points' : List Point} {first last final start finish end_ : ℚ}
    (h : Stitched points first last start finish) (h' : Stitched points' last final finish end_) :
    Stitched (points ++ points') first final start end_ := by
  obtain ⟨p, hp, hpt⟩ := h.exists_last
  obtain ⟨p', hp', hpt'⟩ := h'.exists_last
  have hfirst : first ≤ last := hpt ▸ (h.clockIn p hp).1
  have hfinal : last ≤ final := hpt' ▸ (h'.clockIn p' hp').1
  have hstart : start ≤ finish := (h.forwardIn p hp).1.trans (h.forwardIn p hp).2
  have hend : finish ≤ end_ := (h'.forwardIn p' hp').1.trans (h'.forwardIn p' hp').2
  refine ⟨?_, ?_, ?_, ?_, ?_⟩
  · rw [List.map_append]
    refine List.pairwise_append.mpr ⟨h.clock, h'.clock, ?_⟩
    intro t ht t' ht'
    obtain ⟨q, hq, rfl⟩ := List.mem_map.mp ht
    obtain ⟨q', hq', rfl⟩ := List.mem_map.mp ht'
    exact (h.clockIn q hq).2.trans (h'.clockIn q' hq').1
  · intro q hq
    rcases List.mem_append.mp hq with hq | hq
    · exact ⟨(h.clockIn q hq).1, (h.clockIn q hq).2.trans hfinal⟩
    · exact ⟨hfirst.trans (h'.clockIn q hq).1, (h'.clockIn q hq).2⟩
  · rw [List.map_append]
    refine List.pairwise_append.mpr ⟨h.forward, h'.forward, ?_⟩
    intro u hu u' hu'
    obtain ⟨q, hq, rfl⟩ := List.mem_map.mp hu
    obtain ⟨q', hq', rfl⟩ := List.mem_map.mp hu'
    exact (h.forwardIn q hq).2.trans (h'.forwardIn q' hq').1
  · intro q hq
    rcases List.mem_append.mp hq with hq | hq
    · exact ⟨(h.forwardIn q hq).1, (h.forwardIn q hq).2.trans hend⟩
    · exact ⟨hstart.trans (h'.forwardIn q hq).1, (h'.forwardIn q hq).2⟩
  · rw [List.map_append, List.getLast?_append, h'.ends]
    rfl

/-- The times of a piece never go back. -/
theorem pieceTimes_sorted {l : RawLap} (h : Steady l) {tA tB : ℚ} (hAB : tA ≤ tB) :
    (pieceTimes l tA tB).Pairwise (· ≤ ·) ∧ ∀ t ∈ pieceTimes l tA tB, tA ≤ t ∧ t ≤ tB := by
  have hinner : ∀ t ∈ l.times.filter fun t => decide (tA + 1 < t) && decide (t < tB - 1), tA ≤ t ∧ t ≤ tB := by
    intro t ht
    have hin := (List.mem_filter.mp ht).2
    simp only [Bool.and_eq_true, decide_eq_true_eq] at hin
    constructor <;> linarith [hin.1, hin.2]
  have hall : ∀ t ∈ (l.times.filter fun t => decide (tA + 1 < t) && decide (t < tB - 1)) ++ [tB], tA ≤ t ∧ t ≤ tB := by
    intro t ht
    rcases List.mem_append.mp ht with ht | ht
    · exact hinner t ht
    · obtain rfl := List.mem_singleton.mp ht
      exact ⟨hAB, le_rfl⟩
  refine ⟨List.pairwise_cons.mpr ⟨fun t ht => (hall t ht).1, List.pairwise_append.mpr
    ⟨h.clock.sublist List.filter_sublist, List.pairwise_singleton _ _, ?_⟩⟩, List.forall_mem_cons.mpr ⟨⟨le_rfl, hAB⟩, hall⟩⟩
  intro t ht t' ht'
  rw [List.mem_singleton.mp ht']
  exact (hinner t ht).2

theorem stitched_piece {l : RawLap} (h : Steady l) (RL : ℚ) {start finish tA tB : ℚ} (off : ℚ) (hends : start ≤ finish)
    {ts : List ℚ} (hts : ts.Pairwise (· ≤ ·)) (hin : ∀ t ∈ ts, tA ≤ t ∧ t ≤ tB) (hlast : ts.getLast? = some tB) :
    Stitched (ts.map (stitchPoint RL l start finish off tA)) off (off + (tB - tA)) start finish := by
  have hlength : l.times.length = l.positions.length := by rw [l.length_times, l.length_positions]
  refine ⟨?_, ?_, ?_, ?_, ?_⟩
  · rw [List.map_map]
    refine List.pairwise_map.mpr (hts.imp ?_)
    intro t t' htt
    exact add_le_add_right (sub_le_sub_right htt tA) off
  · intro p hp
    obtain ⟨t, ht, rfl⟩ := List.mem_map.mp hp
    obtain ⟨hA, hB⟩ := hin t ht
    dsimp only [stitchPoint]
    constructor <;> linarith
  · rw [List.map_map]
    refine List.pairwise_map.mpr (hts.imp ?_)
    intro t t' htt
    exact max_le_max_left start (min_le_min_left finish (interp_mono hlength h.clock h.forward htt))
  · intro p hp
    obtain ⟨t, -, rfl⟩ := List.mem_map.mp hp
    exact ⟨le_max_left _ _, max_le hends (min_le_left _ _)⟩
  · rw [List.map_map, List.getLast?_map, hlast]
    rfl

/-- `interp` finds a gate inside the lap. -/
theorem interp_inside {l : RawLap} (h : Steady l) (gate : ℚ) :
    0 ≤ interp l.positions l.times gate ∧ interp l.positions l.times gate ≤ l.dur := by
  have hlength : l.positions.length = l.times.length := by rw [l.length_times, l.length_positions]
  have hpos : 0 < l.times.length := by
    rw [l.length_times]
    exact List.length_pos_of_ne_nil h.nonempty
  have hin {i : ℕ} (hi : i < l.times.length) : 0 ≤ l.times.getD i 0 ∧ l.times.getD i 0 ≤ l.dur := h.inside _ (getD_mem hi)
  rcases interp_cases l.positions l.times gate with ⟨-, heq⟩ | ⟨-, -, heq⟩ | ⟨i, hi, -, hle, hlt, heq⟩
  · exact heq ▸ hin hpos
  · exact heq ▸ hin (by omega)
  · have hstep : l.times.getD i 0 ≤ l.times.getD (i + 1) 0 := getD_mono h.clock (Nat.le_succ i) (by omega)
    have hline := line_bounds hle hlt.le (hle.trans_lt hlt) hstep
    rw [heq]
    exact ⟨(hin (by omega)).1.trans hline.1, hline.2.trans (hin (by omega)).2⟩

theorem pieceTimes_last (l : RawLap) (tA tB : ℚ) :
    (pieceTimes l tA tB).getLast? = some tB ∧ (pieceTimes l tA tB).tail.getLast? = some tB := by
  constructor
  · rw [pieceTimes, List.cons_append, ← List.cons_append, List.getLast?_concat]
  · rw [pieceTimes, List.cons_append, List.tail_cons, List.getLast?_concat]

section Stitch
variable {valid : RawLap → Bool} {RL g0 g1 : ℚ} {laps : List RawLap}

theorem mem_pool {l : RawLap} (h : l ∈ pool valid laps) : l ∈ laps ∧ l.kind = .lap := by
  have hrun := List.mem_of_mem_filter h
  exact ⟨List.mem_of_mem_filter hrun, of_decide_eq_true (List.mem_filter.mp hrun).2⟩

/-- **The stitched lap**: its clock and position never go back, and it takes what its three pieces take. -/
theorem stitched_lap (hsteady : ∀ l ∈ laps, Steady l) (hg0 : 0 < g0) (hg1 : g0 < g1) (hRL : g1 < RL) {lap : RawLap}
    (h : theoLap valid RL g0 g1 laps = some lap) :
    2 ≤ (pool valid laps).length ∧ ∃ a b c s, fastest (pool valid laps) 0 = some a ∧ fastest (pool valid laps) 1 = some b ∧
      fastest (pool valid laps) 2 = some c ∧ theo (pool valid laps) = some s ∧ Stitched lap.points 0 lap.dur 0 RL ∧
      lap.dur = interp a.positions a.times g0 + (interp b.positions b.times g1 - interp b.positions b.times g0) +
        (c.dur - interp c.positions c.times g1) := by
  unfold theoLap at h
  dsimp only at h
  by_cases hfew : (pool valid laps).length < 2
  · rw [if_pos hfew] at h
    cases h
  · rw [if_neg hfew] at h
    split at h
    next s a b c hs ha hb hc =>
      have hin {l : RawLap} {k : Fin 3} (hl : fastest (pool valid laps) k = some l) : Steady l :=
        hsteady l (mem_pool (fastest_best hl).1).1
      have hfirst : Stitched (piece RL g0 g1 0 a 0).1 0 (interp a.positions a.times g0) 0 g0 := by
        obtain ⟨hsorted, hbounds⟩ := pieceTimes_sorted (hin ha) (interp_inside (hin ha) g0).1
        have hpiece := stitched_piece (hin ha) RL 0 hg0.le hsorted hbounds (pieceTimes_last a _ _).1
        rwa [sub_zero, zero_add] at hpiece
      have hsecond : Stitched (piece RL g0 g1 1 b (interp a.positions a.times g0)).1 (interp a.positions a.times g0)
          (interp a.positions a.times g0 + (interp b.positions b.times g1 - interp b.positions b.times g0)) g0 g1 := by
        have hlength : b.positions.length = b.times.length := by rw [b.length_times, b.length_positions]
        obtain ⟨hsorted, hbounds⟩ := pieceTimes_sorted (hin hb)
          (interp_mono hlength (hin hb).forward (hin hb).clock hg1.le)
        exact stitched_piece (hin hb) RL _ hg1.le hsorted.tail (fun t ht => hbounds t (List.mem_of_mem_tail ht))
          (pieceTimes_last b _ _).2
      have hthird (off : ℚ) : Stitched (piece RL g0 g1 2 c off).1 off
          (off + (c.dur - interp c.positions c.times g1)) g1 RL := by
        obtain ⟨hsorted, hbounds⟩ := pieceTimes_sorted (hin hc) (interp_inside (hin hc) g1).2
        exact stitched_piece (hin hc) RL _ hRL.le hsorted.tail (fun t ht => hbounds t (List.mem_of_mem_tail ht))
          (pieceTimes_last c _ _).2
      have hall := (hfirst.append hsecond).append (hthird _)
      have hoff : (piece RL g0 g1 0 a 0).2 = interp a.positions a.times g0 := by simp [piece]
      have hoff' (off : ℚ) : (piece RL g0 g1 1 b off).2 =
          off + (interp b.positions b.times g1 - interp b.positions b.times g0) := by
        simp [piece]
      rw [hoff, hoff'] at h
      have hlap := Option.some.inj h
      have hpoints := congrArg RawLap.points hlap
      have hdur := congrArg RawLap.dur hlap
      dsimp only at hpoints hdur
      rw [List.getLastD_eq_getLast?, hall.ends, Option.getD_some] at hdur
      exact ⟨not_lt.mp hfew, a, b, c, s, ha, hb, hc, hs, hdur ▸ hpoints ▸ hall, hdur.symm⟩
    next => cases h

/-- A lap whose sector times are those of the gates. -/
def Gated (g0 g1 : ℚ) (l : RawLap) : Prop := l.sec = sectorTimes l.positions l.times l.dur l.kind g0 g1

theorem setGates_gated (hgates : validGates g0 g1 RL = true) : ∀ l ∈ setGates g0 g1 RL laps, Gated g0 g1 l := by
  intro l hl
  rw [setGates, if_pos hgates] at hl
  obtain ⟨l', -, rfl⟩ := List.mem_map.mp hl
  rfl

theorem setGates_steady (g0 g1 RL : ℚ) (hsteady : ∀ l ∈ laps, Steady l) : ∀ l ∈ setGates g0 g1 RL laps, Steady l := by
  intro l hl
  rw [setGates] at hl
  split at hl
  · obtain ⟨l', hl', rfl⟩ := List.mem_map.mp hl
    obtain ⟨hne, hclock, hforward, hinside⟩ := hsteady l' hl'
    exact ⟨hne, hclock, hforward, hinside⟩
  · exact hsteady l hl

theorem Gated.first {l : RawLap} (h : Gated g0 g1 l) {v : ℚ}
    (hv : l.sec 0 = some v) : cross l.positions l.times g0 = some v := by
  rw [h] at hv
  exact hv

theorem Gated.second {l : RawLap} (h : Gated g0 g1 l) {v : ℚ} (hv : l.sec 1 = some v) :
    ∃ p q, cross l.positions l.times g0 = some p ∧ cross l.positions l.times g1 = some q ∧ v = q - p := by
  rw [h] at hv
  obtain ⟨p, hp, hv⟩ := Option.bind_eq_some_iff.mp (hv : (cross l.positions l.times g0).bind _ = some v)
  obtain ⟨q, hq, hv⟩ := Option.map_eq_some_iff.mp hv
  exact ⟨p, q, hp, hq, hv.symm⟩

theorem Gated.third {l : RawLap} (h : Gated g0 g1 l) {v : ℚ} (hv : l.sec 2 = some v) :
    ∃ q, cross l.positions l.times g1 = some q ∧ v = l.dur - q := by
  rw [h] at hv
  obtain ⟨q, hq, hv⟩ := Option.bind_eq_some_iff.mp (hv : (cross l.positions l.times g1).bind _ = some v)
  by_cases hkind : l.kind = .unfinished
  · simp [hkind] at hv
  · rw [if_pos hkind] at hv
    exact ⟨q, hq, (Option.some.inj hv).symm⟩

/-- **The excess of the stitched lap** over the best sectors: what its laps stand at the gates. -/
theorem stitched_excess (hsteady : ∀ l ∈ laps, Steady l) (hgated : ∀ l ∈ laps, Gated g0 g1 l) (hg0 : 0 < g0) (hg1 : g0 < g1)
    (hRL : g1 < RL) {lap : RawLap} (h : theoLap valid RL g0 g1 laps = some lap) :
    2 ≤ (pool valid laps).length ∧ ∃ a b c s, fastest (pool valid laps) 0 = some a ∧ fastest (pool valid laps) 1 = some b ∧
      fastest (pool valid laps) 2 = some c ∧ theo (pool valid laps) = some s ∧ Stitched lap.points 0 lap.dur 0 RL ∧
      lap.dur = s + (standing a g0 + standing b g1 - (standing b g0 + standing c g1)) := by
  obtain ⟨htwo, a, b, c, s, ha, hb, hc, hs, hstitched, hdur⟩ := stitched_lap hsteady hg0 hg1 hRL h
  refine ⟨htwo, a, b, c, s, ha, hb, hc, hs, hstitched, ?_⟩
  obtain ⟨hamem, va, hva, hbestA⟩ := fastest_best ha
  obtain ⟨hbmem, vb, hvb, hbestB⟩ := fastest_best hb
  obtain ⟨hcmem, vc, hvc, hbestC⟩ := fastest_best hc
  have hcrossA := (hgated a (mem_pool hamem).1).first hva
  obtain ⟨p, q, hcrossP, hcrossQ, hvb'⟩ := (hgated b (mem_pool hbmem).1).second hvb
  obtain ⟨r, hcrossR, hvc'⟩ := (hgated c (mem_pool hcmem).1).third hvc
  have hsum : s = va + vb + vc := by
    obtain ⟨x, y, z, hx, hy, hz, hs'⟩ := theo_eq hs
    rw [hbestA] at hx
    rw [hbestB] at hy
    rw [hbestC] at hz
    rw [hs', ← Option.some.inj hx, ← Option.some.inj hy, ← Option.some.inj hz]
  rw [hdur, interp_cross (hsteady a (mem_pool hamem).1) hcrossA, interp_cross (hsteady b (mem_pool hbmem).1) hcrossQ,
    interp_cross (hsteady b (mem_pool hbmem).1) hcrossP, interp_cross (hsteady c (mem_pool hcmem).1) hcrossR, hsum, hvb', hvc']
  ring

/-- **Sectors and the theoretical lap agree.** -/
structure Consistent (valid : RawLap → Bool) (RL g0 g1 : ℚ) (laps : List RawLap) : Prop where
  nonneg : ∀ l ∈ laps, ∀ k v, l.sec k = some v → 0 ≤ v
  sums : ∀ l ∈ laps, ∀ a b c, l.sec 0 = some a → l.sec 1 = some b → l.sec 2 = some c → a + b + c = l.dur
  least : ∀ s, theo (pool valid laps) = some s → ∀ l ∈ pool valid laps, ∀ a b c,
    l.sec 0 = some a → l.sec 1 = some b → l.sec 2 = some c → s ≤ l.dur
  stitched : ∀ lap, theoLap valid RL g0 g1 laps = some lap → theo (pool valid laps) = some lap.dur ∧
    (lap.points.map Point.t).Pairwise (· ≤ ·) ∧ (lap.points.map Point.u).Pairwise (· ≤ ·)

/-- **The sector times of a lap** are not negative. -/
theorem sector_nonneg {l : RawLap} (h : Steady l) (hgated : Gated g0 g1 l) (hg1 : g0 < g1) (k : Fin 3) {v : ℚ}
    (hv : l.sec k = some v) : 0 ≤ v := by
  have hlength : l.positions.length = l.times.length := by rw [l.length_times, l.length_positions]
  have hin {i : ℕ} (hi : i < l.positions.length) : 0 ≤ l.times.getD i 0 ∧ l.times.getD i 0 ≤ l.dur :=
    h.inside _ (getD_mem (hlength ▸ hi))
  fin_cases k
  · obtain ⟨i, hi, -, hle, -⟩ := cross_bounds hlength h.clock (hgated.first hv)
    exact (hin (by omega)).1.trans hle
  · obtain ⟨p, q, hp, hq, rfl⟩ := hgated.second hv
    exact sub_nonneg.mpr (cross_mono hlength h.forward h.clock hg1 hp hq)
  · obtain ⟨q, hq, rfl⟩ := hgated.third hv
    obtain ⟨i, hi, -, -, hle⟩ := cross_bounds hlength h.clock hq
    exact sub_nonneg.mpr (hle.trans (hin hi).2)

/-- **The sectors of a lap** sum to its duration. -/
theorem sector_sums {l : RawLap} (hgated : Gated g0 g1 l) {a b c : ℚ} (ha : l.sec 0 = some a) (hb : l.sec 1 = some b)
    (hc : l.sec 2 = some c) : a + b + c = l.dur := by
  obtain ⟨p, q, hp, hq, rfl⟩ := hgated.second hb
  obtain ⟨q', hq', rfl⟩ := hgated.third hc
  obtain rfl : p = a := Option.some.inj (hp.symm.trans (hgated.first ha))
  obtain rfl : q = q' := Option.some.inj (hq.symm.trans hq')
  ring

/-- With two laps that count and every best sector there is a stitched lap. -/
theorem theoLap_some (RL g0 g1 : ℚ) (htwo : 2 ≤ (pool valid laps).length) {a b c : RawLap}
    (ha : fastest (pool valid laps) 0 = some a)
    (hb : fastest (pool valid laps) 1 = some b) (hc : fastest (pool valid laps) 2 = some c) :
    ∃ lap, theoLap valid RL g0 g1 laps = some lap := by
  obtain ⟨-, va, -, hbestA⟩ := fastest_best ha
  obtain ⟨-, vb, -, hbestB⟩ := fastest_best hb
  obtain ⟨-, vc, -, hbestC⟩ := fastest_best hc
  have hs : theo (pool valid laps) = some (va + vb + vc) := by simp [theo, hbestA, hbestB, hbestC]
  unfold theoLap
  dsimp only
  rw [if_neg (not_lt.mpr htwo), hs, ha, hb, hc]
  exact ⟨_, rfl⟩

/-- **Sectors and the stitched lap are consistent exactly where the standing times of its laps at the gates cancel.** -/
theorem sectors_consistent (valid : RawLap → Bool) (RL g0 g1 : ℚ) (laps : List RawLap) (hgates : validGates g0 g1 RL = true)
    (hsteady : ∀ l ∈ laps, Steady l) :
    Consistent valid RL g0 g1 (setGates g0 g1 RL laps) ↔
      ∀ a b c, 2 ≤ (pool valid (setGates g0 g1 RL laps)).length → fastest (pool valid (setGates g0 g1 RL laps)) 0 = some a →
        fastest (pool valid (setGates g0 g1 RL laps)) 1 = some b → fastest (pool valid (setGates g0 g1 RL laps)) 2 = some c →
        standing a g0 + standing b g1 = standing b g0 + standing c g1 := by
  have hsteady' := setGates_steady g0 g1 RL hsteady
  have hgated : ∀ l ∈ setGates g0 g1 RL laps, Gated g0 g1 l := setGates_gated hgates
  simp only [validGates, Bool.and_eq_true, decide_eq_true_eq] at hgates
  obtain ⟨⟨hg0, hg1⟩, hRL⟩ := hgates
  constructor
  · intro h a b c htwo ha hb hc
    obtain ⟨lap, hlap⟩ := theoLap_some RL g0 g1 htwo ha hb hc
    obtain ⟨-, a', b', c', s, ha', hb', hc', hs, -, hdur⟩ := stitched_excess hsteady' hgated hg0 hg1 hRL hlap
    obtain rfl : a = a' := Option.some.inj (ha.symm.trans ha')
    obtain rfl : b = b' := Option.some.inj (hb.symm.trans hb')
    obtain rfl : c = c' := Option.some.inj (hc.symm.trans hc')
    have hsame : lap.dur = s := Option.some.inj ((h.stitched lap hlap).1.symm.trans hs)
    linarith
  · intro hcancel
    refine ⟨?_, ?_, ?_, ?_⟩
    · intro l hl k v hv
      exact sector_nonneg (hsteady' l hl) (hgated l hl) hg1 k hv
    · intro l hl a b c ha hb hc
      exact sector_sums (hgated l hl) ha hb hc
    · intro s hs l hl a b c ha hb hc
      exact (theo_le hs hl ha hb hc).trans (sector_sums (hgated l (mem_pool hl).1) ha hb hc).le
    · intro lap hlap
      obtain ⟨htwo, a, b, c, s, ha, hb, hc, hs, hstitched, hdur⟩ := stitched_excess hsteady' hgated hg0 hg1 hRL hlap
      have hzero := hcancel a b c htwo ha hb hc
      have hsame : lap.dur = s := by linarith
      exact ⟨hsame ▸ hs, hstitched.clock, hstitched.forward⟩

end Stitch

/-! ## A lap that stands at a gate -/

/-- A fix with a time and a position. -/
def fixAt (t u : ℚ) : Point := { t := t, u := u, v := fun _ => 0, cells := [], x := u, y := 0, spd := 0, s := u, dev := 0 }

def lapOf (name : String) (points : List Point) (dur : ℚ) : RawLap :=
  { points := points, name := name, kind := .lap, t0 := 0, t1 := dur, dur := dur, sec := fun _ => none, dist := 90, vmax := 0
    vavg := 0, dev := 0, wh := none, whOut := none, whIn := none }

/-- A lap with the better first sector, at whose end it stands for ten seconds. -/
def slowGate : RawLap :=
  lapOf "1" [fixAt 0 0, fixAt 10000 30, fixAt 20000 30, fixAt 40000 60, fixAt 60000 90] 60000

/-- A lap that never stands. -/
def evenLap : RawLap := lapOf "2" [fixAt 0 0, fixAt 12000 30, fixAt 24000 60, fixAt 36000 90] 36000

theorem standingLaps_steady : ∀ l ∈ [slowGate, evenLap], Steady l := by
  rw [List.forall_mem_cons, List.forall_mem_singleton]
  constructor <;> refine ⟨by simp [slowGate, evenLap, lapOf], ?_, ?_, ?_⟩ <;>
    norm_num [slowGate, evenLap, lapOf, fixAt, RawLap.times, RawLap.positions]

theorem gates_valid : validGates 30 60 90 = true := by norm_num [validGates]

/-- The laps with their sector times. -/
theorem standingLaps_pool : pool (fun _ => true) (setGates 30 60 90 [slowGate, evenLap]) =
    [slowGate.withGates 30 60, evenLap.withGates 30 60] := by
  rw [setGates, if_pos gates_valid]
  rfl

theorem slowGate_sec : (slowGate.withGates 30 60).sec = ![some 10000, some 30000, some 20000] := by
  norm_num [slowGate, RawLap.withGates, sectorTimes, RawLap.positions, RawLap.times, lapOf, fixAt, cross, List.range_succ,
    List.find?]
  intro h
  cases h

theorem evenLap_sec : (evenLap.withGates 30 60).sec = ![some 12000, some 12000, some 12000] := by
  norm_num [evenLap, RawLap.withGates, sectorTimes, RawLap.positions, RawLap.times, lapOf, fixAt, cross, List.range_succ,
    List.find?]
  intro h
  cases h

theorem fastest_pair {l l' : RawLap} {k : Fin 3} {v v' : ℚ} (h : l.sec k = some v) (h' : l'.sec k = some v') :
    fastest [l, l'] k = some (if v' < v then l' else l) := by
  simp [fastest, h, h']

theorem standing_slowGate : standing (slowGate.withGates 30 60) 30 = 10000 := by
  norm_num [standing, dwell, timesAt, slowGate, RawLap.withGates, lapOf, fixAt, RawLap.positions, List.filter]

theorem standing_evenLap : standing (evenLap.withGates 30 60) 30 = 0 ∧ standing (evenLap.withGates 30 60) 60 = 0 := by
  constructor <;> norm_num [standing, dwell, timesAt, evenLap, RawLap.withGates, lapOf, fixAt, RawLap.positions, List.filter]

/-- Two laps at the gates of the run. -/
theorem sectors_consistent_pair :
    Consistent (fun _ => true) 90 30 60 (setGates 30 60 90 [slowGate, evenLap]) ↔
      ∀ a b c, 2 ≤ (pool (fun _ => true) (setGates 30 60 90 [slowGate, evenLap])).length →
        fastest (pool (fun _ => true) (setGates 30 60 90 [slowGate, evenLap])) 0 = some a →
        fastest (pool (fun _ => true) (setGates 30 60 90 [slowGate, evenLap])) 1 = some b →
        fastest (pool (fun _ => true) (setGates 30 60 90 [slowGate, evenLap])) 2 = some c →
        standing a 30 + standing b 60 = standing b 30 + standing c 60 :=
  sectors_consistent (fun _ => true) 90 30 60 [slowGate, evenLap] gates_valid standingLaps_steady

/-- **A stitched lap of forty-four seconds** for best sectors of thirty-four. -/
theorem stitched_stands : ¬ Consistent (fun _ => true) 90 30 60 (setGates 30 60 90 [slowGate, evenLap]) := by
  intro h
  have hsteady := setGates_steady 30 60 90 standingLaps_steady
  have hgated : ∀ l ∈ setGates 30 60 90 [slowGate, evenLap], Gated 30 60 l := setGates_gated gates_valid
  have hslow (k : Fin 3) : (slowGate.withGates 30 60).sec k = ![some 10000, some 30000, some 20000] k := by rw [slowGate_sec]
  have heven (k : Fin 3) : (evenLap.withGates 30 60).sec k = ![some 12000, some 12000, some 12000] k := by rw [evenLap_sec]
  have hfirst := fastest_pair (hslow 0) (heven 0)
  have hsecond := fastest_pair (hslow 1) (heven 1)
  have hthird := fastest_pair (hslow 2) (heven 2)
  rw [if_neg (by norm_num)] at hfirst
  rw [if_pos (by norm_num)] at hsecond hthird
  rw [← standingLaps_pool] at hfirst hsecond hthird
  obtain ⟨lap, hlap⟩ := theoLap_some 90 30 60 (by rw [standingLaps_pool]; exact le_rfl) hfirst hsecond hthird
  obtain ⟨-, a, b, c, s, ha, hb, hc, hs, -, hdur⟩ :=
    stitched_excess hsteady hgated (by norm_num) (by norm_num) (by norm_num) hlap
  obtain rfl := Option.some.inj (hfirst.symm.trans ha)
  obtain rfl := Option.some.inj (hsecond.symm.trans hb)
  obtain rfl := Option.some.inj (hthird.symm.trans hc)
  have hsame : lap.dur = s := Option.some.inj ((h.stitched lap hlap).1.symm.trans hs)
  rw [standing_slowGate, standing_evenLap.1, standing_evenLap.2] at hdur
  linarith

end Lhre.DriveDay
