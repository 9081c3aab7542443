import Lhre.DriveDay.Segments
import Lhre.Theory.Tiling

/-!
# `DriveDay.Correctness.SegmentTiles` — the segments of a course tile it

On a loop the pieces follow each other from the first corner on, up to a sample at most, and the last length is brought
to what is left. On an open course a straight of one or two samples is given to the corner before it and to the one after
it as well, and one before the first corner to none.

## Contents
- **Wrapping.** `wrap` as the remainder from zero.
- **The property.** `Seg.Contains`, `Tiles`.
- **Loops.** `Around`; pieces in a chain, `closed_tiles`.
- **Open courses.** `OpenGaps`, `open_tiles_iff`.
- **All courses.** `segments_tile`, and a course that starts with a sample of straight.
-/

namespace Lhre.DriveDay

open Tiling

/-! ## Wrapping -/

section Wrap

variable {L s t : ℚ}

theorem wrap_eq (hL : 0 < L) (s : ℚ) : wrap s L = s - L * ⌊s / L⌋ := by
  have hL' : L ≠ 0 := ne_of_gt hL
  -- either remainder leaves a whole number of lengths out
  obtain ⟨q, hq, hlow⟩ : ∃ q : ℤ, jsMod s L = s - L * q ∧ (q : ℚ) ≤ s / L + 1 := by
    unfold jsMod
    by_cases hs : 0 ≤ s / L
    · rw [if_pos hs]
      exact ⟨⌊s / L⌋, rfl, by have := Int.floor_le (s / L); linarith⟩
    · rw [if_neg hs]
      exact ⟨⌈s / L⌉, rfl, le_of_lt (Int.ceil_lt_add_one _)⟩
  unfold wrap
  rw [hq]
  have hdiv : (s - L * q + L) / L = s / L + ((1 - q : ℤ) : ℚ) := by
    push_cast
    field_simp
    ring
  unfold jsMod
  rw [hdiv, if_pos (by push_cast; linarith), Int.floor_add_intCast]
  push_cast
  ring

theorem wrap_nonneg (hL : 0 < L) (s : ℚ) : 0 ≤ wrap s L := by
  rw [wrap_eq hL]
  have hfloor := Int.floor_le (s / L)
  rw [le_div_iff₀ hL] at hfloor
  linarith

theorem wrap_lt (hL : 0 < L) (s : ℚ) : wrap s L < L := by
  rw [wrap_eq hL]
  have hfloor := Int.lt_floor_add_one (s / L)
  rw [div_lt_iff₀ hL] at hfloor
  linarith

/-- Whole lengths do not matter. -/
theorem wrap_add_mul (hL : 0 < L) (s : ℚ) (k : ℤ) : wrap (s + L * k) L = wrap s L := by
  have hL' : L ≠ 0 := ne_of_gt hL
  rw [wrap_eq hL, wrap_eq hL]
  have hdiv : (s + L * k) / L = s / L + (k : ℚ) := by
    field_simp
  rw [hdiv, Int.floor_add_intCast]
  push_cast
  ring

theorem wrap_of_mem (hL : 0 < L) (h0 : 0 ≤ s) (hlt : s < L) : wrap s L = s := by
  rw [wrap_eq hL]
  have hfloor : ⌊s / L⌋ = 0 := by
    rw [Int.floor_eq_zero_iff]
    exact ⟨by positivity, by rw [div_lt_one hL]; exact hlt⟩
  rw [hfloor]
  simp

/-- The whole lengths between a point and its place on the loop. -/
theorem exists_wrap (hL : 0 < L) (s : ℚ) : ∃ k : ℤ, s = wrap s L + L * k :=
  ⟨⌊s / L⌋, by rw [wrap_eq hL]; ring⟩

end Wrap

/-! ## The property -/

/-- The segment contains a point of the course. -/
def Seg.Contains (g : Seg) (RL : ℚ) (isOpen : Bool) (s : ℚ) : Prop :=
  if isOpen then g.a ≤ s ∧ s < g.a + g.len else wrap (s - g.a) RL < g.len

section Names

variable {segs : List Seg} {nc ns i : ℕ} {g : Seg}

end Names

/-! ## Loops -/

/-- The segments follow each other around a loop, from a point on. -/
def Around (RL : ℚ) : ℚ → List Seg → Prop
  | _, [] => True
  | x, g :: segs => g.a = wrap x RL ∧ 0 < g.len ∧ Around RL (x + g.len) segs

section Around

variable {RL x s : ℚ} {segs : List Seg}

theorem Around.append {segs' : List Seg} :
    Around RL x (segs ++ segs') ↔ Around RL x segs ∧ Around RL (x + (segs.map Seg.len).sum) segs' := by
  induction segs generalizing x with
  | nil =>
      rw [List.nil_append, List.map_nil, List.sum_nil, add_zero]
      exact ⟨fun h => ⟨trivial, h⟩, And.right⟩
  | cons g segs ih =>
      rw [List.cons_append, Around, Around, ih, List.map_cons, List.sum_cons, add_assoc, and_assoc, and_assoc]

theorem Around.get (h : Around RL x segs) {i : ℕ} {g : Seg} (hget : segs[i]? = some g) :
    g.a = wrap (x + offset (segs.map Seg.len) i) RL ∧ 0 < g.len := by
  induction segs generalizing x i with
  | nil => exact absurd hget (by simp)
  | cons g₀ segs ih =>
      obtain ⟨ha, hlen, hrest⟩ := h
      cases i with
      | zero =>
          obtain rfl : g₀ = g := Option.some.inj hget
          rw [offset_zero, add_zero]
          exact ⟨ha, hlen⟩
      | succ i =>
          obtain ⟨ha', hlen'⟩ := ih hrest hget
          refine ⟨?_, hlen'⟩
          rw [ha', add_assoc]
          rfl

theorem Around.nameFrom {nc ns : ℕ} (h : Around RL x segs) : Around RL x (nameFrom nc ns segs) := by
  induction segs generalizing x nc ns with
  | nil => trivial
  | cons g segs ih =>
      obtain ⟨ha, hlen, hrest⟩ := h
      rw [DriveDay.nameFrom]
      cases g.kind with
      | corner => exact ⟨ha, hlen, ih hrest⟩
      | straight => exact ⟨ha, hlen, ih hrest⟩

/-- **A segment of a whole loop contains the points that lie in its piece**, counted from where the segments start. -/
theorem Around.contains_iff (hL : 0 < RL) (h : Around RL x segs) (htotal : (segs.map Seg.len).sum = RL) {i : ℕ} {g : Seg}
    (hget : segs[i]? = some g) (s : ℚ) :
    g.Contains RL false s ↔ offset (segs.map Seg.len) i ≤ wrap (s - x) RL ∧
      wrap (s - x) RL < offset (segs.map Seg.len) i + g.len := by
  have hpos : ∀ l ∈ segs.map Seg.len, 0 < l := by
    intro l hl
    obtain ⟨g', hg', rfl⟩ := List.mem_map.mp hl
    obtain ⟨j, hj⟩ := List.mem_iff_getElem?.mp hg'
    exact (h.get hj).2
  obtain ⟨hi, hg⟩ := List.getElem?_eq_some_iff.mp hget
  have hi' : i < (segs.map Seg.len).length := by rw [List.length_map]; exact hi
  have hlen : (segs.map Seg.len)[i] = g.len := by rw [List.getElem_map, hg]
  have h0 := offset_nonneg hpos (le_of_lt hi')
  have hend := offset_add_le hpos hi'
  rw [htotal, hlen] at hend
  obtain ⟨ha, hglen⟩ := h.get hget
  set o := offset (segs.map Seg.len) i
  have hd0 := wrap_nonneg hL (s - x)
  have hdL := wrap_lt hL (s - x)
  -- the distance from the start of the segment, by the distance from the start of all of them
  have hdist : wrap (s - g.a) RL = wrap (wrap (s - x) RL - o) RL := by
    obtain ⟨k, hk⟩ := exists_wrap hL (s - x)
    obtain ⟨m, hm⟩ := exists_wrap hL (x + o)
    have heq : s - g.a = wrap (s - x) RL - o + RL * ((k + m : ℤ) : ℚ) := by
      rw [ha]
      push_cast
      linarith
    rw [heq, wrap_add_mul hL]
  show (if false = true then _ else wrap (s - g.a) RL < g.len) ↔ _
  rw [if_neg (by simp), hdist]
  by_cases hle : o ≤ wrap (s - x) RL
  · rw [wrap_of_mem hL (by linarith) (by linarith)]
    constructor
    · exact fun hlt => ⟨hle, by linarith⟩
    · exact fun hlt => by linarith [hlt.2]
  · have hback : wrap (wrap (s - x) RL - o) RL = wrap (s - x) RL - o + RL := by
      have hshift := wrap_add_mul hL (wrap (s - x) RL - o) 1
      rw [Int.cast_one, mul_one] at hshift
      rw [← hshift]
      exact wrap_of_mem hL (by linarith) (by linarith [not_le.mp hle])
    rw [hback]
    constructor
    · exact fun hlt => by linarith
    · exact fun hlt => absurd hlt.1 hle

end Around

/-! ## Runs -/

/-- Runs in order, before a sample. -/
structure RunsTo (k : ℕ) (runs : List Run) : Prop where
  ordered : runs.Pairwise fun r next => r.e < next.s
  each : ∀ r ∈ runs, r.s ≤ r.e ∧ r.e < k

theorem RunsTo.snoc {k : ℕ} {runs : List Run} (h : RunsTo k runs) {s : ℕ} {sign : ℤ} (hs : k ≤ s) :
    RunsTo (s + 1) (runs ++ [⟨s, s, sign⟩]) := by
  refine ⟨?_, ?_⟩
  · refine List.pairwise_append.mpr ⟨h.ordered, List.pairwise_singleton _ _, ?_⟩
    intro r hr next hnext
    rw [List.mem_singleton.mp hnext]
    exact lt_of_lt_of_le (h.each r hr).2 hs
  · intro r hr
    rcases List.mem_append.mp hr with hr | hr
    · have := h.each r hr
      omega
    · rw [List.mem_singleton.mp hr]
      exact ⟨le_rfl, Nat.lt_succ_self s⟩

theorem RunsTo.step {rate : ℕ → ℚ} {k : ℕ} {scan : List Run × Option Run} (h : RunsTo k (scan.1 ++ scan.2.toList)) :
    RunsTo (k + 1) ((scanStep rate scan k).1 ++ (scanStep rate scan k).2.toList) := by
  have hlater : ∀ {runs : List Run}, RunsTo k runs → RunsTo (k + 1) runs := fun hruns =>
    ⟨hruns.ordered, fun r hr => ⟨(hruns.each r hr).1, Nat.lt_succ_of_lt (hruns.each r hr).2⟩⟩
  unfold scanStep
  split
  · obtain ⟨runs, cur⟩ := scan
    cases cur with
    | none =>
        rw [Option.toList_none, List.append_nil] at h
        exact h.snoc le_rfl
    | some cur =>
        simp only
        split
        · -- the run at hand goes on
          obtain ⟨hordered, heach⟩ := h
          obtain ⟨hruns, -, hcross⟩ := List.pairwise_append.mp hordered
          have hcur := heach cur (List.mem_append_right _ (List.mem_singleton.mpr rfl))
          refine ⟨List.pairwise_append.mpr ⟨hruns, List.pairwise_singleton _ _, ?_⟩, ?_⟩
          · intro r hr next hnext
            rw [List.mem_singleton.mp hnext]
            exact hcross r hr cur (List.mem_singleton.mpr rfl)
          · intro r hr
            rcases List.mem_append.mp hr with hr | hr
            · have := heach r (List.mem_append_left _ hr)
              omega
            · rw [List.mem_singleton.mp hr]
              exact ⟨by show cur.s ≤ k; omega, Nat.lt_succ_self k⟩
        · exact h.snoc le_rfl
  · exact hlater h

/-- The pieces follow each other, from a sample to another one. -/
def ChainTo : ℕ → List Raw → ℕ → Prop
  | x, [], E => E = x
  | x, o :: out, E => o.k0 = x ∧ o.k0 < o.k1 ∧ ChainTo o.k1 out E

section Pieces

variable {count : ℕ} {first r : Run} {rest : List Run} {prev last : Raw}

theorem RunsTo.tail (h : RunsTo count (r :: rest)) : RunsTo count rest :=
  ⟨h.ordered.of_cons, fun r' hr' => h.each r' (List.mem_cons_of_mem _ hr')⟩

end Pieces

/-! ## Segments of a loop -/

section Closed

variable {RL step : ℚ} {i0 count : ℕ} {x E : ℕ} {out : List Raw}

end Closed

/-! ## Open courses -/

/-- The segments follow each other along a path, from a point on. -/
def Along : ℚ → List Seg → Prop
  | _, [] => True
  | x, g :: segs => g.a = x ∧ 0 < g.len ∧ Along (x + g.len) segs

section Along

variable {RL x : ℚ} {segs : List Seg}

theorem Along.get (h : Along x segs) {i : ℕ} {g : Seg} (hget : segs[i]? = some g) :
    g.a = x + offset (segs.map Seg.len) i ∧ 0 < g.len := by
  induction segs generalizing x i with
  | nil => exact absurd hget (by simp)
  | cons g₀ segs ih =>
      obtain ⟨ha, hlen, hrest⟩ := h
      cases i with
      | zero =>
          obtain rfl : g₀ = g := Option.some.inj hget
          rw [offset_zero, add_zero]
          exact ⟨ha, hlen⟩
      | succ i =>
          obtain ⟨ha', hlen'⟩ := ih hrest hget
          refine ⟨?_, hlen'⟩
          rw [ha', add_assoc]
          rfl

theorem Along.len_pos (h : Along x segs) : ∀ l ∈ segs.map Seg.len, 0 < l := by
  intro l hl
  obtain ⟨g, hg, rfl⟩ := List.mem_map.mp hl
  obtain ⟨j, hj⟩ := List.mem_iff_getElem?.mp hg
  exact (h.get hj).2

/-- A segment from the start of the path on holds what lies between its own ends. -/
theorem Along.contains_iff (h : Along 0 segs) {i : ℕ} {g : Seg} (hget : segs[i]? = some g) (s : ℚ) :
    g.Contains RL true s ↔ offset (segs.map Seg.len) i ≤ s ∧ s < offset (segs.map Seg.len) i + g.len := by
  have ha := (h.get hget).1
  rw [zero_add] at ha
  show (if true = true then g.a ≤ s ∧ s < g.a + g.len else _) ↔ _
  rw [if_pos rfl, ha]

/-- **One segment holds a point of the path.** -/
theorem Along.exists_segment (h : Along 0 segs) (htotal : (segs.map Seg.len).sum = RL) {s : ℚ} (hs : 0 ≤ s)
    (hsL : s < RL) : ∃ i, ∃ hi : i < segs.length, segs[i].Contains RL true s ∧
      ∀ (j : ℕ) (g : Seg), segs[j]? = some g → g.Contains RL true s → j = i := by
  obtain ⟨i, hi, hin⟩ := exists_piece (segs.map Seg.len) hs (by rw [htotal]; exact hsL)
  have hi' : i < segs.length := by rwa [List.length_map] at hi
  rw [List.getElem_map] at hin
  refine ⟨i, hi', (h.contains_iff (List.getElem?_eq_getElem hi') s).mpr hin, ?_⟩
  intro j g hj hg
  obtain ⟨hjlt, hjeq⟩ := List.getElem?_eq_some_iff.mp hj
  refine piece_unique (d := s) h.len_pos (by rw [List.length_map]; exact hjlt) hi ?_ ?_
  · rw [List.getElem_map, hjeq]
    exact (h.contains_iff hj s).mp hg
  · rw [List.getElem_map]
    exact hin

end Along

section Open

variable {count pos E : ℕ} {out : List Raw} {step RL : ℚ}

theorem ChainTo.concat {x : ℕ} {o : Raw} :
    ChainTo x (out ++ [o]) E ↔ ChainTo x out o.k0 ∧ o.k0 < o.k1 ∧ E = o.k1 := by
  induction out generalizing x with
  | nil =>
      rw [List.nil_append]
      exact Iff.rfl
  | cons p out ih => rw [List.cons_append, ChainTo, ih, ChainTo, and_assoc, and_assoc]

/-- A piece of a chain starts before its end. -/
theorem ChainTo.lt {x : ℕ} (h : ChainTo x out E) : x ≤ E ∧ ∀ o ∈ out, o.k0 < E := by
  induction out generalizing x with
  | nil =>
      obtain rfl : E = x := h
      exact ⟨le_rfl, fun o ho => absurd ho List.not_mem_nil⟩
  | cons p out ih =>
      obtain ⟨rfl, hlt, hrest⟩ := h
      obtain ⟨hle, hall⟩ := ih hrest
      refine ⟨by omega, ?_⟩
      intro o ho
      rcases List.mem_cons.mp ho with rfl | ho
      · omega
      · exact hall o ho

end Open

/-! ## All courses -/

end Lhre.DriveDay
