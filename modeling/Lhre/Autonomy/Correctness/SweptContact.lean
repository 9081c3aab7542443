import Mathlib.Tactic
import Lhre.Autonomy.CourseEnvelope
import Lhre.Theory.Lines
import Lhre.Theory.Plane

/-!
# `Autonomy.Correctness.SweptContact` — the sweep misses no contact

A point of the footprint moves, between a sampled pose and any pose of the motion up to half a step away, by at most the
padding. What the footprint touches on the way is touched by the padded footprint of the nearest sampled pose, and the tests
miss no contact of closed shapes, but for a clip whose direction is all but parallel to a side.

## Contents
- **Frames.** `Footprint`, `toLocal_toMap`, `project_bounds`.
- **Rectangles.** `touch_of_shared`, `shared_of_touch`.
- **Segments.** `Segment`, `clip_keeps`, `clip_sound`, `segment_hits_iff`, `segment_hits`.
- **The motion.** `footprint_padded`, `exists_sample`.
- **Observations.** `MissesNothing`, `report_sound`, `run_hitIds`, `swept_contact`, `clip_misses`.
-/

namespace Lhre.Autonomy.Envelope

open Real Plane

/-! ## Frames -/

/-- The closed rectangle of a box at a pose. -/
def Footprint (p : Pose) (b : Box) : Set Point :=
  { q | (b.rear ≤ (p.toLocal q).1 ∧ (p.toLocal q).1 ≤ b.front) ∧
    -b.halfWidth ≤ (p.toLocal q).2 ∧ (p.toLocal q).2 ≤ b.halfWidth }

theorem toMap_toLocal (p : Pose) (q : Point) : p.toMap (p.toLocal q).1 (p.toLocal q).2 = q := by
  have hone := sin_sq_add_cos_sq p.yaw
  ext
  · simp only [Pose.toMap, Pose.toLocal]
    linear_combination (q.1 - p.x) * hone
  · simp only [Pose.toMap, Pose.toLocal]
    linear_combination (q.2 - p.y) * hone

theorem toLocal_toMap (p : Pose) (u v : ℝ) : p.toLocal (p.toMap u v) = (u, v) := by
  have hone := sin_sq_add_cos_sq p.yaw
  ext
  · simp only [Pose.toMap, Pose.toLocal]
    linear_combination u * hone
  · simp only [Pose.toMap, Pose.toLocal]
    linear_combination v * hone

/-- A linear value over a box lies between its values at the corners. -/
theorem corner_bounds (k β γ : ℝ) {b : Box} {u v : ℝ} (hu : b.rear ≤ u ∧ u ≤ b.front) (hv : -b.halfWidth ≤ v ∧ v ≤ b.halfWidth)
    {f : Fin 4 → ℝ} (h0 : f 0 = k + β * b.rear + γ * -b.halfWidth) (h1 : f 1 = k + β * b.front + γ * -b.halfWidth)
    (h2 : f 2 = k + β * b.front + γ * b.halfWidth) (h3 : f 3 = k + β * b.rear + γ * b.halfWidth) :
    minOf f ≤ k + β * u + γ * v ∧ k + β * u + γ * v ≤ maxOf f := by
  have hmin0 : minOf f ≤ f 0 := (min_le_left _ _).trans (min_le_left _ _)
  have hmin1 : minOf f ≤ f 1 := (min_le_left _ _).trans (min_le_right _ _)
  have hmin2 : minOf f ≤ f 2 := (min_le_right _ _).trans (min_le_left _ _)
  have hmin3 : minOf f ≤ f 3 := (min_le_right _ _).trans (min_le_right _ _)
  have hmax0 : f 0 ≤ maxOf f := (le_max_left _ _).trans (le_max_left _ _)
  have hmax1 : f 1 ≤ maxOf f := (le_max_right _ _).trans (le_max_left _ _)
  have hmax2 : f 2 ≤ maxOf f := (le_max_left _ _).trans (le_max_right _ _)
  have hmax3 : f 3 ≤ maxOf f := (le_max_right _ _).trans (le_max_right _ _)
  rcases le_total 0 β with hβ | hβ <;> rcases le_total 0 γ with hγ | hγ
  · have hβ0 := mul_le_mul_of_nonneg_left hu.1 hβ
    have hβ1 := mul_le_mul_of_nonneg_left hu.2 hβ
    have hγ0 := mul_le_mul_of_nonneg_left hv.1 hγ
    have hγ1 := mul_le_mul_of_nonneg_left hv.2 hγ
    constructor <;> linarith
  · have hβ0 := mul_le_mul_of_nonneg_left hu.1 hβ
    have hβ1 := mul_le_mul_of_nonneg_left hu.2 hβ
    have hγ0 := mul_le_mul_of_nonpos_left hv.1 hγ
    have hγ1 := mul_le_mul_of_nonpos_left hv.2 hγ
    constructor <;> linarith
  · have hβ0 := mul_le_mul_of_nonpos_left hu.1 hβ
    have hβ1 := mul_le_mul_of_nonpos_left hu.2 hβ
    have hγ0 := mul_le_mul_of_nonneg_left hv.1 hγ
    have hγ1 := mul_le_mul_of_nonneg_left hv.2 hγ
    constructor <;> linarith
  · have hβ0 := mul_le_mul_of_nonpos_left hu.1 hβ
    have hβ1 := mul_le_mul_of_nonpos_left hu.2 hβ
    have hγ0 := mul_le_mul_of_nonpos_left hv.1 hγ
    have hγ1 := mul_le_mul_of_nonpos_left hv.2 hγ
    constructor <;> linarith

/-- The projection of a point on an axis. -/
def dot (n q : Point) : ℝ := q.1 * n.1 + q.2 * n.2

/-- **A point of a rectangle** projects between its corners. -/
theorem project_bounds (n : Point) {p : Pose} {b : Box} {q : Point} (hq : q ∈ Footprint p b) :
    minOf (project n (rectangle p b)) ≤ dot n q ∧ dot n q ≤ maxOf (project n (rectangle p b)) := by
  have hvalue (u v : ℝ) : dot n (p.toMap u v) = (p.x * n.1 + p.y * n.2) + (cos p.yaw * n.1 + sin p.yaw * n.2) * u +
      (-sin p.yaw * n.1 + cos p.yaw * n.2) * v := by
    simp only [dot, Pose.toMap]
    ring
  have hdot := hvalue (p.toLocal q).1 (p.toLocal q).2
  rw [toMap_toLocal] at hdot
  rw [hdot]
  exact corner_bounds _ _ _ hq.1 hq.2 (hvalue _ _) (hvalue _ _) (hvalue _ _) (hvalue _ _)

/-! ## Rectangles -/

/-- **Rectangles that share a point touch.** -/
theorem touch_of_shared {p p' : Pose} {b b' : Box} {q : Point} (hq : q ∈ Footprint p b) (hq' : q ∈ Footprint p' b') :
    RectanglesTouch (rectangle p b) (rectangle p' b') := by
  have hnone (n : Point) : ¬ Separates n (rectangle p b) (rectangle p' b') := by
    have h := project_bounds n hq
    have h' := project_bounds n hq'
    rintro (hlt | hlt) <;> linarith [h.1, h.2, h'.1, h'.2]
  exact ⟨hnone _, hnone _, hnone _, hnone _⟩

theorem bounds_fst (points : Fin 4 → Point) : (fun i => (points i).1) = project (1, 0) points := by
  funext i
  simp [project]

theorem bounds_snd (points : Fin 4 → Point) : (fun i => (points i).2) = project (0, 1) points := by
  funext i
  simp [project]

/-- A point of a rectangle lies in its bounds. -/
theorem mem_bounds {p : Pose} {b : Box} {q : Point} (hq : q ∈ Footprint p b) :
    ((bounds (rectangle p b)).x0 ≤ q.1 ∧ q.1 ≤ (bounds (rectangle p b)).x1) ∧
      (bounds (rectangle p b)).y0 ≤ q.2 ∧ q.2 ≤ (bounds (rectangle p b)).y1 := by
  have hx := project_bounds (1, 0) hq
  have hy := project_bounds (0, 1) hq
  have hxdot : dot (1, 0) q = q.1 := by simp [dot]
  have hydot : dot (0, 1) q = q.2 := by simp [dot]
  rw [hxdot] at hx
  rw [hydot] at hy
  simp only [bounds, bounds_fst, bounds_snd]
  exact ⟨hx, hy⟩

/-! ### Two rectangles that touch share a point -/

theorem isAffine_dot (n : Point) : IsAffine (dot n) := by
  intro x y a b _
  simp only [dot, Prod.fst_add, Prod.snd_add, Prod.smul_fst, Prod.smul_snd, smul_eq_mul]
  ring

theorem isAffine_fst (p : Pose) : IsAffine fun q => (p.toLocal q).1 := by
  intro x y a b hab
  simp only [Pose.toLocal, Prod.fst_add, Prod.snd_add, Prod.smul_fst, Prod.smul_snd, smul_eq_mul]
  linear_combination (cos p.yaw * p.x + sin p.yaw * p.y) * hab

theorem isAffine_snd (p : Pose) : IsAffine fun q => (p.toLocal q).2 := by
  intro x y a b hab
  simp only [Pose.toLocal, Prod.fst_add, Prod.snd_add, Prod.smul_fst, Prod.smul_snd, smul_eq_mul]
  linear_combination (-sin p.yaw * p.x + cos p.yaw * p.y) * hab

/-- A rectangle is two slabs. -/
theorem footprint_slabs (p : Pose) (b : Box) :
    Footprint p b = Slab (fun q => (p.toLocal q).1) b.rear b.front ∩ Slab (fun q => (p.toLocal q).2)
        (-b.halfWidth) b.halfWidth :=
  rfl

/-- A box with an inside. -/
structure Box.Proper (b : Box) : Prop where
  length : b.rear < b.front
  width : 0 < b.halfWidth

theorem corner_mem (p : Pose) {b : Box} (h : b.Proper) (i : Fin 4) : rectangle p b i ∈ Footprint p b := by
  have hlength := h.length.le
  have hwidth : -b.halfWidth ≤ b.halfWidth := by linarith [h.width]
  have hcorner (u v : ℝ) (hu : b.rear ≤ u ∧ u ≤ b.front) (hv : -b.halfWidth ≤ v ∧ v ≤ b.halfWidth) :
      p.toMap u v ∈ Footprint p b := by
    have hlocal := toLocal_toMap p u v
    refine ⟨?_, ?_⟩ <;> rw [hlocal]
    · exact hu
    · exact hv
  fin_cases i
  · exact hcorner _ _ ⟨le_rfl, hlength⟩ ⟨le_rfl, hwidth⟩
  · exact hcorner _ _ ⟨hlength, le_rfl⟩ ⟨le_rfl, hwidth⟩
  · exact hcorner _ _ ⟨hlength, le_rfl⟩ ⟨hwidth, le_rfl⟩
  · exact hcorner _ _ ⟨le_rfl, hlength⟩ ⟨hwidth, le_rfl⟩

theorem exists_minOf (f : Fin 4 → ℝ) : ∃ i, f i = minOf f := by
  unfold minOf
  rcases min_choice (min (f 0) (f 1)) (min (f 2) (f 3)) with h | h <;> rw [h]
  · rcases min_choice (f 0) (f 1) with h | h <;> rw [h]
    · exact ⟨0, rfl⟩
    · exact ⟨1, rfl⟩
  · rcases min_choice (f 2) (f 3) with h | h <;> rw [h]
    · exact ⟨2, rfl⟩
    · exact ⟨3, rfl⟩

theorem exists_maxOf (f : Fin 4 → ℝ) : ∃ i, f i = maxOf f := by
  unfold maxOf
  rcases max_choice (max (f 0) (f 1)) (max (f 2) (f 3)) with h | h <;> rw [h]
  · rcases max_choice (f 0) (f 1) with h | h <;> rw [h]
    · exact ⟨0, rfl⟩
    · exact ⟨1, rfl⟩
  · rcases max_choice (f 2) (f 3) with h | h <;> rw [h]
    · exact ⟨2, rfl⟩
    · exact ⟨3, rfl⟩

/-- **Every value between the corners** is the projection of a point of the rectangle. -/
theorem exists_projection (n : Point) (p : Pose) {b : Box} (h : b.Proper) {m : ℝ}
    (hmin : minOf (project n (rectangle p b)) ≤ m) (hmax : m ≤ maxOf (project n (rectangle p b))) :
    ∃ q ∈ Footprint p b, dot n q = m := by
  obtain ⟨i, hi⟩ := exists_minOf (project n (rectangle p b))
  obtain ⟨j, hj⟩ := exists_maxOf (project n (rectangle p b))
  rw [← hi] at hmin
  rw [← hj] at hmax
  change dot n (rectangle p b i) ≤ m at hmin
  change m ≤ dot n (rectangle p b j) at hmax
  have hconvex : Convex ℝ (Footprint p b) := by
    rw [footprint_slabs]
    exact (convex_slab (isAffine_fst p) _ _).inter (convex_slab (isAffine_snd p) _ _)
  rcases hmin.eq_or_lt with heq | hlt
  · exact ⟨_, corner_mem p h i, heq⟩
  · have hwidth : 0 < dot n (rectangle p b j) - dot n (rectangle p b i) := by linarith
    have hweight : 0 ≤ (m - dot n (rectangle p b i)) / (dot n (rectangle p b j) - dot n (rectangle p b i)) :=
      div_nonneg (by linarith) hwidth.le
    have hweight' : (m - dot n (rectangle p b i)) / (dot n (rectangle p b j) - dot n (rectangle p b i)) ≤ 1 :=
      (div_le_one hwidth).mpr (by linarith)
    refine ⟨_, hconvex (corner_mem p h i) (corner_mem p h j) (sub_nonneg.mpr hweight') hweight (sub_add_cancel _ _), ?_⟩
    rw [isAffine_dot n _ _ _ _ (sub_add_cancel _ _)]
    field_simp
    ring

/-- An axis that does not separate: a point of the second rectangle projects between the corners of the first. -/
theorem exists_between_corners (n : Point) {a : Fin 4 → Point} (p : Pose) {b : Box} (h : b.Proper)
    (hmin : ¬ maxOf (project n a) < minOf (project n (rectangle p b)))
    (hmax : ¬ maxOf (project n (rectangle p b)) < minOf (project n a)) :
    ∃ q ∈ Footprint p b, minOf (project n a) ≤ dot n q ∧ dot n q ≤ maxOf (project n a) := by
  have hown : minOf (project n a) ≤ maxOf (project n a) :=
    ((min_le_left _ _).trans (min_le_left _ _)).trans ((le_max_left (project n a 0) _).trans (le_max_left _ _))
  have hother : minOf (project n (rectangle p b)) ≤ maxOf (project n (rectangle p b)) :=
    (project_bounds n (corner_mem p h 0)).1.trans (project_bounds n (corner_mem p h 0)).2
  obtain ⟨q, hq, hdot⟩ := exists_projection n p h (m := max (minOf (project n a)) (minOf (project n (rectangle p b))))
    (le_max_right _ _) (max_le (not_lt.mp hmax) hother)
  exact ⟨q, hq, hdot ▸ le_max_left _ _, hdot ▸ max_le hown (not_lt.mp hmin)⟩

/-- A projection along a side of a rectangle is a slab of it. -/
theorem slab_of_axis {n : Point} {a : Fin 4 → Point} {g : Point → ℝ} {c k : ℝ} (lo hi : ℝ) (hc : 0 < c)
    (hdot : ∀ q, dot n q = c * g q + k) (hcorners : ∀ i, lo ≤ g (a i) ∧ g (a i) ≤ hi) {q : Point}
    (hmin : minOf (project n a) ≤ dot n q) (hmax : dot n q ≤ maxOf (project n a)) : lo ≤ g q ∧ g q ≤ hi := by
  obtain ⟨i, hi'⟩ := exists_minOf (project n a)
  obtain ⟨j, hj'⟩ := exists_maxOf (project n a)
  rw [← hi'] at hmin
  rw [← hj'] at hmax
  change dot n (a i) ≤ dot n q at hmin
  change dot n q ≤ dot n (a j) at hmax
  rw [hdot, hdot] at hmin hmax
  have hlow : g (a i) ≤ g q := le_of_mul_le_mul_left (by linarith) hc
  have hhigh : g q ≤ g (a j) := le_of_mul_le_mul_left (by linarith) hc
  exact ⟨(hcorners i).1.trans hlow, hhigh.trans (hcorners j).2⟩

/-- The normal of a long side. -/
theorem slab_of_first (p : Pose) {b : Box} (h : b.Proper) {q : Point}
    (hmin : minOf (project (normal (rectangle p b 0) (rectangle p b 1)) (rectangle p b)) ≤
      dot (normal (rectangle p b 0) (rectangle p b 1)) q)
    (hmax : dot (normal (rectangle p b 0) (rectangle p b 1)) q ≤
      maxOf (project (normal (rectangle p b 0) (rectangle p b 1)) (rectangle p b))) :
    q ∈ Slab (fun q => (p.toLocal q).2) (-b.halfWidth) b.halfWidth := by
  refine slab_of_axis (g := fun q => (p.toLocal q).2) (c := b.front - b.rear)
    (k := (b.front - b.rear) * (-sin p.yaw * p.x + cos p.yaw * p.y)) _ _ (sub_pos.mpr h.length) ?_ ?_ hmin hmax
  · intro q
    simp only [dot, normal, rectangle, Pose.toMap, Pose.toLocal, Matrix.cons_val_zero, Matrix.cons_val_one]
    ring
  · intro i
    exact (corner_mem p h i).2

/-- The normal of a short side, which points back. -/
theorem slab_of_second (p : Pose) {b : Box} (h : b.Proper) {q : Point}
    (hmin : minOf (project (normal (rectangle p b 1) (rectangle p b 2)) (rectangle p b)) ≤
      dot (normal (rectangle p b 1) (rectangle p b 2)) q)
    (hmax : dot (normal (rectangle p b 1) (rectangle p b 2)) q ≤
      maxOf (project (normal (rectangle p b 1) (rectangle p b 2)) (rectangle p b))) :
    q ∈ Slab (fun q => (p.toLocal q).1) b.rear b.front := by
  have hback := slab_of_axis (g := fun q => -(p.toLocal q).1) (c := 2 * b.halfWidth)
    (k := -(2 * b.halfWidth) * (cos p.yaw * p.x + sin p.yaw * p.y)) (-b.front) (-b.rear) (by linarith [h.width]) ?_ ?_ hmin hmax
  · exact ⟨neg_le_neg_iff.mp hback.2, neg_le_neg_iff.mp hback.1⟩
  · intro q
    simp only [dot, normal, rectangle, Pose.toMap, Pose.toLocal, Matrix.cons_val_one, Matrix.cons_val]
    ring
  · intro i
    have hin := (corner_mem p h i).1
    exact ⟨neg_le_neg hin.2, neg_le_neg hin.1⟩

/-- **Rectangles that touch share a point.** -/
theorem shared_of_touch {p p' : Pose} {b b' : Box} (h : b.Proper) (h' : b'.Proper)
    (htouch : RectanglesTouch (rectangle p b) (rectangle p' b')) : (Footprint p b ∩ Footprint p' b').Nonempty := by
  obtain ⟨hfirst, hsecond, hfirst', hsecond'⟩ := htouch
  have hsides {n : Point} (hnot : ¬ Separates n (rectangle p b) (rectangle p' b')) := not_or.mp hnot
  have hconvex (i : Fin 4) : Convex ℝ ((![Slab (fun q => (p.toLocal q).1) b.rear b.front,
      Slab (fun q => (p.toLocal q).2) (-b.halfWidth) b.halfWidth, Slab (fun q => (p'.toLocal q).1) b'.rear b'.front,
      Slab (fun q => (p'.toLocal q).2) (-b'.halfWidth) b'.halfWidth] : Fin 4 → Set Point) i) := by
    fin_cases i
    · exact convex_slab (isAffine_fst p) _ _
    · exact convex_slab (isAffine_snd p) _ _
    · exact convex_slab (isAffine_fst p') _ _
    · exact convex_slab (isAffine_snd p') _ _
  obtain ⟨q, hq⟩ := helly_four (by rw [Module.finrank_prod, Module.finrank_self]) hconvex (by
    intro j
    fin_cases j
    · obtain ⟨q, hq, hmin, hmax⟩ := exists_between_corners _ p' h' (hsides hfirst).1 (hsides hfirst).2
      refine ⟨q, fun i hi => ?_⟩
      fin_cases i
      · exact absurd rfl hi
      · exact slab_of_first p h hmin hmax
      · exact hq.1
      · exact hq.2
    · obtain ⟨q, hq, hmin, hmax⟩ := exists_between_corners _ p' h' (hsides hsecond).1 (hsides hsecond).2
      refine ⟨q, fun i hi => ?_⟩
      fin_cases i
      · exact slab_of_second p h hmin hmax
      · exact absurd rfl hi
      · exact hq.1
      · exact hq.2
    · obtain ⟨q, hq, hmin, hmax⟩ := exists_between_corners _ p h (hsides hfirst').2 (hsides hfirst').1
      refine ⟨q, fun i hi => ?_⟩
      fin_cases i
      · exact hq.1
      · exact hq.2
      · exact absurd rfl hi
      · exact slab_of_first p' h' hmin hmax
    · obtain ⟨q, hq, hmin, hmax⟩ := exists_between_corners _ p h (hsides hsecond').2 (hsides hsecond').1
      refine ⟨q, fun i hi => ?_⟩
      fin_cases i
      · exact hq.1
      · exact hq.2
      · exact slab_of_second p' h' hmin hmax
      · exact absurd rfl hi)
  exact ⟨q, ⟨hq 0, hq 1⟩, hq 2, hq 3⟩

/-! ## Segments -/

/-- The closed segment between two points. -/
def Segment (a b : Point) : Set Point := { q | ∃ t : ℝ, 0 ≤ t ∧ t ≤ 1 ∧ q = ((1 - t) • a + t • b : Point) }

/-- **The clip keeps** a fraction at which the value is in the range, a clip's width inside where the direction is small. -/
theorem clip_keeps {start finish minimum maximum t : ℝ} (range : ℝ × ℝ) (hin : range.1 ≤ t ∧ t ≤ range.2)
    (hvalue : minimum ≤ (1 - t) * start + t * finish ∧ (1 - t) * start + t * finish ≤ maximum)
    (hsmall : |finish - start| < 1e-12 → minimum ≤ start ∧ start ≤ maximum) :
    ∃ range', clip start finish minimum maximum range = some range' ∧ range'.1 ≤ t ∧ t ≤ range'.2 := by
  unfold clip
  dsimp only
  by_cases hdelta : |finish - start| < 1e-12
  · rw [if_pos hdelta, if_pos (hsmall hdelta)]
    exact ⟨range, rfl, hin⟩
  · have hne : finish - start ≠ 0 := by
      intro hzero
      rw [hzero, abs_zero] at hdelta
      norm_num at hdelta
    rw [if_neg hdelta]
    have hline : (1 - t) * start + t * finish = start + t * (finish - start) := by ring
    rw [hline] at hvalue
    -- the fraction is between the two at which the value passes the ends of its range
    have hbetween : min ((minimum - start) / (finish - start)) ((maximum - start) / (finish - start)) ≤ t ∧
        t ≤ max ((minimum - start) / (finish - start)) ((maximum - start) / (finish - start)) := by
      rcases lt_or_gt_of_ne hne with hneg | hpos
      · have hlow : (maximum - start) / (finish - start) ≤ t := (div_le_iff_of_neg hneg).mpr (by linarith [hvalue.2])
        have hhigh : t ≤ (minimum - start) / (finish - start) := (le_div_iff_of_neg hneg).mpr (by linarith [hvalue.1])
        exact ⟨(min_le_right _ _).trans hlow, hhigh.trans (le_max_left _ _)⟩
      · have hlow : (minimum - start) / (finish - start) ≤ t := (div_le_iff₀ hpos).mpr (by linarith [hvalue.1])
        have hhigh : t ≤ (maximum - start) / (finish - start) := (le_div_iff₀ hpos).mpr (by linarith [hvalue.2])
        exact ⟨(min_le_left _ _).trans hlow, hhigh.trans (le_max_right _ _)⟩
    have hlow := max_le hin.1 hbetween.1
    have hhigh := le_min hin.2 hbetween.2
    rw [if_neg (not_lt.mpr (hlow.trans hhigh))]
    exact ⟨_, rfl, hlow, hhigh⟩

/-- A direction that is not all but parallel: no component that is not zero is below the clip's bound. -/
def Clear (start finish : ℝ) : Prop := finish - start = 0 ∨ 1e-12 ≤ |finish - start|

/-- What the clip leaves of a range is in it, and its values are in theirs. -/
theorem clip_sound {start finish minimum maximum : ℝ} {range range' : ℝ × ℝ} (hle : minimum ≤ maximum)
    (hrange : range.1 ≤ range.2) (hclear : Clear start finish) (h : clip start finish minimum maximum range = some range') :
    range'.1 ≤ range'.2 ∧ range.1 ≤ range'.1 ∧ range'.2 ≤ range.2 ∧
      ∀ t, range'.1 ≤ t → t ≤ range'.2 → minimum ≤ (1 - t) * start + t * finish ∧ (1 - t) * start + t * finish ≤ maximum := by
  unfold clip at h
  dsimp only at h
  have hline (t : ℝ) : (1 - t) * start + t * finish = start + t * (finish - start) := by ring
  by_cases hdelta : |finish - start| < 1e-12
  · rw [if_pos hdelta] at h
    have hzero : finish - start = 0 := hclear.resolve_right (not_le.mpr hdelta)
    split at h
    next hin =>
      obtain rfl := Option.some.inj h
      refine ⟨hrange, le_rfl, le_rfl, fun t _ _ => ?_⟩
      rw [hline, hzero, mul_zero, add_zero]
      exact hin
    next => cases h
  · rw [if_neg hdelta] at h
    have hne : finish - start ≠ 0 := by
      intro hzero
      rw [hzero, abs_zero] at hdelta
      norm_num at hdelta
    split at h
    next => cases h
    next horder =>
      obtain rfl := Option.some.inj h
      refine ⟨not_lt.mp horder, le_max_left _ _, min_le_left _ _, fun t hlow hhigh => ?_⟩
      have hlow' := (le_max_right _ _).trans hlow
      have hhigh' := hhigh.trans (min_le_right _ _)
      rw [hline]
      rcases lt_or_gt_of_ne hne with hneg | hpos
      · have horder : (maximum - start) / (finish - start) ≤ (minimum - start) / (finish - start) :=
          div_le_div_of_nonpos_of_le hneg.le (sub_le_sub_right hle start)
        rw [min_eq_right horder] at hlow'
        rw [max_eq_left horder] at hhigh'
        have hmax := (div_le_iff_of_neg hneg).mp hlow'
        have hmin := (le_div_iff_of_neg hneg).mp hhigh'
        constructor <;> linarith
      · have horder : (minimum - start) / (finish - start) ≤ (maximum - start) / (finish - start) :=
          div_le_div_of_nonneg_right (sub_le_sub_right hle start) hpos.le
        rw [min_eq_left horder] at hlow'
        rw [max_eq_right horder] at hhigh'
        have hmin := (div_le_iff₀ hpos).mp hlow'
        have hmax := (le_div_iff₀ hpos).mp hhigh'
        constructor <;> linarith

/-- The local coordinates of a point of a segment. -/
theorem toLocal_segment (p : Pose) (a b : Point) (t : ℝ) :
    (p.toLocal ((1 - t) • a + t • b)).1 = (1 - t) * (p.toLocal a).1 + t * (p.toLocal b).1 ∧
      (p.toLocal ((1 - t) • a + t • b)).2 = (1 - t) * (p.toLocal a).2 + t * (p.toLocal b).2 :=
  ⟨isAffine_fst p a b _ _ (sub_add_cancel 1 t), isAffine_snd p a b _ _ (sub_add_cancel 1 t)⟩

/-- **A segment with a point of a rectangle hits it**, where its start does not decide by itself. -/
theorem segment_keeps {p : Pose} {box : Box} {a b q : Point} (hq : q ∈ Segment a b) (hin : q ∈ Footprint p box)
    (hfirst : |(p.toLocal b).1 - (p.toLocal a).1| < 1e-12 → box.rear ≤ (p.toLocal a).1 ∧ (p.toLocal a).1 ≤ box.front)
    (hsecond : |(p.toLocal b).2 - (p.toLocal a).2| < 1e-12 →
      -box.halfWidth ≤ (p.toLocal a).2 ∧ (p.toLocal a).2 ≤ box.halfWidth) : SegmentHitsRectangle a b p box := by
  obtain ⟨t, h0, h1, rfl⟩ := hq
  obtain ⟨hu, hv⟩ := hin
  rw [(toLocal_segment p a b t).1] at hu
  rw [(toLocal_segment p a b t).2] at hv
  obtain ⟨range, hrange, hlow⟩ := clip_keeps (0, 1) ⟨h0, h1⟩ hu hfirst
  obtain ⟨range', hrange', -⟩ := clip_keeps range hlow hv hsecond
  rw [SegmentHitsRectangle, hrange, Option.bind_some, hrange']
  rfl

/-- **The clip is exact** where no direction is all but parallel to a side. -/
theorem segment_hits_iff {p : Pose} {box : Box} (hlength : box.rear ≤ box.front) (hwidth : 0 ≤ box.halfWidth) {a b : Point}
    (hfirst : Clear (p.toLocal a).1 (p.toLocal b).1) (hsecond : Clear (p.toLocal a).2 (p.toLocal b).2) :
    SegmentHitsRectangle a b p box ↔ (Segment a b ∩ Footprint p box).Nonempty := by
  constructor
  · intro h
    obtain ⟨range', hrange'⟩ := Option.isSome_iff_exists.mp h
    obtain ⟨range, hrange, hclip⟩ := Option.bind_eq_some_iff.mp hrange'
    obtain ⟨hle, hlow, hhigh, hvalues⟩ := clip_sound hlength zero_le_one hfirst hrange
    obtain ⟨hle', hlow', hhigh', hvalues'⟩ := clip_sound (by linarith) hle hsecond hclip
    refine ⟨(1 - range'.1) • a + range'.1 • b, ⟨range'.1, hlow.trans hlow', hle'.trans (hhigh'.trans hhigh), rfl⟩, ?_, ?_⟩
    · rw [(toLocal_segment p a b range'.1).1]
      exact hvalues _ hlow' (hle'.trans hhigh')
    · rw [(toLocal_segment p a b range'.1).2]
      exact hvalues' _ le_rfl hle'
  · rintro ⟨q, ⟨t, h0, h1, rfl⟩, hin⟩
    -- a direction below the bound is zero, and every value is that of the start
    have hstill {start finish : ℝ} (hclear : Clear start finish) (hsmall : |finish - start| < 1e-12) :
        (1 - t) * start + t * finish = start := by
      have hzero := hclear.resolve_right (not_le.mpr hsmall)
      linear_combination t * hzero
    refine segment_keeps ⟨t, h0, h1, rfl⟩ hin ?_ ?_
    · intro hsmall
      rw [← hstill hfirst hsmall, ← (toLocal_segment p a b t).1]
      exact hin.1
    · intro hsmall
      rw [← hstill hsecond hsmall, ← (toLocal_segment p a b t).2]
      exact hin.2

/-- **A segment that reaches deeper than the clip's bound** hits. -/
theorem segment_hits {p : Pose} {box : Box} {a b q : Point} (hq : q ∈ Segment a b) (hin : q ∈ Footprint p (box.pad (-1e-12))) :
    SegmentHitsRectangle a b p box := by
  obtain ⟨t, h0, h1, rfl⟩ := hq
  have hin' : ((1 - t) • a + t • b : Point) ∈ Footprint p box := by
    obtain ⟨hu, hv⟩ := hin
    simp only [Box.pad] at hu hv
    exact ⟨⟨by linarith [hu.1], by linarith [hu.2]⟩, by linarith [hv.1], by linarith [hv.2]⟩
  have hnear {start finish : ℝ} (hsmall : |finish - start| < 1e-12) :
      |start - ((1 - t) * start + t * finish)| ≤ 1e-12 := by
    have hdiff : start - ((1 - t) * start + t * finish) = t * (start - finish) := by ring
    rw [hdiff, abs_mul, abs_of_nonneg h0, abs_sub_comm start finish]
    exact (mul_le_of_le_one_left (abs_nonneg _) h1).trans hsmall.le
  refine segment_keeps ⟨t, h0, h1, rfl⟩ hin' ?_ ?_
  · intro hsmall
    have hclose := abs_le.mp (hnear hsmall)
    rw [← (toLocal_segment p a b t).1] at hclose
    have hu := hin.1
    simp only [Box.pad] at hu
    constructor <;> linarith [hclose.1, hclose.2, hu.1, hu.2]
  · intro hsmall
    have hclose := abs_le.mp (hnear hsmall)
    rw [← (toLocal_segment p a b t).2] at hclose
    have hv := hin.2
    simp only [Box.pad] at hv
    constructor <;> linarith [hclose.1, hclose.2, hv.1, hv.2]

/-- A point of a segment lies in its bounds. -/
theorem mem_edgeBounds {a b q : Point} (hq : q ∈ Segment a b) :
    ((edgeBounds a b).x0 ≤ q.1 ∧ q.1 ≤ (edgeBounds a b).x1) ∧ (edgeBounds a b).y0 ≤ q.2 ∧ q.2 ≤ (edgeBounds a b).y1 := by
  obtain ⟨t, h0, h1, rfl⟩ := hq
  have hmix (x y : ℝ) : min x y ≤ (1 - t) * x + t * y ∧ (1 - t) * x + t * y ≤ max x y :=
    Lines.mix_bounds h0 h1 ⟨min_le_left x y, le_max_left x y⟩ ⟨min_le_right x y, le_max_right x y⟩
  exact ⟨hmix _ _, hmix _ _⟩

theorem overlap_of_mem {a b : Bounds} {q : Point} (ha : (a.x0 ≤ q.1 ∧ q.1 ≤ a.x1) ∧ a.y0 ≤ q.2 ∧ q.2 ≤ a.y1)
    (hb : (b.x0 ≤ q.1 ∧ q.1 ≤ b.x1) ∧ b.y0 ≤ q.2 ∧ q.2 ≤ b.y1) : Overlap a b :=
  ⟨ha.1.1.trans hb.1.2, hb.1.1.trans ha.1.2, ha.2.1.trans hb.2.2, hb.2.1.trans ha.2.2⟩

/-! ## The motion -/

/-- The distance of a point of the footprint. -/
theorem hypot_le_radius {b : Box} {u v : ℝ} (hu : b.rear ≤ u ∧ u ≤ b.front) (hv : -b.halfWidth ≤ v ∧ v ≤ b.halfWidth) :
    hypot u v ≤ b.radius := by
  have hu' : |u| ≤ max |b.rear| |b.front| := abs_le_max_abs_abs hu.1 hu.2
  have husq : u ^ 2 ≤ (max |b.rear| |b.front|) ^ 2 := by
    rw [← sq_abs u]
    exact pow_le_pow_left₀ (abs_nonneg u) hu' 2
  have hvsq : v ^ 2 ≤ b.halfWidth ^ 2 := sq_le_sq' hv.1 hv.2
  exact sqrt_le_sqrt (add_le_add husq hvsq)

/-- The footprint of one pose in the frame of another. -/
theorem toLocal_other (P Q : Pose) (q : Point) :
    (Q.toLocal q).1 - (P.toLocal q).1 = (cos Q.yaw * (P.x - Q.x) + sin Q.yaw * (P.y - Q.y)) +
        ((P.toLocal q).1 * (cos (P.yaw - Q.yaw) - 1) - (P.toLocal q).2 * sin (P.yaw - Q.yaw)) ∧
      (Q.toLocal q).2 - (P.toLocal q).2 = (-sin Q.yaw * (P.x - Q.x) + cos Q.yaw * (P.y - Q.y)) +
        ((P.toLocal q).1 * sin (P.yaw - Q.yaw) + (P.toLocal q).2 * (cos (P.yaw - Q.yaw) - 1)) := by
  have hone := sin_sq_add_cos_sq P.yaw
  simp only [Pose.toLocal, cos_sub, sin_sub]
  constructor
  · linear_combination (-(cos Q.yaw) * (q.1 - P.x) - sin Q.yaw * (q.2 - P.y)) * hone
  · linear_combination (sin Q.yaw * (q.1 - P.x) - cos Q.yaw * (q.2 - P.y)) * hone

/-- **A point of the footprint moves by at most the padding** between two poses of the motion half a step apart. -/
theorem footprint_padded (course : Course) (p pose : Pose) {b : Box} {τ σ : ℝ} {q : Point}
    (hnear : |τ - σ| ≤ 1 / (2 * sweepSteps course p pose)) (hq : q ∈ Footprint (between p pose τ) b)
    (hradius : hypot ((between p pose τ).toLocal q).1 ((between p pose τ).toLocal q).2 ≤ course.box.radius) :
    q ∈ Footprint (between p pose σ) (b.pad (sweepPadding course p pose)) := by
  obtain ⟨hx, hy⟩ := toLocal_other (between p pose τ) (between p pose σ) q
  have hdx : (between p pose τ).x - (between p pose σ).x = (pose.x - p.x) * (τ - σ) := by
    simp only [between]
    ring
  have hdy : (between p pose τ).y - (between p pose σ).y = (pose.y - p.y) * (τ - σ) := by
    simp only [between]
    ring
  have hdyaw : (between p pose τ).yaw - (between p pose σ).yaw = shortTurn p.yaw pose.yaw * (τ - σ) := by
    simp only [between]
    ring
  rw [hdx, hdy, hdyaw] at hx hy
  obtain ⟨hrot, hrot'⟩ := rotation_bound ((between p pose τ).toLocal q).1 ((between p pose τ).toLocal q).2
    (shortTurn p.yaw pose.yaw * (τ - σ))
  have hdir := direction_bound (between p pose σ).yaw ((pose.x - p.x) * (τ - σ)) ((pose.y - p.y) * (τ - σ))
  have hdir' := direction_bound' (between p pose σ).yaw ((pose.x - p.x) * (τ - σ)) ((pose.y - p.y) * (τ - σ))
  rw [distance_scale] at hdir hdir'
  have hturn : hypot ((between p pose τ).toLocal q).1 ((between p pose τ).toLocal q).2 *
      |shortTurn p.yaw pose.yaw * (τ - σ)| ≤ course.box.radius * |shortTurn p.yaw pose.yaw| * |τ - σ| := by
    rw [abs_mul, mul_assoc]
    exact mul_le_mul_of_nonneg_right hradius (by positivity)
  have hmotion : 0 ≤ motion course p pose :=
    add_nonneg (sqrt_nonneg _) (mul_nonneg (sqrt_nonneg _) (abs_nonneg _))
  have hpadding : motion course p pose * |τ - σ| ≤ sweepPadding course p pose := by
    rw [sweepPadding, div_eq_mul_one_div]
    exact mul_le_mul_of_nonneg_left hnear hmotion
  have htotal : hypot (pose.x - p.x) (pose.y - p.y) * |τ - σ| + course.box.radius * |shortTurn p.yaw pose.yaw| * |τ - σ| ≤
      sweepPadding course p pose := by
    rw [← add_mul]
    exact hpadding
  have hboundx : |((between p pose σ).toLocal q).1 - ((between p pose τ).toLocal q).1| ≤ sweepPadding course p pose := by
    rw [hx]
    exact (abs_add_le _ _).trans ((add_le_add hdir (hrot.trans hturn)).trans htotal)
  have hboundy : |((between p pose σ).toLocal q).2 - ((between p pose τ).toLocal q).2| ≤ sweepPadding course p pose := by
    rw [hy]
    exact (abs_add_le _ _).trans ((add_le_add hdir' (hrot'.trans hturn)).trans htotal)
  have hux := abs_le.mp hboundx
  have huy := abs_le.mp hboundy
  obtain ⟨hu, hv⟩ := hq
  refine ⟨⟨?_, ?_⟩, ?_, ?_⟩ <;> simp only [Box.pad] <;> linarith [hux.1, hux.2, huy.1, huy.2, hu.1, hu.2, hv.1, hv.2]

/-- **Every instant is within half a step of a sampled one.** -/
theorem exists_sample {n : ℕ} (hn : 0 < n) {τ : ℝ} (h0 : 0 ≤ τ) (h1 : τ ≤ 1) : ∃ i ≤ n, |τ - i / n| ≤ 1 / (2 * n) := by
  have hpos : (0 : ℝ) < n := Nat.cast_pos.mpr hn
  have hnonneg : 0 ≤ τ * n + 1 / 2 := by positivity
  have hfloor := Nat.floor_le hnonneg
  have hlt := Nat.lt_floor_add_one (τ * n + 1 / 2)
  refine ⟨⌊τ * n + 1 / 2⌋₊, ?_, ?_⟩
  · have hle : (⌊τ * n + 1 / 2⌋₊ : ℝ) < n + 1 := by
      have hscale : τ * n ≤ n := mul_le_of_le_one_left hpos.le h1
      linarith
    exact Nat.lt_add_one_iff.mp (by exact_mod_cast hle)
  · have hdiff : τ - ⌊τ * n + 1 / 2⌋₊ / n = (τ * n - ⌊τ * n + 1 / 2⌋₊) / n := by
      field_simp
    rw [hdiff, abs_div, abs_of_pos hpos, div_le_div_iff₀ hpos (by positivity)]
    have habs : |τ * n - ⌊τ * n + 1 / 2⌋₊| ≤ 1 / 2 := abs_le.mpr ⟨by linarith, by linarith⟩
    nlinarith

/-! ## Observations -/

theorem sweepSteps_pos (course : Course) (p q : Pose) : 0 < sweepSteps course p q :=
  lt_of_lt_of_le Nat.one_pos (le_max_left _ _)

/-- **The footprint at an instant** is in the padded footprint of a sampled pose, also where it is taken smaller. -/
theorem exists_sampled (course : Course) (previous pose : Pose) {τ : ℝ} (h0 : 0 ≤ τ) (h1 : τ ≤ 1) {ε : ℝ} (hε : 0 ≤ ε)
    {q : Point}
    (hq : q ∈ Footprint (between previous pose τ) (course.box.pad (-ε))) :
    ∃ i ≤ sweepSteps course previous pose, q ∈ Footprint (between previous pose (i / sweepSteps course previous pose))
      ((course.box.pad (sweepPadding course previous pose)).pad (-ε)) := by
  obtain ⟨i, hi, hnear⟩ := exists_sample (sweepSteps_pos course previous pose) h0 h1
  have hradius : hypot ((between previous pose τ).toLocal q).1 ((between previous pose τ).toLocal q).2 ≤ course.box.radius := by
    obtain ⟨hu, hv⟩ := hq
    simp only [Box.pad] at hu hv
    exact hypot_le_radius ⟨by linarith [hu.1], by linarith [hu.2]⟩ ⟨by linarith [hv.1], by linarith [hv.2]⟩
  have hpadded := footprint_padded course previous pose hnear hq hradius
  have hswap : (course.box.pad (-ε)).pad (sweepPadding course previous pose) =
      (course.box.pad (sweepPadding course previous pose)).pad (-ε) := by
    simp only [Box.pad, Box.mk.injEq]
    refine ⟨?_, ?_, ?_⟩ <;> ring
  exact ⟨i, hi, hswap ▸ hpadded⟩

theorem Box.pad_zero (b : Box) : b.pad (-0) = b := by
  simp [Box.pad]

/-- **The report of a continuous observation**: what it does not miss between two poses. -/
structure MissesNothing (course : Course) (previous pose : Pose) (r : Report) : Prop where
  /-- The vehicle touches the base of a cone at some instant. -/
  cone : ∀ τ, 0 ≤ τ → τ ≤ 1 → ∀ cone ∈ course.cones,
    (Footprint (between previous pose τ) course.box ∩ Footprint cone.pose cone.box).Nonempty → cone.identity ∈ r.hits
  /-- The vehicle reaches deeper than the clip's bound over a boundary edge at some instant. -/
  edge : ∀ τ, 0 ≤ τ → τ ≤ 1 → ∀ e ∈ course.edges,
    (Footprint (between previous pose τ) (course.box.pad (-1e-12)) ∩ Segment e.1 e.2).Nonempty → r.outside
  /-- The vehicle touches a boundary edge that is not all but parallel to a side of a sampled pose. -/
  edgeClear : ∀ τ, 0 ≤ τ → τ ≤ 1 → ∀ e ∈ course.edges,
    (∀ i ≤ sweepSteps course previous pose,
      Clear ((between previous pose (i / sweepSteps course previous pose)).toLocal e.1).1
          ((between previous pose (i / sweepSteps course previous pose)).toLocal e.2).1 ∧
        Clear ((between previous pose (i / sweepSteps course previous pose)).toLocal e.1).2
          ((between previous pose (i / sweepSteps course previous pose)).toLocal e.2).2) →
    (Footprint (between previous pose τ) course.box ∩ Segment e.1 e.2).Nonempty → r.outside

/-- A segment hits a rectangle whose sides its direction is not all but parallel to. -/
theorem segment_hits_clear {p : Pose} {box : Box} {a b q : Point} (hq : q ∈ Segment a b) (hin : q ∈ Footprint p box)
    (hfirst : Clear (p.toLocal a).1 (p.toLocal b).1) (hsecond : Clear (p.toLocal a).2 (p.toLocal b).2) :
    SegmentHitsRectangle a b p box := by
  have hlength : box.rear ≤ box.front := hin.1.1.trans hin.1.2
  have hwidth : 0 ≤ box.halfWidth := by linarith [hin.2.1.trans hin.2.2]
  exact (segment_hits_iff hlength hwidth hfirst hsecond).mpr ⟨q, hq, hin⟩

theorem report_sound (course : Course) (st : State) {previous : Pose} (hprevious : st.previous = some previous) (pose : Pose) :
    MissesNothing course previous pose (report course st pose true) := by
  have hreport : report course st pose true =
      { outside := ∃ i ≤ sweepSteps course previous pose, poseOutside course
          (between previous pose (i / sweepSteps course previous pose)) (sweepPadding course previous pose)
        hits := { identity | ∃ i ≤ sweepSteps course previous pose, identity ∈ poseHits course
          (between previous pose (i / sweepSteps course previous pose)) (sweepPadding course previous pose) } } := by
    unfold report
    rw [hprevious]
  rw [hreport]
  refine ⟨?_, ?_, ?_⟩
  · rintro τ h0 h1 cone hcone ⟨q, hq, hq'⟩
    rw [← Box.pad_zero course.box] at hq
    obtain ⟨i, hi, hsampled⟩ := exists_sampled course previous pose h0 h1 le_rfl hq
    rw [Box.pad_zero] at hsampled
    exact ⟨i, hi, cone, hcone, rfl, overlap_of_mem (mem_bounds hsampled) (mem_bounds hq'), touch_of_shared hsampled hq'⟩
  · rintro τ h0 h1 e he ⟨q, hq, hq'⟩
    obtain ⟨i, hi, hsampled⟩ := exists_sampled course previous pose h0 h1 (by norm_num) hq
    have hwhole : q ∈ Footprint (between previous pose (i / sweepSteps course previous pose))
        (course.box.pad (sweepPadding course previous pose)) := by
      obtain ⟨hu, hv⟩ := hsampled
      simp only [Box.pad] at hu hv
      exact ⟨⟨by simp only [Box.pad]; linarith [hu.1], by simp only [Box.pad]; linarith [hu.2]⟩,
        by simp only [Box.pad]; linarith [hv.1], by simp only [Box.pad]; linarith [hv.2]⟩
    exact ⟨i, hi, Or.inr ⟨e, he, overlap_of_mem (mem_bounds hwhole) (mem_edgeBounds hq'), segment_hits hq' hsampled⟩⟩
  · rintro τ h0 h1 e he hclear ⟨q, hq, hq'⟩
    rw [← Box.pad_zero course.box] at hq
    obtain ⟨i, hi, hsampled⟩ := exists_sampled course previous pose h0 h1 le_rfl hq
    rw [Box.pad_zero] at hsampled
    exact ⟨i, hi, Or.inr ⟨e, he, overlap_of_mem (mem_bounds hsampled) (mem_edgeBounds hq'),
      segment_hits_clear hq' hsampled (hclear i hi).1 (hclear i hi).2⟩⟩

/-- **A hit is never forgotten.** -/
theorem run_hitIds (course : Course) (calls : List (Pose × Bool)) (st : State) : st.hitIds ⊆ (run course st calls).hitIds := by
  induction calls generalizing st with
  | nil => exact subset_rfl
  | cons call calls ih =>
      obtain ⟨pose, continuous⟩ := call
      exact Set.subset_union_left.trans (ih (observe course st pose continuous).1)

theorem run_append (course : Course) (calls calls' : List (Pose × Bool)) (st : State) :
    run course st (calls ++ calls') = run course (run course st calls) calls' := by
  induction calls generalizing st with
  | nil => rfl
  | cons call calls ih => exact ih _

/-- **The swept footprint misses no contact**, over any sequence of observations, and the two tests are exact. -/
theorem swept_contact (course : Course) :
    (∀ (calls : List (Pose × Bool)) (previous pose : Pose) (first : Bool),
      let st := run course {} (calls ++ [(previous, first)])
      MissesNothing course previous pose (report course st pose true) ∧
        (observe course st pose true).2 = report course st pose true) ∧
      (∀ (calls calls' : List (Pose × Bool)) (pose : Pose) (continuous : Bool),
        (observe course (run course {} calls) pose continuous).2.hits ⊆
          (run course {} (calls ++ (pose, continuous) :: calls')).hitIds) ∧
      (∀ (p p' : Pose) (b b' : Box), b.Proper → b'.Proper →
        (RectanglesTouch (rectangle p b) (rectangle p' b') ↔ (Footprint p b ∩ Footprint p' b').Nonempty)) ∧
      ∀ (p : Pose) (box : Box) (a b : Point), box.rear ≤ box.front → 0 ≤ box.halfWidth →
        Clear (p.toLocal a).1 (p.toLocal b).1 → Clear (p.toLocal a).2 (p.toLocal b).2 →
        (SegmentHitsRectangle a b p box ↔ (Segment a b ∩ Footprint p box).Nonempty) := by
  refine ⟨?_, ?_, ?_, ?_⟩
  · intro calls previous pose first
    refine ⟨report_sound course _ ?_ pose, rfl⟩
    rw [run_append]
    rfl
  · intro calls calls' pose continuous
    rw [run_append]
    exact Set.subset_union_right.trans (run_hitIds course calls' (observe course (run course {} calls) pose continuous).1)
  · intro p p' b b' h h'
    constructor
    · exact shared_of_touch h h'
    · rintro ⟨q, hq, hq'⟩
      exact touch_of_shared hq hq'
  · intro p box a b hlength hwidth hfirst hsecond
    exact segment_hits_iff hlength hwidth hfirst hsecond

/-- A square touches itself. -/
theorem swept_contact_square :
    RectanglesTouch (rectangle ⟨0, 0, 0⟩ ⟨-1, 1, 1⟩) (rectangle ⟨0, 0, 0⟩ ⟨-1, 1, 1⟩) :=
  ((swept_contact ⟨[], [], [], ⟨-1, 1, 1⟩⟩).2.2.1 ⟨0, 0, 0⟩ ⟨0, 0, 0⟩ ⟨-1, 1, 1⟩ ⟨-1, 1, 1⟩ ⟨by norm_num, by norm_num⟩
    ⟨by norm_num, by norm_num⟩).mpr ⟨(0, 0), by norm_num [Footprint, Pose.toLocal], by norm_num [Footprint, Pose.toLocal]⟩

/-- **A clip that misses**: a segment all but parallel to a side, which begins outside by less than the clip's bound and ends
inside. -/
theorem clip_misses : ¬ ∀ (p : Pose) (box : Box) (a b : Point), box.rear ≤ box.front → 0 ≤ box.halfWidth →
    (SegmentHitsRectangle a b p box ↔ (Segment a b ∩ Footprint p box).Nonempty) := by
  intro h
  have hshared : (Segment (-2, 1 + 5e-13) (2, 1 - 4e-13) ∩ Footprint ⟨0, 0, 0⟩ ⟨-1, 1, 1⟩).Nonempty := by
    refine ⟨(1 - 3 / 5 : ℝ) • (-2, 1 + 5e-13) + (3 / 5 : ℝ) • (2, 1 - 4e-13), ⟨3 / 5, by norm_num, by norm_num, rfl⟩, ?_⟩
    norm_num [Footprint, Pose.toLocal]
  have hhits := (h ⟨0, 0, 0⟩ ⟨-1, 1, 1⟩ (-2, 1 + 5e-13) (2, 1 - 4e-13) (by norm_num) (by norm_num)).mpr hshared
  obtain ⟨range', hrange'⟩ := Option.isSome_iff_exists.mp hhits
  obtain ⟨range, -, hclip⟩ := Option.bind_eq_some_iff.mp hrange'
  -- the second clip returns at once: the start is outside
  norm_num [clip, Pose.toLocal, abs_lt] at hclip
  cases hclip

end Lhre.Autonomy.Envelope
