import Lhre.Autonomy.Chaining

/-!
# `Autonomy.Correctness.DrivableChains` — chained centerlines are drivable

Both algorithms extend a path by an admissible point and then put aside what lies too close to its last point. What is left is
always the same: the points off the path and not too close to an earlier one (`Walk`). One round of either algorithm picks the
same point, so a beam of one state follows the greedy walk.

## Contents
- **Drivable paths.** `headings`, `Admissible`, `Drivable`, `Exhausted`.
- **Walks.** `Walk`, `Walk.step`.
- **A round of the greedy walk.** `Chosen`, `scan_spec`, `greedy_round`.
- **A round of the beam.** `mem_extensions`, `beam_round`.
- **Whole runs.** `greedyLoop_walk`, `beamLoop_walk`, `beamLoop_eq_take`.
- **The algorithms.** `greedyPath_spec`, `beamPath_spec`, `beamPath_eq_take`, `chains_drivable`.
-/

namespace Lhre.Autonomy.Chaining

open Real

/-! ## Drivable paths -/

section Paths
variable (p : ChainParams) (points : List PathPoint)

/-- The headings of the steps of a path. -/
noncomputable def headings : List ℕ → List ℝ
  | i :: j :: rest => headingTo (pointAt points i) (pointAt points j) :: headings (j :: rest)
  | _ => []

/-- A change of heading within the sector. -/
def Turn (heading next : ℝ) : Prop := |headingError next heading| ≤ p.maxTurnRad

/-- A step of a length in range. -/
def StepOk (i j : ℕ) : Prop :=
  0 < dist (pointAt points i) (pointAt points j) ∧ p.minStep ≤ dist (pointAt points i) (pointAt points j) ∧
    dist (pointAt points i) (pointAt points j) ≤ p.maxStep

/-- A step that the limits allow. -/
def Admissible (last : ℕ) (heading : ℝ) (j : ℕ) : Prop :=
  StepOk p points last j ∧ Turn p heading (headingTo (pointAt points last) (pointAt points j))

/-- What a chained path promises. -/
structure Drivable (start : ℕ) (heading0 : Option ℝ) (path : List ℕ) : Prop where
  starts : path.head? = some start
  inside : ∀ i ∈ path, i < points.length
  nodup : path.Nodup
  steps : path.IsChain (StepOk p points)
  turns : ∀ h0, heading0 = some h0 → (h0 :: headings points path).IsChain (Turn p)
  still : heading0 = none → path = [start]
  apart : path.Pairwise fun i j => p.minStep ≤ dist (pointAt points i) (pointAt points j)

/-- No point that is neither used nor suppressed is an admissible step. -/
def Exhausted (heading0 : Option ℝ) (path : List ℕ) : Prop :=
  ∀ j < points.length, j ∉ path → (∀ i ∈ path, ¬ TooClose p (pointAt points i) (pointAt points j)) →
    ∃ h0, heading0 = some h0 ∧ ¬ Admissible p points (path.getLastD 0) ((headings points path).getLastD h0) j

end Paths

variable {p : ChainParams} {points : List PathPoint}

theorem not_tooClose_iff {a b : PathPoint} : ¬ TooClose p a b ↔ 0 < dist a b ∧ p.minStep ≤ dist a b := by
  unfold TooClose
  rw [not_or, not_lt]
  exact and_congr_left fun _ => ⟨fun h => (sqrt_nonneg _).lt_of_ne' h, ne_of_gt⟩

theorem headings_concat (init : List ℕ) (last j : ℕ) :
    headings points (init ++ [last, j]) =
      headings points (init ++ [last]) ++ [headingTo (pointAt points last) (pointAt points j)] := by
  induction init with
  | nil => rfl
  | cons a init ih =>
    cases init with
    | nil => rfl
    | cons b init =>
      simp only [List.cons_append, headings] at ih ⊢
      rw [ih]

/-! ## Walks -/

/-- The points that stay once those too close to a point are put aside. -/
noncomputable def pruned (p : ChainParams) (points : List PathPoint) (last : ℕ) (remaining : Finset ℕ) : Finset ℕ :=
  remaining \ remaining.filter fun j => TooClose p (pointAt points last) (pointAt points j)

theorem mem_pruned {last j : ℕ} {remaining : Finset ℕ} :
    j ∈ pruned p points last remaining ↔ j ∈ remaining ∧ ¬ TooClose p (pointAt points last) (pointAt points j) := by
  simp only [pruned, Finset.mem_sdiff, Finset.mem_filter]
  tauto

/-- A path so far, with its last point, the points that remain, and the heading of its last step. -/
structure Walk (p : ChainParams) (points : List PathPoint) (start : ℕ) (h0 : ℝ) (init : List ℕ) (last : ℕ)
    (remaining : Finset ℕ) (heading : ℝ) : Prop where
  starts : (init ++ [last]).head? = some start
  inside : ∀ i ∈ init ++ [last], i < points.length
  nodup : (init ++ [last]).Nodup
  steps : (init ++ [last]).IsChain (StepOk p points)
  turns : ∃ hs, h0 :: headings points (init ++ [last]) = hs ++ [heading] ∧ (hs ++ [heading]).IsChain (Turn p)
  apart : (init ++ [last]).Pairwise fun i j => p.minStep ≤ dist (pointAt points i) (pointAt points j)
  mem_iff : ∀ j, j ∈ remaining ↔
    j < points.length ∧ j ∉ init ++ [last] ∧ ∀ i ∈ init, ¬ TooClose p (pointAt points i) (pointAt points j)

theorem Walk.start {start : ℕ} (hstart : start < points.length) (h0 : ℝ) :
    Walk p points start h0 [] start (others points start) h0 where
  starts := rfl
  inside := by simpa using hstart
  nodup := by simp
  steps := List.isChain_singleton _
  turns := ⟨[], rfl, List.isChain_singleton _⟩
  apart := List.pairwise_singleton _ _
  mem_iff j := by
    simp only [others, Finset.mem_erase, Finset.mem_range, List.nil_append, List.mem_singleton, List.not_mem_nil,
      false_implies, implies_true, and_true]
    exact and_comm

/-- **An admissible step** goes on with a walk. -/
theorem Walk.step {start : ℕ} {h0 : ℝ} {init : List ℕ} {last : ℕ} {remaining : Finset ℕ} {heading : ℝ}
    (h : Walk p points start h0 init last remaining heading) {j : ℕ} (hj : j ∈ remaining)
    (hadm : Admissible p points last heading j) :
    Walk p points start h0 (init ++ [last]) j ((pruned p points last remaining).erase j)
      (headingTo (pointAt points last) (pointAt points j)) := by
  obtain ⟨hlt, hfresh, hfar⟩ := (h.mem_iff j).mp hj
  constructor
  case starts =>
    rw [List.head?_append, h.starts]
    rfl
  case inside =>
    intro i hi
    rcases List.mem_append.mp hi with hi | hi
    · exact h.inside i hi
    · rwa [List.mem_singleton.mp hi]
  case nodup =>
    rw [List.nodup_append]
    refine ⟨h.nodup, List.nodup_singleton j, fun a ha b hb heq => hfresh ?_⟩
    rwa [← List.mem_singleton.mp hb, ← heq]
  case steps =>
    rw [List.append_assoc]
    exact List.isChain_append_cons_cons.mpr ⟨h.steps, hadm.1, List.isChain_singleton j⟩
  case turns =>
    obtain ⟨hs, heq, hchain⟩ := h.turns
    refine ⟨hs ++ [heading], ?_, ?_⟩
    · rw [List.append_assoc, List.singleton_append, headings_concat, ← List.cons_append, heq]
    · rw [List.append_assoc]
      exact List.isChain_append_cons_cons.mpr ⟨hchain, hadm.2, List.isChain_singleton _⟩
  case apart =>
    refine List.pairwise_append.mpr ⟨h.apart, List.pairwise_singleton _ _, fun i hi k hk => ?_⟩
    obtain rfl := List.mem_singleton.mp hk
    rcases List.mem_append.mp hi with hi | hi
    · exact (not_tooClose_iff.mp (hfar i hi)).2
    · rw [List.mem_singleton.mp hi]
      exact hadm.1.2.1
  case mem_iff =>
    intro k
    rw [Finset.mem_erase, mem_pruned, h.mem_iff k]
    simp only [List.mem_append, List.mem_singleton, not_or]
    constructor
    · rintro ⟨hkj, ⟨hk, hout, hinit⟩, hlast⟩
      refine ⟨hk, ⟨hout, hkj⟩, fun i hi => ?_⟩
      rcases hi with hi | rfl
      · exact hinit i hi
      · exact hlast
    · rintro ⟨hk, ⟨hout, hkj⟩, hall⟩
      exact ⟨hkj, ⟨hk, hout, fun i hi => hall i (Or.inl hi)⟩, hall last (Or.inr rfl)⟩

theorem Walk.drivable {start : ℕ} {h0 : ℝ} {init : List ℕ} {last : ℕ} {remaining : Finset ℕ} {heading : ℝ}
    (h : Walk p points start h0 init last remaining heading) : Drivable p points start (some h0) (init ++ [last]) where
  starts := h.starts
  inside := h.inside
  nodup := h.nodup
  steps := h.steps
  turns h1 heq := by
    obtain ⟨hs, hheadings, hchain⟩ := h.turns
    obtain rfl := Option.some.inj heq
    rwa [hheadings]
  still hnone := absurd hnone (Option.some_ne_none h0)
  apart := h.apart

/-- A walk from which no step is left has used what it can. -/
theorem Walk.exhausted {start : ℕ} {h0 : ℝ} {init : List ℕ} {last : ℕ} {remaining : Finset ℕ} {heading : ℝ}
    (h : Walk p points start h0 init last remaining heading)
    (hdone : ∀ j ∈ remaining, ¬ Admissible p points last heading j) : Exhausted p points (some h0) (init ++ [last]) := by
  intro j hj hout hfar
  refine ⟨h0, rfl, ?_⟩
  obtain ⟨hs, hheadings, -⟩ := h.turns
  have hcurrent : (headings points (init ++ [last])).getLastD h0 = heading := by
    have hlast := congrArg (fun l => l.getLastD 0) hheadings
    rwa [List.getLastD_cons, List.getLastD_concat] at hlast
  rw [hcurrent, List.getLastD_concat]
  exact hdone j ((h.mem_iff j).mpr ⟨hj, hout, fun i hi => hfar i (List.mem_append_left _ hi)⟩)

/-! ## A round of the greedy walk -/

section Rounds
variable {last : ℕ} {heading : ℝ}

/-- The cost of a step to a point. -/
noncomputable abbrev costTo (p : ChainParams) (points : List PathPoint) (last : ℕ) (heading : ℝ) (j : ℕ) : ℝ :=
  stepCost p (pointAt points last) (pointAt points j) heading

/-- The cost of a step to a point, with the index to decide ties. -/
noncomputable def stepKey (p : ChainParams) (points : List PathPoint) (last : ℕ) (heading : ℝ) (j : ℕ) : ℝ ×ₗ ℕ :=
  toLex (costTo p points last heading j, j)

theorem stepKey_injective : Function.Injective (stepKey p points last heading) :=
  fun _ _ h => (Prod.mk.inj (toLex.injective h)).2

/-- The admissible point of the least cost among some. -/
structure Best (p : ChainParams) (points : List PathPoint) (last : ℕ) (heading : ℝ) (S : ℕ → Prop) (j : ℕ) : Prop where
  mem : S j
  admissible : Admissible p points last heading j
  least : ∀ i, S i → Admissible p points last heading i → stepKey p points last heading j ≤ stepKey p points last heading i

theorem Best.unique {S : ℕ → Prop} {i j : ℕ} (hi : Best p points last heading S i)
    (hj : Best p points last heading S j) : i = j :=
  stepKey_injective (le_antisymm (hi.least j hj.mem hj.admissible) (hj.least i hi.mem hi.admissible))

theorem Best.congr {S T : ℕ → Prop} {j : ℕ} (h : Best p points last heading S j) (hST : ∀ i, S i ↔ T i) :
    Best p points last heading T j :=
  ⟨(hST j).mp h.mem, h.admissible, fun i hi => h.least i ((hST i).mpr hi)⟩

/-- What the scan knows of the points it has seen. -/
structure Chosen (p : ChainParams) (points : List PathPoint) (last : ℕ) (heading : ℝ) (S : ℕ → Prop) (scan : Scan) : Prop where
  none : scan.best = .none → ∀ j, S j → ¬ Admissible p points last heading j
  some : ∀ b score next, scan.best = .some (b, score, next) → Best p points last heading S b ∧
    score = costTo p points last heading b ∧ next = headingTo (pointAt points last) (pointAt points b)
  redundant : ∀ j, j ∈ scan.redundant ↔ S j ∧ TooClose p (pointAt points last) (pointAt points j)

theorem stepKey_le_iff {i j : ℕ} :
    stepKey p points last heading i ≤ stepKey p points last heading j ↔
      costTo p points last heading i < costTo p points last heading j ∨
        costTo p points last heading i = costTo p points last heading j ∧ i ≤ j :=
  Prod.Lex.toLex_le_toLex

variable {S : ℕ → Prop} {scan scan' : Scan} {j : ℕ}

/-- A point that is not admissible leaves the best one. -/
theorem Chosen.skip (h : Chosen p points last heading S scan) (hnot : ¬ Admissible p points last heading j)
    (hbest : scan'.best = scan.best)
    (hred : ∀ i, i ∈ scan'.redundant ↔ (S i ∨ i = j) ∧ TooClose p (pointAt points last) (pointAt points i)) :
    Chosen p points last heading (fun i => S i ∨ i = j) scan' := by
  refine ⟨fun hnone i hi => ?_, fun b score next hsome => ?_, hred⟩
  · rcases hi with hi | rfl
    · exact h.none (hbest ▸ hnone) i hi
    · exact hnot
  · obtain ⟨hb, hscore, hnext⟩ := h.some b score next (hbest ▸ hsome)
    refine ⟨⟨Or.inl hb.mem, hb.admissible, fun i hi hadm => ?_⟩, hscore, hnext⟩
    rcases hi with hi | rfl
    · exact hb.least i hi hadm
    · exact absurd hadm hnot

/-- A point that no admissible one is better than becomes the best. -/
theorem Chosen.take (hadm : Admissible p points last heading j)
    (hleast : ∀ i, S i → Admissible p points last heading i → stepKey p points last heading j ≤ stepKey p points last heading i)
    (hbest : scan'.best = .some (j, costTo p points last heading j, headingTo (pointAt points last) (pointAt points j)))
    (hred : ∀ i, i ∈ scan'.redundant ↔ (S i ∨ i = j) ∧ TooClose p (pointAt points last) (pointAt points i)) :
    Chosen p points last heading (fun i => S i ∨ i = j) scan' := by
  refine ⟨fun hnone => by simp [hbest] at hnone, fun b score next hsome => ?_, hred⟩
  simp only [hbest, Option.some.injEq, Prod.mk.injEq] at hsome
  obtain ⟨rfl, rfl, rfl⟩ := hsome
  refine ⟨⟨Or.inr rfl, hadm, fun i hi hadm' => ?_⟩, rfl, rfl⟩
  rcases hi with hi | rfl
  · exact hleast i hi hadm'
  · exact le_rfl

/-- A point that is not better than the best leaves it. -/
theorem Chosen.keep (h : Chosen p points last heading S scan) {b : ℕ} {score next : ℝ}
    (hbest : scan.best = .some (b, score, next)) (hle : stepKey p points last heading b ≤ stepKey p points last heading j)
    (hred : ∀ i, i ∈ scan.redundant ↔ (S i ∨ i = j) ∧ TooClose p (pointAt points last) (pointAt points i)) :
    Chosen p points last heading (fun i => S i ∨ i = j) scan := by
  refine ⟨fun hnone => by simp [hbest] at hnone, fun b' score' next' hsome => ?_, hred⟩
  obtain ⟨hb, hscore, hnext⟩ := h.some b' score' next' hsome
  simp only [hbest, Option.some.injEq, Prod.mk.injEq] at hsome
  obtain ⟨rfl, rfl, rfl⟩ := hsome
  refine ⟨⟨Or.inl hb.mem, hb.admissible, fun i hi hadm' => ?_⟩, hscore, hnext⟩
  rcases hi with hi | rfl
  · exact hb.least i hi hadm'
  · exact hle

/-- A point that is not redundant leaves the redundant ones. -/
theorem Chosen.mem_redundant (h : Chosen p points last heading S scan)
    (hclose : ¬ TooClose p (pointAt points last) (pointAt points j)) (i : ℕ) :
    i ∈ scan.redundant ↔ (S i ∨ i = j) ∧ TooClose p (pointAt points last) (pointAt points i) := by
  rw [h.redundant i]
  constructor
  · exact fun hi => ⟨Or.inl hi.1, hi.2⟩
  · rintro ⟨hi | rfl, hclose'⟩
    · exact ⟨hi, hclose'⟩
    · exact absurd hclose' hclose

/-- One more point. -/
theorem Chosen.step (h : Chosen p points last heading S scan) (j : ℕ) :
    Chosen p points last heading (fun i => S i ∨ i = j) (scanStep p points (pointAt points last) heading scan j) := by
  unfold scanStep
  by_cases hclose : TooClose p (pointAt points last) (pointAt points j)
  · simp only [if_pos hclose]
    refine h.skip (fun hadm => not_tooClose_iff.mpr ⟨hadm.1.1, hadm.1.2.1⟩ hclose) rfl fun i => ?_
    rw [Finset.mem_insert, h.redundant i]
    constructor
    · rintro (rfl | ⟨hi, hclose'⟩)
      · exact ⟨Or.inr rfl, hclose⟩
      · exact ⟨Or.inl hi, hclose'⟩
    · rintro ⟨hi | hi, hclose'⟩
      · exact Or.inr ⟨hi, hclose'⟩
      · exact Or.inl hi
  have hred := h.mem_redundant hclose
  simp only [if_neg hclose]
  by_cases hfar : p.maxStep < dist (pointAt points last) (pointAt points j)
  · rw [if_pos hfar]
    exact h.skip (fun hadm => absurd hadm.1.2.2 (not_le.mpr hfar)) rfl hred
  rw [if_neg hfar]
  by_cases hturn : p.maxTurnRad < |headingError (headingTo (pointAt points last) (pointAt points j)) heading|
  · rw [if_pos hturn]
    exact h.skip (fun hadm => absurd hadm.2 (not_le.mpr hturn)) rfl hred
  rw [if_neg hturn]
  obtain ⟨hpos, hmin⟩ := not_tooClose_iff.mp hclose
  have hadm : Admissible p points last heading j := ⟨⟨hpos, hmin, not_lt.mp hfar⟩, not_lt.mp hturn⟩
  cases hbest : scan.best with
  | none => exact Chosen.take hadm (fun i hi hadm' => absurd hadm' (h.none hbest i hi)) rfl hred
  | some best =>
    obtain ⟨b, score, next⟩ := best
    obtain ⟨hb, hscore, hnext⟩ := h.some b score next hbest
    simp only
    split
    · case isTrue hless =>
      have hle : stepKey p points last heading j ≤ stepKey p points last heading b := by
        rw [stepKey_le_iff, ← hscore]
        exact hless.imp_right fun hless => ⟨hless.1, hless.2.le⟩
      exact Chosen.take hadm (fun i hi hadm' => hle.trans (hb.least i hi hadm')) rfl hred
    · case isFalse hless =>
      refine h.keep hbest (le_of_not_gt fun hlt => hless ?_) hred
      rcases stepKey_le_iff.mp hlt.le with hcost | ⟨hcost, hindex⟩
      · exact Or.inl (hscore ▸ hcost)
      · refine Or.inr ⟨hscore ▸ hcost, lt_of_le_of_ne hindex ?_⟩
        rintro rfl
        exact lt_irrefl _ hlt

/-- **The scan** of some points. -/
theorem scan_spec (visited : List ℕ) :
    Chosen p points last heading (· ∈ visited)
      (visited.foldl (scanStep p points (pointAt points last) heading) ⟨none, ∅⟩) := by
  induction visited using List.reverseRecOn with
  | nil =>
    refine ⟨fun _ j hj => absurd hj List.not_mem_nil, fun b score next hsome => by simp at hsome, fun j => by simp⟩
  | append_singleton visited j ih =>
    rw [List.foldl_append, List.foldl_cons, List.foldl_nil]
    have hiff : (fun i => i ∈ visited ++ [j]) = fun i => i ∈ visited ∨ i = j := by
      funext i
      simp
    rw [hiff]
    exact ih.step j

variable {iterate : Finset ℕ → List ℕ} {init : List ℕ} {remaining : Finset ℕ}

/-- Where a point is admissible, one is the best. -/
theorem exists_best (p : ChainParams) (points : List PathPoint) (last : ℕ) (heading : ℝ) (remaining : Finset ℕ) :
    (∀ j ∈ remaining, ¬ Admissible p points last heading j) ∨ ∃ b, Best p points last heading (· ∈ remaining) b := by
  have hspec : Chosen p points last heading (· ∈ remaining.toList) _ := scan_spec remaining.toList
  cases hbest : (remaining.toList.foldl (scanStep p points (pointAt points last) heading) ⟨none, ∅⟩).best with
  | none => exact Or.inl fun j hj => hspec.none hbest j (Finset.mem_toList.mpr hj)
  | some best =>
    obtain ⟨b, score, next⟩ := best
    exact Or.inr ⟨b, (hspec.some b score next hbest).1.congr fun i => Finset.mem_toList⟩

/-- The walk ends where no step is admissible. -/
theorem greedy_round_none (hiterate : ∀ s j, j ∈ iterate s ↔ j ∈ s)
    (hnone : ∀ j ∈ remaining, ¬ Admissible p points last heading j) (fuel : ℕ) :
    greedyLoop iterate p points fuel (init ++ [last]) remaining heading = init ++ [last] := by
  cases fuel with
  | zero => rfl
  | succ fuel =>
    unfold greedyLoop
    by_cases hempty : remaining = ∅
    · rw [if_pos hempty]
    rw [if_neg hempty, List.getLastD_concat]
    have hspec : Chosen p points last heading (· ∈ iterate remaining) _ := scan_spec (iterate remaining)
    simp only
    split
    · rfl
    · case h_2 b score next hbest =>
      have hb := (hspec.some b score next hbest).1
      exact absurd hb.admissible (hnone b ((hiterate remaining b).mp hb.mem))

/-- The walk goes on to the best point. -/
theorem greedy_round_some (hiterate : ∀ s j, j ∈ iterate s ↔ j ∈ s) {b : ℕ}
    (hb : Best p points last heading (· ∈ remaining) b) (fuel : ℕ) :
    greedyLoop iterate p points (fuel + 1) (init ++ [last]) remaining heading =
      greedyLoop iterate p points fuel (init ++ [last] ++ [b]) ((pruned p points last remaining).erase b)
        (headingTo (pointAt points last) (pointAt points b)) := by
  have hne : remaining ≠ ∅ := Finset.ne_empty_of_mem hb.mem
  have hspec : Chosen p points last heading (· ∈ iterate remaining) _ := scan_spec (iterate remaining)
  have hpruned : remaining \ ((iterate remaining).foldl (scanStep p points (pointAt points last) heading) ⟨none, ∅⟩).redundant =
      pruned p points last remaining := by
    ext j
    rw [Finset.mem_sdiff, hspec.redundant, hiterate, mem_pruned]
    tauto
  rw [greedyLoop, if_neg hne, List.getLastD_concat]
  simp only
  split
  · case h_1 hbest => exact absurd hb.admissible (hspec.none hbest b ((hiterate remaining b).mpr hb.mem))
  · case h_2 b' score next hbest =>
    obtain ⟨hb', -, hnext⟩ := hspec.some b' score next hbest
    obtain rfl : b' = b := (hb'.congr fun i => hiterate remaining i).unique hb
    rw [hpruned, hnext]

end Rounds

/-! ## A round of the beam -/

section Beam
variable {iterate : Finset ℕ → List ℕ} {init : List ℕ} {last : ℕ} {state : Partial}

/-- A state with one more point. -/
noncomputable def extend (p : ChainParams) (points : List PathPoint) (last : ℕ) (state : Partial) (j : ℕ) : Partial where
  path := state.path ++ [j]
  remaining := (pruned p points last state.remaining).erase j
  heading := headingTo (pointAt points last) (pointAt points j)
  cost := state.cost + stepCost p (pointAt points last) (pointAt points j) state.heading

/-- The extensions of a state are its admissible steps. -/
theorem mem_extensions (hiterate : ∀ s j, j ∈ iterate s ↔ j ∈ s) (hpath : state.path = init ++ [last]) {e : Partial} :
    e ∈ extensions iterate p points state ↔
      ∃ j ∈ state.remaining, Admissible p points last state.heading j ∧ e = extend p points last state j := by
  have hlast : state.path.getLastD 0 = last := by rw [hpath, List.getLastD_concat]
  unfold extensions
  rw [hlast, List.mem_filterMap]
  simp only [hiterate]
  constructor
  · rintro ⟨j, hj, hsome⟩
    obtain ⟨hmem, hclose⟩ := mem_pruned.mp hj
    split at hsome
    · cases hsome
    split at hsome
    · cases hsome
    next hfar hturn =>
    obtain ⟨hpos, hmin⟩ := not_tooClose_iff.mp hclose
    exact ⟨j, hmem, ⟨⟨hpos, hmin, not_lt.mp hfar⟩, not_lt.mp hturn⟩, (Option.some.inj hsome).symm⟩
  · rintro ⟨j, hmem, hadm, rfl⟩
    refine ⟨j, mem_pruned.mpr ⟨hmem, not_tooClose_iff.mpr ⟨hadm.1.1, hadm.1.2.1⟩⟩, ?_⟩
    rw [if_neg (not_lt.mpr hadm.1.2.2), if_neg (not_lt.mpr hadm.2)]
    rfl

theorem partialLe_trans (a b c : Partial) (hab : partialLe a b = true) (hbc : partialLe b c = true) :
    partialLe a c = true := by
  simp only [partialLe, decide_eq_true_eq] at *
  rcases hab with hab | ⟨hab, hpath⟩ <;> rcases hbc with hbc | ⟨hbc, hpath'⟩
  · exact Or.inl (hab.trans hbc)
  · exact Or.inl (hbc ▸ hab)
  · exact Or.inl (hab ▸ hbc)
  · exact Or.inr ⟨hab.trans hbc, hpath.trans hpath'⟩

theorem partialLe_total (a b : Partial) : (partialLe a b || partialLe b a) = true := by
  simp only [partialLe, Bool.or_eq_true, decide_eq_true_eq]
  rcases lt_trichotomy a.cost b.cost with hlt | heq | hgt
  · exact Or.inl (Or.inl hlt)
  · exact (le_total a.path b.path).imp (fun h => Or.inr ⟨heq, h⟩) fun h => Or.inr ⟨heq.symm, h⟩
  · exact Or.inr (Or.inl hgt)

/-- Extensions of one state compare by their last steps. -/
theorem partialLe_extend {i j : ℕ} (h : partialLe (extend p points last state i) (extend p points last state j) = true) :
    stepKey p points last state.heading i ≤ stepKey p points last state.heading j := by
  simp only [partialLe, extend, decide_eq_true_eq, add_lt_add_iff_left, add_right_inj] at h
  refine stepKey_le_iff.mpr (h.imp_right fun h => ⟨h.1, le_of_not_gt fun hlt => ?_⟩)
  have hlex : state.path ++ [j] < state.path ++ [i] :=
    List.Lex.append_left _ (List.Lex.rel hlt) state.path
  exact absurd h.2 (not_le.mpr hlex)

/-- A beam of one state stays where nothing extends it. -/
theorem beam_round_none (hiterate : ∀ s j, j ∈ iterate s ↔ j ∈ s) (hpath : state.path = init ++ [last])
    (hnone : ∀ j ∈ state.remaining, ¬ Admissible p points last state.heading j) (depth : ℕ) :
    beamLoop iterate p points depth [state] = [state] := by
  cases depth with
  | zero => rfl
  | succ depth =>
    unfold beamLoop
    split
    · rfl
    · case h_2 e es hext =>
      have he : e ∈ extensions iterate p points state := by
        have hmem : e ∈ [state].flatMap (extensions iterate p points) := hext ▸ List.mem_cons_self
        simpa using hmem
      obtain ⟨j, hj, hadm, -⟩ := (mem_extensions hiterate hpath).mp he
      exact absurd hadm (hnone j hj)

/-- A beam of width one goes on to the best point. -/
theorem beam_round_some (hiterate : ∀ s j, j ∈ iterate s ↔ j ∈ s) (hwidth : p.beamWidth = 1)
    (hpath : state.path = init ++ [last]) {b : ℕ} (hb : Best p points last state.heading (· ∈ state.remaining) b) (depth : ℕ) :
    beamLoop iterate p points (depth + 1) [state] = beamLoop iterate p points depth [extend p points last state b] := by
  have hmem (e : Partial) : e ∈ [state].flatMap (extensions iterate p points) ↔
      ∃ j ∈ state.remaining, Admissible p points last state.heading j ∧ e = extend p points last state j := by
    rw [← mem_extensions hiterate hpath]
    simp
  have hbest : extend p points last state b ∈ [state].flatMap (extensions iterate p points) :=
    (hmem _).mpr ⟨b, hb.mem, hb.admissible, rfl⟩
  rw [beamLoop]
  split
  · case h_1 hext =>
    rw [hext] at hbest
    cases hbest
  · case h_2 e es hext =>
    rw [hext] at hmem
    have hsorted := List.pairwise_mergeSort partialLe_trans partialLe_total (e :: es)
    have hperm := List.mergeSort_perm (e :: es) partialLe
    cases hsort : (e :: es).mergeSort partialLe with
    | nil => exact absurd (hsort ▸ hperm).symm.eq_nil (List.cons_ne_nil e es)
    | cons first rest =>
      rw [hsort] at hsorted hperm
      obtain ⟨j, hj, hadm, rfl⟩ := (hmem first).mp (hperm.mem_iff.mp List.mem_cons_self)
      have hleast : Best p points last state.heading (· ∈ state.remaining) j := by
        refine ⟨hj, hadm, fun i hi hadm' => ?_⟩
        have hi' := hperm.mem_iff.mpr ((hmem _).mpr ⟨i, hi, hadm', rfl⟩)
        rcases List.mem_cons.mp hi' with heq | hrest
        · have hij : i = j := by
            have hpaths := congrArg Partial.path heq
            simpa [extend] using hpaths
          rw [hij]
        · exact partialLe_extend ((List.pairwise_cons.mp hsorted).1 _ hrest)
      obtain rfl := hleast.unique hb
      rw [hwidth]
      rfl

end Beam

/-! ## Whole runs -/

section Runs
variable {iterate : Finset ℕ → List ℕ} {start : ℕ} {h0 : ℝ}

theorem card_step {last b : ℕ} {heading : ℝ} {remaining : Finset ℕ} (hb : Best p points last heading (· ∈ remaining) b) :
    ((pruned p points last remaining).erase b).card < remaining.card := by
  have hmem : b ∈ pruned p points last remaining :=
    mem_pruned.mpr ⟨hb.mem, not_tooClose_iff.mpr ⟨hb.admissible.1.1, hb.admissible.1.2.1⟩⟩
  exact (Finset.card_erase_lt_of_mem hmem).trans_le (Finset.card_le_card Finset.sdiff_subset)

/-- The greedy walk goes on until no step is left. -/
theorem greedyLoop_walk (hiterate : ∀ s j, j ∈ iterate s ↔ j ∈ s) (fuel : ℕ) {init : List ℕ} {last : ℕ}
    {remaining : Finset ℕ} {heading : ℝ} (h : Walk p points start h0 init last remaining heading)
        (hfuel : remaining.card ≤ fuel) :
    ∃ init' last' remaining' heading', greedyLoop iterate p points fuel (init ++ [last]) remaining heading = init' ++ [last'] ∧
      Walk p points start h0 init' last' remaining' heading' ∧ ∀ j ∈ remaining', ¬ Admissible p points last' heading' j := by
  induction fuel generalizing init last remaining heading with
  | zero =>
    have hempty : remaining = ∅ := Finset.card_eq_zero.mp (Nat.le_zero.mp hfuel)
    exact ⟨init, last, remaining, heading, rfl, h, fun j hj => by simp [hempty] at hj⟩
  | succ fuel ih =>
    rcases exists_best p points last heading remaining with hnone | ⟨b, hb⟩
    · exact ⟨init, last, remaining, heading, greedy_round_none hiterate hnone _, h, hnone⟩
    · rw [greedy_round_some hiterate hb]
      have hcard := card_step hb
      exact ih (h.step hb.mem hb.admissible) (by omega)

theorem prefix_greedyLoop (hiterate : ∀ s j, j ∈ iterate s ↔ j ∈ s) (fuel : ℕ) (init : List ℕ) (last : ℕ)
    (remaining : Finset ℕ) (heading : ℝ) :
    init ++ [last] <+: greedyLoop iterate p points fuel (init ++ [last]) remaining heading := by
  induction fuel generalizing init last remaining heading with
  | zero => exact List.prefix_rfl
  | succ fuel ih =>
    rcases exists_best p points last heading remaining with hnone | ⟨b, hb⟩
    · rw [greedy_round_none hiterate hnone]
    · rw [greedy_round_some hiterate hb]
      exact (List.prefix_append (init ++ [last]) [b]).trans (ih _ _ _ _)

/-- **A beam of one state** follows the greedy walk. -/
theorem beamLoop_eq_take (hiterate : ∀ s j, j ∈ iterate s ↔ j ∈ s) (hwidth : p.beamWidth = 1) (depth fuel : ℕ)
    {init : List ℕ} {last : ℕ} {state : Partial} (hpath : state.path = init ++ [last]) (hfuel : state.remaining.card ≤ fuel) :
    ∃ result : Partial, beamLoop iterate p points depth [state] = [result] ∧
      result.path = (greedyLoop iterate p points fuel (init ++ [last]) state.remaining state.heading).take
        ((init ++ [last]).length + depth) := by
  induction depth generalizing fuel init last state with
  | zero =>
    refine ⟨state, rfl, ?_⟩
    rw [hpath, Nat.add_zero]
    exact (List.prefix_iff_eq_take.mp (prefix_greedyLoop hiterate fuel init last _ _))
  | succ depth ih =>
    rcases exists_best p points last state.heading state.remaining with hnone | ⟨b, hb⟩
    · refine ⟨state, beam_round_none hiterate hpath hnone _, ?_⟩
      rw [greedy_round_none hiterate hnone, hpath, List.take_of_length_le (Nat.le_add_right _ _)]
    · have hcard := card_step hb
      obtain ⟨fuel, rfl⟩ : ∃ fuel', fuel = fuel' + 1 := ⟨fuel - 1, by omega⟩
      have hpath' : (extend p points last state b).path = (init ++ [last]) ++ [b] := by rw [← hpath]; rfl
      have hfuel' : (extend p points last state b).remaining.card ≤ fuel := by
        change ((pruned p points last state.remaining).erase b).card ≤ fuel
        omega
      obtain ⟨result, hbeam, hresult⟩ := ih fuel hpath' hfuel'
      refine ⟨result, (beam_round_some hiterate hwidth hpath hb depth).trans hbeam, ?_⟩
      have hlength : (init ++ [last] ++ [b]).length + depth = (init ++ [last]).length + (depth + 1) := by
        rw [List.length_append, List.length_singleton, Nat.add_assoc, Nat.add_comm 1 depth]
      rw [hresult, greedy_round_some hiterate hb, hlength]
      rfl

/-- A state whose path is a walk. -/
def OnWalk (p : ChainParams) (points : List PathPoint) (start : ℕ) (h0 : ℝ) (state : Partial) : Prop :=
  ∃ init last, state.path = init ++ [last] ∧ Walk p points start h0 init last state.remaining state.heading

theorem OnWalk.extension (hiterate : ∀ s j, j ∈ iterate s ↔ j ∈ s) {state e : Partial} (h : OnWalk p points start h0 state)
    (he : e ∈ extensions iterate p points state) : OnWalk p points start h0 e := by
  obtain ⟨init, last, hpath, hwalk⟩ := h
  obtain ⟨j, hj, hadm, rfl⟩ := (mem_extensions hiterate hpath).mp he
  exact ⟨init ++ [last], j, by rw [← hpath]; rfl, hwalk.step hj hadm⟩

/-- **The beam** never runs empty, and its paths are walks. -/
theorem beamLoop_walk (hiterate : ∀ s j, j ∈ iterate s ↔ j ∈ s) (hwidth : 0 < p.beamWidth) (depth : ℕ) {beam : List Partial}
    (hne : beam ≠ []) (h : ∀ state ∈ beam, OnWalk p points start h0 state) :
    beamLoop iterate p points depth beam ≠ [] ∧
        ∀ state ∈ beamLoop iterate p points depth beam, OnWalk p points start h0 state := by
  induction depth generalizing beam with
  | zero => exact ⟨hne, h⟩
  | succ depth ih =>
    rw [beamLoop]
    split
    · exact ⟨hne, h⟩
    · case h_2 e es hext =>
      refine ih ?_ fun state hstate => ?_
      · have hlength : 0 < (((e :: es).mergeSort partialLe).take p.beamWidth.toNat).length := by
          rw [List.length_take, List.length_mergeSort, List.length_cons]
          omega
        exact List.ne_nil_of_length_pos hlength
      · have hmem : state ∈ e :: es := List.mem_mergeSort.mp (List.mem_of_mem_take hstate)
        rw [← hext] at hmem
        obtain ⟨parent, hparent, hchild⟩ := List.mem_flatMap.mp hmem
        exact (h parent hparent).extension hiterate hchild

end Runs

/-- The checks of the parameters. -/
theorem check_eq_ok_iff : p.check = .ok () ↔
    (0 ≤ p.minStep ∧ p.minStep < p.maxStep) ∧ (0 < p.maxTurnDeg ∧ p.maxTurnDeg ≤ 180) ∧
      (0 ≤ p.distanceWeight ∧ 0 ≤ p.headingWeight ∧ max p.distanceWeight p.headingWeight ≠ 0) ∧
      0 < p.beamWidth ∧ 0 < p.beamDepth := by
  unfold ChainParams.check
  split_ifs <;> grind

/-- A path that does not leave its start. -/
theorem drivable_still {start : ℕ} (hstart : start < points.length) : Drivable p points start none [start] where
  starts := rfl
  inside := by simpa using hstart
  nodup := by simp
  steps := List.isChain_singleton _
  turns h0 heq := by cases heq
  still _ := rfl
  apart := List.pairwise_singleton _ _

/-- Without an initial heading every other point is suppressed at the start. -/
theorem exhausted_still {start : ℕ} {odom : Option ℝ} (hnone : initialHeading p odom points start = none) :
    Exhausted p points none [start] := by
  intro j hj hout hfar
  cases odom with
  | some yaw => cases hnone
  | none =>
    have hneighbors := List.argmin_eq_none.mp (Option.map_eq_none_iff.mp hnone)
    have hne : j ≠ start := fun heq => hout (List.mem_singleton.mpr heq)
    have hclear := not_tooClose_iff.mp (hfar start List.mem_cons_self)
    have hmem := List.filter_eq_nil_iff.mp hneighbors j (List.mem_range.mpr hj)
    exact absurd (decide_eq_true ⟨hne, hclear⟩) hmem

/-! ## The algorithms -/

section Whole
variable {start : ℕ} {iterate : Finset ℕ → List ℕ} (odom : Option ℝ)

theorem ne_nil_of_start (hstart : start < points.length) : points ≠ [] := by
  rintro rfl
  exact absurd hstart (Nat.not_lt_zero start)

theorem greedyPath_none (hstart : start < points.length) (hinitial : initialHeading p odom points start = none) :
    greedyPath iterate p odom points start = [start] := by
  simp only [greedyPath, if_neg (ne_nil_of_start hstart), hinitial]

theorem greedyPath_some (hstart : start < points.length) {h0 : ℝ} (hinitial : initialHeading p odom points start = some h0) :
    greedyPath iterate p odom points start =
      greedyLoop iterate p points points.length ([] ++ [start]) (others points start) h0 := by
  simp only [greedyPath, if_neg (ne_nil_of_start hstart), hinitial, List.nil_append]

theorem beamPath_none (hstart : start < points.length) (hinitial : initialHeading p odom points start = none) :
    beamPath iterate p odom points start = [start] := by
  simp only [beamPath, if_neg (ne_nil_of_start hstart), hinitial]

theorem beamPath_some (hstart : start < points.length) {h0 : ℝ} (hinitial : initialHeading p odom points start = some h0) :
    beamPath iterate p odom points start =
      ((beamLoop iterate p points p.beamDepth.toNat [⟨[start], others points start, h0, 0⟩]).headD ⟨[], ∅, 0, 0⟩).path := by
  simp only [beamPath, if_neg (ne_nil_of_start hstart), hinitial]

theorem card_others (points : List PathPoint) (start : ℕ) : (others points start).card ≤ points.length := by
  refine (Finset.card_erase_le).trans ?_
  rw [Finset.card_range]

/-- **The greedy path** is drivable and uses what it can. -/
theorem greedyPath_spec (hiterate : ∀ s j, j ∈ iterate s ↔ j ∈ s) (hstart : start < points.length) :
    Drivable p points start (initialHeading p odom points start) (greedyPath iterate p odom points start) ∧
      Exhausted p points (initialHeading p odom points start) (greedyPath iterate p odom points start) := by
  cases hinitial : initialHeading p odom points start with
  | none =>
    rw [greedyPath_none odom hstart hinitial]
    exact ⟨drivable_still hstart, exhausted_still hinitial⟩
  | some h0 =>
    obtain ⟨init, last, remaining, heading, hpath, hwalk, hdone⟩ :=
      greedyLoop_walk hiterate points.length (Walk.start hstart h0) (card_others points start)
    rw [greedyPath_some odom hstart hinitial, hpath]
    exact ⟨hwalk.drivable, hwalk.exhausted hdone⟩

/-- **The path of the beam** is drivable. -/
theorem beamPath_spec (hiterate : ∀ s j, j ∈ iterate s ↔ j ∈ s) (hwidth : 0 < p.beamWidth) (hstart : start < points.length) :
    Drivable p points start (initialHeading p odom points start) (beamPath iterate p odom points start) := by
  cases hinitial : initialHeading p odom points start with
  | none =>
    rw [beamPath_none odom hstart hinitial]
    exact drivable_still hstart
  | some h0 =>
    have hstates : ∀ state ∈ [(⟨[start], others points start, h0, 0⟩ : Partial)], OnWalk p points start h0 state := by
      intro state hstate
      rw [List.mem_singleton.mp hstate]
      exact ⟨[], start, rfl, Walk.start hstart h0⟩
    obtain ⟨hne, hwalks⟩ := beamLoop_walk hiterate hwidth p.beamDepth.toNat (List.cons_ne_nil _ _) hstates
    rw [beamPath_some odom hstart hinitial]
    cases hresult : beamLoop iterate p points p.beamDepth.toNat [⟨[start], others points start, h0, 0⟩] with
    | nil => exact absurd hresult hne
    | cons state rest =>
      obtain ⟨init, last, hpath, hwalk⟩ := hwalks state (hresult ▸ List.mem_cons_self)
      rw [List.headD_cons, hpath]
      exact hwalk.drivable

/-- **A beam of width one** keeps to the greedy path. -/
theorem beamPath_eq_take (hiterate : ∀ s j, j ∈ iterate s ↔ j ∈ s) (hone : p.beamWidth = 1) (hstart : start < points.length) :
    beamPath iterate p odom points start = (greedyPath iterate p odom points start).take (p.beamDepth.toNat + 1) := by
  cases hinitial : initialHeading p odom points start with
  | none =>
    rw [beamPath_none odom hstart hinitial, greedyPath_none odom hstart hinitial]
    exact (List.take_of_length_le (Nat.le_add_left 1 _)).symm
  | some h0 =>
    have hpath : (⟨[start], others points start, h0, 0⟩ : Partial).path = [] ++ [start] := rfl
    obtain ⟨result, hresult, htake⟩ :=
      beamLoop_eq_take hiterate hone p.beamDepth.toNat points.length hpath (card_others points start)
    rw [beamPath_some odom hstart hinitial, greedyPath_some odom hstart hinitial, hresult, List.headD_cons, htake]
    rw [List.nil_append, List.length_singleton, Nat.add_comm 1]

end Whole

/-- **Chained centerlines are drivable**, the greedy walk uses what it can, and a beam of width one is a part of it. -/
theorem chains_drivable (p : ChainParams) (hcheck : p.check = .ok ()) (odom : Option ℝ) (points : List PathPoint) (start : ℕ)
    (iterate : Finset ℕ → List ℕ) (hiterate : ∀ s j, j ∈ iterate s ↔ j ∈ s) :
    (points = [] → constrainedGreedy iterate p odom points start = [] ∧ fixedWidthBeamSearch iterate p odom points start = []) ∧
      (start < points.length →
        (∃ path, constrainedGreedy iterate p odom points start = path.map (pointAt points) ∧
          Drivable p points start (initialHeading p odom points start) path ∧
          Exhausted p points (initialHeading p odom points start) path) ∧
        (∃ path, fixedWidthBeamSearch iterate p odom points start = path.map (pointAt points) ∧
          Drivable p points start (initialHeading p odom points start) path) ∧
        (p.beamWidth = 1 → fixedWidthBeamSearch iterate p odom points start =
          (constrainedGreedy iterate p odom points start).take (p.beamDepth.toNat + 1))) := by
  obtain ⟨-, -, -, hwidth, -⟩ := check_eq_ok_iff.mp hcheck
  refine ⟨?_, fun hstart => ⟨?_, ?_, fun hone => ?_⟩⟩
  · rintro rfl
    exact ⟨rfl, rfl⟩
  · exact ⟨_, rfl, greedyPath_spec odom hiterate hstart⟩
  · exact ⟨_, rfl, beamPath_spec odom hiterate hwidth hstart⟩
  · rw [fixedWidthBeamSearch, constrainedGreedy, ← List.map_take, beamPath_eq_take odom hiterate hone hstart]

/-- The node's own parameters, with a beam of width one. -/
noncomputable def narrow : ChainParams := ⟨(3 : ℕ) / (10 : ℕ), (4 : ℕ), (70 : ℕ), 1, 1, 1, 10⟩

/-- Two points ahead of the vehicle. -/
theorem chains_drivable_narrow :
    (∃ path, Drivable narrow [(0, 0), (1, 0)] 0 (some 0) path ∧ Exhausted narrow [(0, 0), (1, 0)] (some 0) path) ∧
      fixedWidthBeamSearch Finset.toList narrow (some 0) [(0, 0), (1, 0)] 0 =
        (constrainedGreedy Finset.toList narrow (some 0) [(0, 0), (1, 0)] 0).take 11 := by
  have hcheck : narrow.check = .ok () := check_eq_ok_iff.mpr (by norm_num [narrow])
  obtain ⟨-, hpaths⟩ := chains_drivable narrow hcheck (some 0) [(0, 0), (1, 0)] 0 Finset.toList fun s j => Finset.mem_toList
  obtain ⟨⟨path, -, hdrivable, hexhausted⟩, -, hbeam⟩ := hpaths (by decide)
  exact ⟨⟨path, hdrivable, hexhausted⟩, hbeam rfl⟩

end Lhre.Autonomy.Chaining
