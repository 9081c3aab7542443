import Lhre.Autonomy.ConeSides
import Lhre.Theory.DisjointForest
import Mathlib.Algebra.BigOperators.Group.Finset.Piecewise
import Mathlib.Algebra.BigOperators.Group.List.Lemmas
import Mathlib.Data.List.GetD
import Mathlib.Tactic.NormNum

/-!
# `Autonomy.Correctness.ConeSides` — labels by the votes of connected boundaries

The disjoint set is a forest whose roots are the classes of the edges joined so far, whichever root goes below the other
(`Joins`). An edge over a gap whose cones are joined already adds nothing, and the tangents come from sums over the links, so
neither the visiting order nor the roots can show in the labels.

## Contents
- **Disjoint sets.** `Holds`, `holds_find`, `Joins`, `joins_union`.
- **The graph.** `linkedNeighbors`, `tangents`, `Joined`, `tangents_perm`.
- **The two passes.** `joins_linkStep`, `joins_gapStep`, `joins_joinAll`.
- **Labels.** `componentVote`, `countVotes_spec`, `readLabels_eq`.
- **The classifier.** `sides_follow_components`.
-/

namespace Lhre.Autonomy.ConeSides

open DisjointForest

/-! ## Disjoint sets -/

variable {n : ℕ} {E : ℕ → ℕ → Prop} {root : ℕ → ℕ} {s : DisjointSet}

/-- Pointers that form a forest, with roots that tell the classes of a relation apart. -/
structure Holds (n : ℕ) (E : ℕ → ℕ → Prop) (root : ℕ → ℕ) (s : DisjointSet) : Prop where
  size : s.size = n
  forest : ∃ rank, Forest n s.parents root rank
  tracks : Tracks E root

theorem findLoop_spec {rank : ℕ → ℕ} (fuel : ℕ) {parents : ℕ → ℕ} {item : ℕ} (h : Forest n parents root rank)
    (hfuel : above n rank item ≤ fuel) :
    (findLoop fuel parents item).2 = root item ∧ Forest n (findLoop fuel parents item).1 root rank := by
  induction fuel generalizing parents item with
  | zero =>
    have hroot : parents item = item := by
      by_contra hne
      have := above_lt (h.inside item hne).2 (h.climbs item hne)
      omega
    exact ⟨((h.fixed item).mp hroot).symm, h⟩
  | succ fuel ih =>
    unfold findLoop
    by_cases hroot : parents item = item
    · rw [if_pos hroot]
      exact ⟨((h.fixed item).mp hroot).symm, h⟩
    · rw [if_neg hroot]
      obtain ⟨hlt, hrank⟩ := h.grandparent hroot
      have hless := above_lt hlt hrank
      have hfuel' : above n rank (parents (parents item)) ≤ fuel := by omega
      obtain ⟨hfind, hforest⟩ := ih (h.halve hroot) hfuel'
      rw [h.root_parent, h.root_parent] at hfind
      exact ⟨hfind, hforest⟩

/-- A lookup finds the root and leaves every root. -/
theorem holds_find (h : Holds n E root s) (item : ℕ) : (s.find item).2 = root item ∧ Holds n E root (s.find item).1 := by
  obtain ⟨rank, hforest⟩ := h.forest
  have hfuel : above n rank item ≤ s.size := h.size ▸ above_le n rank item
  obtain ⟨hfind, hforest'⟩ := findLoop_spec s.size hforest hfuel
  exact ⟨hfind, h.size, ⟨rank, hforest'⟩, h.tracks⟩

/-- A disjoint set of the classes of a relation. -/
def Joins (n : ℕ) (E : ℕ → ℕ → Prop) (s : DisjointSet) : Prop := ∃ root, Holds n E root s

theorem joins_init (n : ℕ) : Joins n (fun _ _ => False) (DisjointSet.init n) :=
  ⟨id, rfl, ⟨_, Forest.discrete n⟩, Tracks.discrete⟩

theorem Joins.congr {E' : ℕ → ℕ → Prop} (h : Joins n E s) (hE : ∀ i j, E i j ↔ E' i j) : Joins n E' s := by
  obtain ⟨root, h⟩ := h
  exact ⟨root, h.size, h.forest, h.tracks.congr hE⟩

/-- A union adds its pair, whichever root it keeps. -/
theorem joins_union (h : Joins n E s) (swap : DisjointSet → ℕ → ℕ → Bool) {a b : ℕ} (ha : a < n) (hb : b < n) :
    Joins n (Extend E a b) (s.unionBy swap a b) := by
  obtain ⟨root, h⟩ := h
  obtain ⟨hfinda, ha'⟩ := holds_find h a
  obtain ⟨hfindb, hb'⟩ := holds_find ha' b
  unfold DisjointSet.unionBy
  simp only [hfinda, hfindb]
  by_cases heq : root a = root b
  · rw [if_pos heq]
    exact ⟨root, hb'.size, hb'.forest, hb'.tracks.skip heq⟩
  rw [if_neg heq]
  obtain ⟨rank, hforest⟩ := hb'.forest
  have hra := hforest.root_root a
  have hrb := hforest.root_root b
  have hla := hforest.root_lt a ha
  have hlb := hforest.root_lt b hb
  split
  · exact ⟨_, hb'.size, ⟨_, hforest.link hrb hra hlb hla (Ne.symm heq)⟩, hb'.tracks.link (Or.inr ⟨rfl, rfl⟩)⟩
  · exact ⟨_, hb'.size, ⟨_, hforest.link hra hrb hla hlb heq⟩, hb'.tracks.link (Or.inl ⟨rfl, rfl⟩)⟩

/-- A loop that joins the edges under a condition. -/
theorem joins_foldl {σ : Type*} (components : σ → DisjointSet) (step : σ → ℕ × ℕ → σ) (cond : ℕ × ℕ → Prop)
    (edges : List (ℕ × ℕ))
    (hstep : ∀ st E e, e ∈ edges → Joins n E (components st) →
      Joins n (fun i j => E i j ∨ cond e ∧ (i, j) = e) (components (step st e)))
    {st : σ} (h : Joins n E (components st)) :
    Joins n (fun i j => E i j ∨ (i, j) ∈ edges ∧ cond (i, j)) (components (edges.foldl step st)) := by
  induction edges generalizing st E with
  | nil => simpa using h
  | cons e edges ih =>
    have hnext := hstep st E e List.mem_cons_self h
    refine (ih (fun st E e he => hstep st E e (List.mem_cons_of_mem _ he)) hnext).congr fun i j => ?_
    simp only [List.mem_cons]
    constructor
    · rintro ((hE | ⟨hcond, rfl⟩) | ⟨hmem, hcond⟩)
      · exact Or.inl hE
      · exact Or.inr ⟨Or.inl rfl, hcond⟩
      · exact Or.inr ⟨Or.inr hmem, hcond⟩
    · rintro (hE | ⟨rfl | hmem, hcond⟩)
      · exact Or.inl (Or.inl hE)
      · exact Or.inl (Or.inr ⟨hcond, rfl⟩)
      · exact Or.inr ⟨hmem, hcond⟩

/-! ## The graph -/

variable {K : Type*} [Field K] [LinearOrder K] (lib : Libraries K) (limits : Limits K) (points : List (K × K))

/-- The edges of the triangulation, where there is one. -/
def triangulationEdges : List (ℕ × ℕ) :=
  if points.length < 3 then [] else ((lib.delaunay points).map collectEdges).getD []

/-- The neighbours that one edge gives a cone. -/
def neighborsAt (index : ℕ) (edge : ℕ × ℕ) : List ℕ :=
  if edgeLength lib points edge ≤ limits.linkDistance then
    (if index = edge.1 then [edge.2] else []) ++ if index = edge.2 then [edge.1] else []
  else []

/-- The neighbours of a cone over links. -/
def linkedNeighbors (edges : List (ℕ × ℕ)) (index : ℕ) : List ℕ := edges.flatMap (neighborsAt lib limits points index)

/-- The boundary direction at each cone. -/
def tangents (edges : List (ℕ × ℕ)) (index : ℕ) : Option (K × K) :=
  localTangent lib points index (linkedNeighbors lib limits points edges index)

/-- An edge over a gap along the boundary at its cones. -/
def Gap (edges : List (ℕ × ℕ)) (edge : ℕ × ℕ) : Prop :=
  limits.linkDistance < edgeLength lib points edge ∧ edgeLength lib points edge ≤ limits.gapDistance ∧
    aligned points (tangents lib limits points edges) (lib.cos limits.maxGapAngle) edge (edgeLength lib points edge) = true

/-- The links and the aligned gaps. -/
def Joined (edges : List (ℕ × ℕ)) (i j : ℕ) : Prop :=
  (i, j) ∈ edges ∧ (edgeLength lib points (i, j) ≤ limits.linkDistance ∨ Gap lib limits points edges (i, j))

omit [LinearOrder K] in
theorem localTangent_perm {index : ℕ} {neighbors neighbors' : List ℕ} (h : neighbors.Perm neighbors') :
    localTangent lib points index neighbors = localTangent lib points index neighbors' := by
  unfold localTangent
  by_cases hnil : neighbors = []
  · subst hnil
    obtain rfl : neighbors' = [] := h.nil_eq.symm
    rfl
  · have hnil' : neighbors' ≠ [] := fun heq => hnil (heq ▸ h).eq_nil
    rw [if_neg hnil, if_neg hnil']
    have hsum (f : K × K → K) : ((neighbors.map fun j => offset points index j).map f).sum
        = ((neighbors'.map fun j => offset points index j).map f).sum := ((h.map _).map f).sum_eq
    simp only [hsum]

/-- The directions do not depend on the order of the edges. -/
theorem tangents_perm {edges edges' : List (ℕ × ℕ)} (h : edges.Perm edges') :
    tangents lib limits points edges = tangents lib limits points edges' := by
  funext index
  exact localTangent_perm lib points (h.flatMap_right _)

theorem Joined.perm_iff {edges edges' : List (ℕ × ℕ)} (h : edges.Perm edges') (i j : ℕ) :
    Joined lib limits points edges i j ↔ Joined lib limits points edges' i j := by
  simp only [Joined, Gap, tangents_perm lib limits points h, h.mem_iff]

/-! ## The two passes -/

variable {lib limits points} {swap : DisjointSet → ℕ → ℕ → Bool}

/-- A step that adds its edge under a condition, or nothing. -/
theorem joins_ite {cond : Prop} {a b : ℕ} {s' : DisjointSet} (hyes : cond → Joins n (Extend E a b) s')
    (hno : ¬ cond → Joins n E s') : Joins n (fun i j => E i j ∨ cond ∧ (i, j) = (a, b)) s' := by
  by_cases hcond : cond
  · refine (hyes hcond).congr fun i j => ?_
    simp [Extend, hcond]
  · refine (hno hcond).congr fun i j => ?_
    simp [hcond]

theorem joins_linkStep {st : DisjointSet × (ℕ → List ℕ)} {e : ℕ × ℕ} (he : e.1 < n ∧ e.2 < n) (h : Joins n E st.1) :
    Joins n (fun i j => E i j ∨ edgeLength lib points e ≤ limits.linkDistance ∧ (i, j) = e)
      (linkStep swap limits st (e, edgeLength lib points e)).1 := by
  refine joins_ite (fun hlink => ?_) fun hlink => ?_
  · simp only [linkStep, if_pos hlink]
    exact joins_union h swap he.1 he.2
  · simpa only [linkStep, if_neg hlink] using h

theorem neighbors_linkStep (st : DisjointSet × (ℕ → List ℕ)) (e : ℕ × ℕ) (index : ℕ) :
    (linkStep swap limits st (e, edgeLength lib points e)).2 index = st.2 index ++ neighborsAt lib limits points index e := by
  obtain ⟨a, b⟩ := e
  unfold linkStep neighborsAt
  by_cases hlink : edgeLength lib points (a, b) ≤ limits.linkDistance
  · simp only [if_pos hlink, push, Function.update_apply]
    by_cases ha : index = a <;> by_cases hb : index = b <;> grind
  · simp only [if_neg hlink, List.append_nil]

/-- The neighbours after the first loop. -/
theorem neighbors_foldl (edges : List (ℕ × ℕ)) (st : DisjointSet × (ℕ → List ℕ)) (index : ℕ) :
    (edges.foldl (fun st e => linkStep swap limits st (e, edgeLength lib points e)) st).2 index
      = st.2 index ++ linkedNeighbors lib limits points edges index := by
  induction edges generalizing st with
  | nil => simp [linkedNeighbors]
  | cons e edges ih => simp only
      [List.foldl_cons, ih, neighbors_linkStep, linkedNeighbors, List.flatMap_cons, List.append_assoc]

/-- A gap between cones that are joined already may be skipped. -/
theorem joins_gapStep {directions : ℕ → Option (K × K)} {minimumAlignment : K} {s : DisjointSet} {e : ℕ × ℕ}
    (he : e.1 < n ∧ e.2 < n) (h : Joins n E s) :
    Joins n
      (fun i j => E i j ∨ (limits.linkDistance < edgeLength lib points e ∧ edgeLength lib points e ≤ limits.gapDistance ∧
        aligned points directions minimumAlignment e (edgeLength lib points e) = true) ∧ (i, j) = e)
      (gapStep swap limits points directions minimumAlignment s (e, edgeLength lib points e)) := by
  unfold gapStep
  by_cases hrange : edgeLength lib points e ≤ limits.linkDistance ∨ limits.gapDistance < edgeLength lib points e
  · simp only [if_pos hrange]
    refine joins_ite (fun hgap => ?_) fun _ => h
    rcases hrange with hlink | hfar
    · exact absurd hgap.1 (not_lt.mpr hlink)
    · exact absurd hgap.2.1 (not_le.mpr hfar)
  obtain ⟨root, hholds⟩ := h
  obtain ⟨hfirst, hholds'⟩ := holds_find hholds e.1
  obtain ⟨hsecond, hholds''⟩ := holds_find hholds' e.2
  simp only [if_neg hrange, hfirst, hsecond]
  by_cases heq : root e.1 = root e.2
  · rw [if_pos heq]
    exact joins_ite (fun _ => ⟨root, hholds''.size, hholds''.forest, hholds''.tracks.skip heq⟩) fun _ => ⟨root, hholds''⟩
  rw [if_neg heq]
  by_cases halign : aligned points directions minimumAlignment (e.1, e.2) (edgeLength lib points e) = true
  · rw [if_pos halign]
    have hunion := joins_union ⟨root, hholds''⟩ swap he.1 he.2
    refine joins_ite (fun _ => hunion) fun hgap => ?_
    exact absurd ⟨not_le.mp fun hle => hrange (Or.inl hle), not_lt.mp fun hlt => hrange (Or.inr hlt), halign⟩ hgap
  · rw [if_neg halign]
    exact joins_ite (fun hgap => absurd hgap.2.2 halign) fun _ => ⟨root, hholds''⟩

/-- After both loops the roots are the components of the links and the aligned gaps. -/
theorem joins_joinAll {edges : List (ℕ × ℕ)} (hedges : ∀ e ∈ edges, e.1 < points.length ∧ e.2 < points.length) :
    Joins points.length (Joined lib limits points edges) (joinAll lib swap limits points edges) := by
  unfold joinAll
  simp only [List.foldl_map]
  have hstart : Joins points.length (fun _ _ => False)
      (Prod.fst (DisjointSet.init points.length, fun _ : ℕ => ([] : List ℕ))) :=
    joins_init points.length
  have hlinks := joins_foldl Prod.fst (fun st e => linkStep swap limits st (e, edgeLength lib points e))
    (fun e => edgeLength lib points e ≤ limits.linkDistance) edges (fun st E e he => joins_linkStep (hedges e he)) hstart
  have htangents : (fun index => localTangent lib points index
      ((edges.foldl (fun st e => linkStep swap limits st (e, edgeLength lib points e))
        (DisjointSet.init points.length, fun _ => [])).2 index)) = tangents lib limits points edges := by
    funext index
    rw [neighbors_foldl, List.nil_append, tangents]
  rw [htangents]
  have hgaps := joins_foldl id (fun s e => gapStep swap limits points (tangents lib limits points edges)
    (lib.cos limits.maxGapAngle) s (e, edgeLength lib points e)) (Gap lib limits points edges) edges
    (fun s E e he => joins_gapStep (hedges e he)) hlinks
  refine hgaps.congr fun i j => ?_
  simp only [Joined, false_or]
  rw [← and_or_left]

/-! ## Labels -/

open Classical in
/-- The sum of the votes over the component of a cone. -/
noncomputable def componentVote (E : ℕ → ℕ → Prop) (votes : List K) (i : ℕ) : K :=
  ∑ j ∈ (Finset.range votes.length).filter (Relation.EqvGen E i), votes.getD j 0

/-- The votes that the items of one root give. -/
def rootVote (root : ℕ → ℕ) (votes : List K) (r : ℕ) : K :=
  ∑ j ∈ (Finset.range votes.length).filter fun j => root j = r, votes.getD j 0

omit [LinearOrder K] in
theorem rootVote_eq (h : Tracks E root) (votes : List K) (i : ℕ) : rootVote root votes (root i) = componentVote E votes i := by
  classical
  unfold rootVote componentVote
  refine Finset.sum_congr (Finset.filter_congr fun j _ => ?_) fun _ _ => rfl
  rw [eq_comm]
  exact h i j

omit [LinearOrder K] in
theorem rootVote_concat (root : ℕ → ℕ) (votes : List K) (vote : K) (r : ℕ) :
    rootVote root (votes ++ [vote]) r = rootVote root votes r + if root votes.length = r then vote else 0 := by
  unfold rootVote
  rw [Finset.sum_filter, Finset.sum_filter, List.length_append, List.length_singleton, Finset.sum_range_succ]
  congr 1
  · refine Finset.sum_congr rfl fun j hj => ?_
    rw [List.getD_append _ _ _ _ (Finset.mem_range.mp hj)]
  · simp

omit [LinearOrder K] in
/-- The votes by root, and an entry for the root of every cone. -/
theorem countVotes_spec (h : Holds n E root s) (votes : List K) :
    Holds n E root (countVotes s votes).1 ∧ (∀ r, ((countVotes s votes).2 r).getD 0 = rootVote root votes r) ∧
      ∀ j < votes.length, ∃ total, (countVotes s votes).2 (root j) = some total := by
  induction votes using List.reverseRecOn with
  | nil => exact ⟨h, fun r => by simp [countVotes, rootVote], fun j hj => absurd hj (Nat.not_lt_zero j)⟩
  | append_singleton votes vote ih =>
    obtain ⟨hholds, htotals, hpresent⟩ := ih
    obtain ⟨hfind, hholds'⟩ := holds_find hholds votes.length
    have hstep : countVotes s (votes ++ [vote]) =
        (((countVotes s votes).1.find votes.length).1, Function.update (countVotes s votes).2 (root votes.length)
          (some (((countVotes s votes).2 (root votes.length)).getD 0 + vote))) := by
      unfold countVotes at hfind ⊢
      simp only [List.zipIdx_append, List.foldl_append, List.zipIdx_singleton, List.foldl_cons, List.foldl_nil, zero_add, hfind]
    rw [hstep]
    refine ⟨hholds', fun r => ?_, fun j hj => ?_⟩
    · simp only [rootVote_concat, Function.update_apply]
      by_cases hr : r = root votes.length
      · subst hr
        simp [htotals]
      · simp [hr, Ne.symm hr, htotals]
    · simp only [Function.update_apply]
      split
      · exact ⟨_, rfl⟩
      · case isFalse hne =>
        refine hpresent j (lt_of_le_of_ne ?_ fun heq => hne (heq ▸ rfl))
        rw [List.length_append, List.length_singleton] at hj
        omega

theorem readLabels_eq {votes : ℕ → Option K} (indices : List ℕ) {s : DisjointSet} (h : Holds n E root s)
    (hpresent : ∀ i ∈ indices, ∃ total, votes (root i) = some total) :
    readLabels votes s indices = .ok (indices.map fun i => sign ((votes (root i)).getD 0)) := by
  induction indices generalizing s with
  | nil => rfl
  | cons index rest ih =>
    obtain ⟨hfind, hholds⟩ := holds_find h index
    obtain ⟨total, htotal⟩ := hpresent index List.mem_cons_self
    have hrest := ih hholds fun i hi => hpresent i (List.mem_cons_of_mem _ hi)
    simp only [readLabels, hfind, htotal, hrest, List.map_cons]
    rfl

/-- The labels of the components. -/
noncomputable def componentLabels (E : ℕ → ℕ → Prop) (votes : List K) : List ℤ :=
  (List.range votes.length).map fun i => sign (componentVote E votes i)

theorem componentLabels_getD {E : ℕ → ℕ → Prop} {votes : List K} {i : ℕ} (hi : i < votes.length) :
    (componentLabels E votes).getD i 0 = sign (componentVote E votes i) := by
  simp [componentLabels, List.getD, hi]

omit [LinearOrder K] in
theorem componentVote_congr {E : ℕ → ℕ → Prop} {votes : List K} {i j : ℕ} (h : Relation.EqvGen E i j) :
    componentVote E votes i = componentVote E votes j := by
  classical
  unfold componentVote
  refine Finset.sum_congr (Finset.filter_congr fun k _ => ?_) fun _ _ => rfl
  exact ⟨fun hi => (h.symm _ _).trans _ _ _ hi, fun hj => h.trans _ _ _ hj⟩

/-- Without an edge each cone keeps the sign of its own vote. -/
theorem componentLabels_discrete {E : ℕ → ℕ → Prop} (hE : ∀ i j, ¬ E i j) (votes : List K) :
    componentLabels E votes = votes.map sign := by
  have htracks : Tracks E id := Tracks.discrete.congr fun i j => (iff_of_false id (hE i j))
  have hvote (i : ℕ) : componentVote E votes i = if i < votes.length then votes.getD i 0 else 0 := by
    rw [← rootVote_eq htracks, rootVote, Finset.sum_filter]
    simp
  refine List.ext_getElem (by simp [componentLabels]) fun i hi _ => ?_
  have hlt : i < votes.length := by simpa [componentLabels] using hi
  simp [componentLabels, hvote, hlt]

/-- The second half of the classifier reads the labels of the components off the disjoint set. -/
theorem readLabels_countVotes {E : ℕ → ℕ → Prop} {s : DisjointSet} {votes : List K} (h : Joins votes.length E s) :
    readLabels (countVotes s votes).2 (countVotes s votes).1 (List.range votes.length) = .ok (componentLabels E votes) := by
  obtain ⟨root, h⟩ := h
  obtain ⟨hholds, htotals, hpresent⟩ := countVotes_spec h votes
  rw [readLabels_eq _ hholds fun i hi => hpresent i (List.mem_range.mp hi)]
  simp only [htotals, rootVote_eq h.tracks, componentLabels]

/-! ## The classifier -/

/-- Simplices are made of numbers of points. -/
def InRange (delaunay : List (K × K) → Option (List (ℕ × ℕ × ℕ))) : Prop :=
  ∀ points simplices, delaunay points = some simplices →
    ∀ simplex ∈ simplices, simplex.1 < points.length ∧ simplex.2.1 < points.length ∧ simplex.2.2 < points.length

theorem mem_collectEdges {simplices : List (ℕ × ℕ × ℕ)} {e : ℕ × ℕ} (he : e ∈ collectEdges simplices) :
    ∃ simplex ∈ simplices, e ∈ simplexEdges simplex := by
  have hinsert (new edges : List (ℕ × ℕ)) :
      e ∈ new.foldl (fun edges edge => edges.insert edge) edges → e ∈ edges ∨ e ∈ new := by
    induction new generalizing edges with
    | nil => exact Or.inl
    | cons edge new ih =>
      intro h
      rcases ih _ h with h | h
      · rcases List.mem_insert_iff.mp h with rfl | h
        · exact Or.inr List.mem_cons_self
        · exact Or.inl h
      · exact Or.inr (List.mem_cons_of_mem _ h)
  have hall (simplices : List (ℕ × ℕ × ℕ)) (edges : List (ℕ × ℕ)) :
      e ∈ simplices.foldl
          (fun edges simplex => (simplexEdges simplex).foldl (fun edges edge => edges.insert edge) edges) edges →
        e ∈ edges ∨ ∃ simplex ∈ simplices, e ∈ simplexEdges simplex := by
    induction simplices generalizing edges with
    | nil => exact Or.inl
    | cons simplex simplices ih =>
      intro h
      rcases ih _ h with h | ⟨simplex', hmem, h⟩
      · rcases hinsert _ _ h with h | h
        · exact Or.inl h
        · exact Or.inr ⟨simplex, List.mem_cons_self, h⟩
      · exact Or.inr ⟨simplex', List.mem_cons_of_mem _ hmem, h⟩
  exact (hall simplices [] he).resolve_left (by simp)

theorem edges_lt {simplices : List (ℕ × ℕ × ℕ)}
    (h : ∀ simplex ∈ simplices, simplex.1 < n ∧ simplex.2.1 < n ∧ simplex.2.2 < n) :
    ∀ e ∈ collectEdges simplices, e.1 < n ∧ e.2 < n := by
  intro e he
  obtain ⟨simplex, hmem, hedge⟩ := mem_collectEdges he
  obtain ⟨ha, hb, hc⟩ := h simplex hmem
  simp only [simplexEdges, List.mem_cons, List.not_mem_nil, or_false] at hedge
  rcases hedge with rfl | rfl | rfl <;> simp [ha, hb, hc]

/-- What the classifier returns, for any visiting order and any choice of roots. -/
theorem classifyBy_eq (hrange : InRange lib.delaunay) {iterate : List (ℕ × ℕ) → List (ℕ × ℕ)}
    (hiterate : ∀ edges, (iterate edges).Perm edges) (swap : DisjointSet → ℕ → ℕ → Bool) {votes : List K}
    (hlen : points.length = votes.length) :
    classifyBy lib iterate swap limits points votes =
      .ok (componentLabels (Joined lib limits points (triangulationEdges lib points)) votes) := by
  have hbare (hnone : triangulationEdges lib points = []) :
      componentLabels (Joined lib limits points (triangulationEdges lib points)) votes = votes.map sign := by
    refine componentLabels_discrete (fun i j hij => ?_) votes
    rw [hnone] at hij
    exact absurd hij.1 (by simp)
  unfold classifyBy
  rw [if_neg (not_not.mpr hlen)]
  by_cases hnil : points = []
  · rw [if_pos hnil]
    have hvotes : votes = [] := by simpa [hnil, eq_comm] using hlen
    subst hvotes
    rfl
  rw [if_neg hnil]
  by_cases hfew : points.length < 3
  · rw [if_pos hfew, hbare (by simp [triangulationEdges, hfew])]
  rw [if_neg hfew]
  cases hdelaunay : lib.delaunay points with
  | none => simp only [hbare (by simp [triangulationEdges, hdelaunay])]
  | some simplices =>
    have hedges : triangulationEdges lib points = collectEdges simplices := by simp [triangulationEdges, hdelaunay, hfew]
    have hperm : (iterate (collectEdges simplices)).Perm (collectEdges simplices) := hiterate _
    have hlt := edges_lt (hrange points simplices hdelaunay)
    have hjoins : Joins points.length (Joined lib limits points (iterate (collectEdges simplices)))
        (joinAll lib swap limits points (iterate (collectEdges simplices))) :=
      joins_joinAll fun e he => hlt e (hperm.mem_iff.mp he)
    rw [hedges]
    rw [hlen] at hjoins ⊢
    exact readLabels_countVotes (hjoins.congr (Joined.perm_iff lib limits points hperm))

/-- Each cone is labelled with the sign of the votes of its component, for any visiting order of the edges; the cones of a
component agree, and no other order or choice of roots gives other labels. -/
theorem sides_follow_components (lib : Libraries K) (hrange : InRange lib.delaunay)
    (iterate : List (ℕ × ℕ) → List (ℕ × ℕ)) (hiterate : ∀ edges, (iterate edges).Perm edges)
    (limits : Limits K) (conePositions : List (K × K)) (sideVotes : List K) (hlen : conePositions.length = sideVotes.length) :
    let joined := Joined lib limits conePositions (triangulationEdges lib conePositions)
    ∃ labels, classifyConeSides lib iterate limits conePositions sideVotes = .ok labels ∧
      labels.length = conePositions.length ∧
      (∀ i < conePositions.length, labels.getD i 0 = sign (componentVote joined sideVotes i)) ∧
      (∀ i < conePositions.length, ∀ j < conePositions.length, Relation.EqvGen joined i j →
        labels.getD i 0 = labels.getD j 0) ∧
      ∀ (iterate' : List (ℕ × ℕ) → List (ℕ × ℕ)) (swap : DisjointSet → ℕ → ℕ → Bool),
        (∀ edges, (iterate' edges).Perm edges) →
          classifyBy lib iterate' swap limits conePositions sideVotes = .ok labels := by
  intro joined
  refine ⟨componentLabels joined sideVotes, classifyBy_eq hrange hiterate bySize hlen, ?_, fun i hi => ?_, ?_, ?_⟩
  · simp [componentLabels, hlen]
  · exact componentLabels_getD (hlen ▸ hi)
  · intro i hi j hj hij
    rw [componentLabels_getD (hlen ▸ hi), componentLabels_getD (hlen ▸ hj), componentVote_congr hij]
  · intro iterate' swap hiterate'
    exact classifyBy_eq hrange hiterate' swap hlen

/-- The library calls on a row of three cones with a fourth one beside it. -/
def rowLibraries : Libraries ℚ where
  delaunay points := if points.length = 4 then some [(0, 1, 3), (1, 2, 3)] else none
  norm v := if v.1 = 0 ∨ v.2 = 0 then |v.1| + |v.2| else 5
  eigenvector _ := (1, 0)
  cos _ := 1

theorem rowLibraries_inRange : InRange rowLibraries.delaunay := by
  intro points simplices h simplex hmem
  simp only [rowLibraries] at h
  split at h
  · case isTrue hfour =>
    obtain rfl := Option.some.inj h
    rw [hfour]
    simp only [List.mem_cons, List.not_mem_nil, or_false] at hmem
    rcases hmem with rfl | rfl <;> decide
  · case isFalse => cases h

/-- A row of three links, and a cone across a gap that does not follow the row. -/
theorem sides_follow_row :
    (classifyConeSides rowLibraries List.reverse ⟨3, 4, 0⟩ [(0, 0), (3, 0), (6, 0), (3, 4)] [1, 0, -3, 2]
        = .ok [-1, -1, -1, 1]) ∧
      ∃ labels : List ℤ, labels.length = 4 ∧ (∀ swap : DisjointSet → ℕ → ℕ → Bool,
        classifyBy rowLibraries id swap ⟨3, 4, 0⟩ [(0, 0), (3, 0), (6, 0), (3, 4)] [1, 0, -3, 2] = .ok labels) := by
  obtain ⟨labels, _, hlength, _, _, hother⟩ := sides_follow_components rowLibraries rowLibraries_inRange List.reverse
    List.reverse_perm ⟨3, 4, 0⟩ [(0, 0), (3, 0), (6, 0), (3, 4)] [1, 0, -3, 2] rfl
  exact ⟨by decide +kernel, labels, hlength, fun swap => hother id swap fun edges => List.Perm.refl _⟩

end Lhre.Autonomy.ConeSides
