import Mathlib.Algebra.BigOperators.Group.List.Basic
import Mathlib.Algebra.Order.Field.Basic
import Mathlib.Algebra.Order.Group.Unbundled.Abs

/-!
# `Autonomy.ConeSides` — the sides of cones from votes along boundaries

`lhr_perception/cone_side_classifier.py`: `_DisjointSet`, `_local_tangent`, `_sign` and `classify_cone_sides`, over any ordered
field. What the classifier takes from its libraries (the triangulation, a norm, an eigenvector, a cosine) is a parameter. So
are the order in which its set of edges is visited and the choice of the root that goes below the other one; the source's own
choice is `bySize`. The disjoint set that the source changes in place is threaded through.

## Contents
- **Disjoint sets.** `DisjointSet`, `find`, `unionBy`, `bySize`.
- **The graph.** `Libraries`, `collectEdges`, `localTangent`.
- **The two passes.** `linkStep`, `aligned`, `gapStep`, `joinAll`.
- **Labels.** `sign`, `countVotes`, `readLabels`, `classifyBy`, `classifyConeSides`.
-/

namespace Lhre.Autonomy.ConeSides

/-! ## Disjoint sets -/

/-- `_DisjointSet`: `_parents`, `_sizes`, and the number of items. -/
structure DisjointSet where
  size : ℕ
  parents : ℕ → ℕ
  sizes : ℕ → ℕ

/-- `_DisjointSet.__init__`. -/
def DisjointSet.init (size : ℕ) : DisjointSet where
  size := size
  parents := id
  sizes := fun _ => 1

/-- The loop of `find`: each round skips a parent and goes on from there. -/
def findLoop : ℕ → (ℕ → ℕ) → ℕ → (ℕ → ℕ) × ℕ
  | 0, parents, item => (parents, item)
  | fuel + 1, parents, item =>
    if parents item = item then (parents, item)
    else findLoop fuel (Function.update parents item (parents (parents item))) (parents (parents item))

/-- `_DisjointSet.find`. A path is no longer than there are items. -/
def DisjointSet.find (s : DisjointSet) (item : ℕ) : DisjointSet × ℕ :=
  let (parents, root) := findLoop s.size s.parents item
  ({ s with parents := parents }, root)

/-- `_DisjointSet.union`, with the choice of the root that goes below the other as a parameter. -/
def DisjointSet.unionBy (swap : DisjointSet → ℕ → ℕ → Bool) (s : DisjointSet) (first second : ℕ) : DisjointSet :=
  let (s, first) := s.find first
  let (s, second) := s.find second
  if first = second then s
  else
    let (first, second) := if swap s first second then (second, first) else (first, second)
    { s with
      parents := Function.update s.parents second first
      sizes := Function.update s.sizes first (s.sizes first + s.sizes second) }

/-- The smaller component goes below the larger one. -/
def bySize (s : DisjointSet) (first second : ℕ) : Bool := s.sizes first < s.sizes second

variable {K : Type*} [Field K] [LinearOrder K]

/-! ## The graph -/

/-- What the classifier calls in `numpy`, `scipy` and `math`. -/
structure Libraries (K : Type*) where
  /-- `Delaunay(points).simplices`, or `QhullError`. -/
  delaunay : List (K × K) → Option (List (ℕ × ℕ × ℕ))
  /-- `np.linalg.norm`. -/
  norm : K × K → K
  /-- The last column of `np.linalg.eigh` of a symmetric matrix, which is given as `xx`, `xy`, `yy`. -/
  eigenvector : K × K × K → K × K
  /-- `math.cos`. -/
  cos : K → K

/-- `link_distance`, `gap_distance` and `max_gap_angle`. -/
structure Limits (K : Type*) where
  linkDistance : K
  gapDistance : K
  maxGapAngle : K

/-- The numbers of a simplex, as its three undirected edges. -/
def simplexEdges (simplex : ℕ × ℕ × ℕ) : List (ℕ × ℕ) :=
  let (a, b, c) := simplex
  [(min a b, max a b), (min b c, max b c), (min c a, max c a)]

/-- `edges`: a set, so an edge of two simplices is in it once. -/
def collectEdges (simplices : List (ℕ × ℕ × ℕ)) : List (ℕ × ℕ) :=
  simplices.foldl (fun edges simplex => (simplexEdges simplex).foldl (fun edges edge => edges.insert edge) edges) []

/-- The vector from one point to another. -/
def offset (points : List (K × K)) (first second : ℕ) : K × K :=
  points.getD second (0, 0) - points.getD first (0, 0)

/-- `distance`, and the value of `edge_lengths`. -/
def edgeLength (lib : Libraries K) (points : List (K × K)) (edge : ℕ × ℕ) : K := lib.norm (offset points edge.2 edge.1)

/-- `_local_tangent`. -/
def localTangent (lib : Libraries K) (points : List (K × K)) (index : ℕ) (neighbors : List ℕ) : Option (K × K) :=
  if neighbors = [] then none
  else
    let vectors := neighbors.map fun neighbor => offset points index neighbor
    some (lib.eigenvector
      ((vectors.map fun v => v.1 * v.1).sum, (vectors.map fun v => v.1 * v.2).sum, (vectors.map fun v => v.2 * v.2).sum))

/-! ## The two passes -/

/-- `neighbors[index].append(neighbor)`. -/
def push (neighbors : ℕ → List ℕ) (index neighbor : ℕ) : ℕ → List ℕ :=
  Function.update neighbors index (neighbors index ++ [neighbor])

/-- The body of the first loop: a short edge links its two cones. -/
def linkStep (swap : DisjointSet → ℕ → ℕ → Bool) (limits : Limits K) (st : DisjointSet × (ℕ → List ℕ))
    (entry : (ℕ × ℕ) × K) : DisjointSet × (ℕ → List ℕ) :=
  let ((first, second), distance) := entry
  if distance ≤ limits.linkDistance then
    (st.1.unionBy swap first second, push (push st.2 first second) second first)
  else st

/-- `abs(edge_direction @ tangent)`. -/
def alignment (points : List (K × K)) (edge : ℕ × ℕ) (distance : K) (tangent : K × K) : K :=
  let v := offset points edge.1 edge.2
  |v.1 / distance * tangent.1 + v.2 / distance * tangent.2|

/-- `alignments and min(alignments) >= minimum_alignment`. A direction of length zero is no number and compares with none. -/
def aligned (points : List (K × K)) (tangents : ℕ → Option (K × K)) (minimumAlignment : K) (edge : ℕ × ℕ)
    (distance : K) : Bool :=
  match tangents edge.1, tangents edge.2 with
  | none, none => false
  | some t, none => distance ≠ 0 ∧ minimumAlignment ≤ alignment points edge distance t
  | none, some t => distance ≠ 0 ∧ minimumAlignment ≤ alignment points edge distance t
  | some t, some t' =>
    distance ≠ 0 ∧ minimumAlignment ≤ min (alignment points edge distance t) (alignment points edge distance t')

/-- The body of the second loop: an aligned gap joins two components. -/
def gapStep (swap : DisjointSet → ℕ → ℕ → Bool) (limits : Limits K) (points : List (K × K))
    (tangents : ℕ → Option (K × K)) (minimumAlignment : K) (components : DisjointSet) (entry : (ℕ × ℕ) × K) : DisjointSet :=
  let ((first, second), distance) := entry
  if distance ≤ limits.linkDistance ∨ limits.gapDistance < distance then components
  else
    let (components, root) := components.find first
    let (components, root') := components.find second
    if root = root' then components
    else if aligned points tangents minimumAlignment (first, second) distance then components.unionBy swap first second
    else components

/-- `components` after both loops. -/
def joinAll (lib : Libraries K) (swap : DisjointSet → ℕ → ℕ → Bool) (limits : Limits K) (points : List (K × K))
    (edges : List (ℕ × ℕ)) : DisjointSet :=
  let edgeLengths := edges.map fun edge => (edge, edgeLength lib points edge)
  let (components, neighbors) := edgeLengths.foldl (linkStep swap limits) (DisjointSet.init points.length, fun _ => [])
  let tangents := fun index => localTangent lib points index (neighbors index)
  edgeLengths.foldl (gapStep swap limits points tangents (lib.cos limits.maxGapAngle)) components

/-! ## Labels -/

/-- `LEFT`, `RIGHT` or `UNKNOWN`. -/
def sign (value : K) : ℤ := if 0 < value then 1 else if value < 0 then -1 else 0

/-- `component_votes`, with the disjoint set that its lookups leave. -/
def countVotes (components : DisjointSet) (votes : List K) : DisjointSet × (ℕ → Option K) :=
  votes.zipIdx.foldl
    (fun st (vote, index) =>
      let (components, root) := st.1.find index
      (components, Function.update st.2 root (some ((st.2 root).getD 0 + vote))))
    (components, fun _ => none)

/-- The list that is returned. -/
def readLabels (votes : ℕ → Option K) : DisjointSet → List ℕ → Except String (List ℤ)
  | _, [] => .ok []
  | components, index :: rest =>
    let (components, root) := components.find index
    match votes root with
    | none => .error "KeyError"
    | some total => do return sign total :: (← readLabels votes components rest)

/-- `classify_cone_sides`, with the visiting order of the edges and the choice of roots as parameters. -/
def classifyBy (lib : Libraries K) (iterate : List (ℕ × ℕ) → List (ℕ × ℕ)) (swap : DisjointSet → ℕ → ℕ → Bool)
    (limits : Limits K) (conePositions : List (K × K)) (sideVotes : List K) : Except String (List ℤ) :=
  if conePositions.length ≠ sideVotes.length then .error "cone_positions and side_votes must have equal length"
  else if conePositions = [] then .ok []
  else if conePositions.length < 3 then .ok (sideVotes.map sign)
  else
    match lib.delaunay conePositions with
    | none => .ok (sideVotes.map sign)
    | some simplices =>
      let components := joinAll lib swap limits conePositions (iterate (collectEdges simplices))
      let (components, componentVotes) := countVotes components sideVotes
      readLabels componentVotes components (List.range conePositions.length)

/-- `classify_cone_sides`. -/
def classifyConeSides (lib : Libraries K) (iterate : List (ℕ × ℕ) → List (ℕ × ℕ)) (limits : Limits K)
    (conePositions : List (K × K)) (sideVotes : List K) : Except String (List ℤ) :=
  classifyBy lib iterate bySize limits conePositions sideVotes

end Lhre.Autonomy.ConeSides
