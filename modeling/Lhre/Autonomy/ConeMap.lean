import Mathlib.Algebra.Order.Field.Rat

/-!
# `Autonomy.ConeMap` — association and accumulation of cone detections

`lhr_perception/cone_map.py`, over any ordered field. The map and the matched sets that the source changes in place are threaded
through the loop.

## Contents
- **Entries.** `Entry`, `Entry.absorb`.
- **Candidates.** `distanceSq`, `candidates`, `candidateLe`.
- **The update.** `Scan`, `associate`, `updateConeMap`, `run`.
-/

namespace Lhre.Autonomy.ConeMap

variable {K : Type*} [Field K] [LinearOrder K]

/-! ## Entries -/

/-- An entry of the map: `[x, y, count]`. -/
structure Entry (K : Type*) where
  x : K
  y : K
  count : K
deriving DecidableEq

/-- An entry with one more detection in its mean. -/
def Entry.absorb (entry : Entry K) (detection : K × K) : Entry K where
  x := (entry.x * entry.count + detection.1) / (entry.count + 1)
  y := (entry.y * entry.count + detection.2) / (entry.count + 1)
  count := entry.count + 1

/-! ## Candidates -/

/-- `distance_sq`. -/
def distanceSq (detection : K × K) (entry : Entry K) : K := (detection.1 - entry.x) ^ 2 + (detection.2 - entry.y) ^ 2

/-- `candidates`: the pairs within the radius, with their squared distances. -/
def candidates (detections : List (K × K)) (coneMap : List (Entry K)) (radiusSq : K) : List (K × ℕ × ℕ) :=
  detections.zipIdx.flatMap fun (detection, detectionIndex) =>
    coneMap.zipIdx.filterMap fun (entry, coneIndex) =>
      if distanceSq detection entry < radiusSq then some (distanceSq detection entry, detectionIndex, coneIndex) else none

/-- The order of `sorted`: by distance, then by detection, then by cone. -/
def candidateLe (a b : K × ℕ × ℕ) : Bool :=
  decide (a.1 < b.1 ∨ a.1 = b.1 ∧ (a.2.1 < b.2.1 ∨ a.2.1 = b.2.1 ∧ a.2.2 ≤ b.2.2))

/-! ## The update -/

/-- The map and the matched sets, as the loop goes on. -/
structure Scan (K : Type*) where
  coneMap : List (Entry K)
  matchedDetections : List ℕ
  matchedCones : List ℕ

/-- The loop body. -/
def associate (detections : List (K × K)) (st : Scan K) (candidate : K × ℕ × ℕ) : Scan K :=
  let (_, detectionIndex, coneIndex) := candidate
  if detectionIndex ∈ st.matchedDetections then st
  else if coneIndex ∈ st.matchedCones then st
  else
    { coneMap := st.coneMap.modify coneIndex fun entry => entry.absorb (detections.getD detectionIndex (0, 0))
      matchedDetections := st.matchedDetections ++ [detectionIndex]
      matchedCones := st.matchedCones ++ [coneIndex] }

/-- `update_cone_map`: the map after a scan, and the number of cones added. -/
def updateConeMap (detections : List (K × K)) (coneMap : List (Entry K)) (associationRadius : K) : List (Entry K) × ℕ :=
  let sorted := (candidates detections coneMap (associationRadius ^ 2)).mergeSort candidateLe
  let st := sorted.foldl (associate detections) ⟨coneMap, [], []⟩
  let fresh := detections.zipIdx.filter fun (_, detectionIndex) => detectionIndex ∉ st.matchedDetections
  (st.coneMap ++ fresh.map fun (detection, _) => ⟨detection.1, detection.2, 1⟩, fresh.length)

/-- The map after a sequence of scans. -/
def run (associationRadius : K) (coneMap : List (Entry K)) (scans : List (List (K × K))) : List (Entry K) :=
  scans.foldl (fun coneMap detections => (updateConeMap detections coneMap associationRadius).1) coneMap

end Lhre.Autonomy.ConeMap
