import Lhre.Autonomy.ConeMap
import Lhre.Autonomy.ConeSides
import Lhre.Theory.Dict
import Mathlib.Data.List.DropRight

/-!
# `Autonomy.LidarDetector` — from registered scans to the cones of the track builder

`lhr_perception/lidar_cone_detector.py` from the registered points of a scan on: `_stack_scan`, `_cluster`, `_is_cone`,
`_update_side_classification` and `_publish_accumulated`; `StableSideLabels` and `vehicle_relative_side_vote` of
`cone_side_classifier.py`; and `_cones_cb` of `lhr_track_builder/track_builder_node.py`, which reads the markers. What is
called in `numpy`, `scipy` and `math` is a parameter. The detector also keeps the sides it was proposed, with their poses.

## Contents
- **Labels.** `StableSideLabels`, `labelsFor`, `updateOne`, `update`.
- **The detector.** `DetectorParams`, `DetectorLibraries`, `Pose2D`, `LidarConeDetector`.
- **A scan.** `expire`, `stackScan`, `cluster`, `isCone`, `detections`.
- **Sides.** `sideVote`, `updateSideClassification`.
- **Markers.** `Marker`, `markerStyle`, `publishAccumulated`; `TrackCones`, `conesCb`.
- **Runs.** `ScanInput`, `process`, `processAll`.
-/

namespace Lhre.Autonomy.Lidar

open ConeMap ConeSides

/-! ## Labels -/

/-- `StableSideLabels`. -/
structure StableSideLabels where
  confirmations : ℕ
  labels : List ℤ := []
  pending : List ℤ := []
  counts : List ℕ := []

/-- `labels`: the labels for newly mapped cones too. -/
def StableSideLabels.labelsFor (s : StableSideLabels) (size : ℕ) : Except String StableSideLabels :=
  if size < s.labels.length then .error "cone map cannot shrink"
  else
    let extension := size - s.labels.length
    .ok
      { s with
        labels := s.labels ++ List.replicate extension 0
        pending := s.pending ++ List.replicate extension 0
        counts := s.counts ++ List.replicate extension 0 }

/-- The loop body of `update`. -/
def StableSideLabels.updateOne (seed : Bool) (s : StableSideLabels) (index : ℕ) (side : ℤ) : StableSideLabels :=
  if s.labels.getD index 0 ≠ 0 ∨ side = 0 then s
  else if seed then { s with labels := s.labels.set index side }
  else
    let s :=
      if side = s.pending.getD index 0 then { s with counts := s.counts.set index (s.counts.getD index 0 + 1) }
      else { s with pending := s.pending.set index side, counts := s.counts.set index 1 }
    if s.confirmations ≤ s.counts.getD index 0 then { s with labels := s.labels.set index side } else s

/-- `update`. -/
def StableSideLabels.update (s : StableSideLabels) (proposed : List ℤ) (seed : Bool) : Except String StableSideLabels := do
  let s ← s.labelsFor proposed.length
  return proposed.zipIdx.foldl (fun s (side, index) => s.updateOne seed index side) s

/-! ## The detector -/

variable {K : Type} [Field K] [LinearOrder K]

/-- The parameters of the node that this part reads, as its constructor checks them. -/
structure DetectorParams (K : Type) where
  stackWindowNs : ℤ
  stackMaxFrames : ℕ
  clusterRadius : K
  minClusterPts : ℕ
  maxClusterPts : ℕ
  maxClusterExtent : K
  dedupRadius : K
  minRange : K
  classifySides : Bool
  sideVoteMaxRange : K
  sideVoteMaxForward : K
  sideVoteMaxLateral : K
  sideVoteDeadband : K
  sideUpdateDistance : K
  sideConfirmations : ℕ
  boundary : Limits K
  window_nonneg : 0 ≤ stackWindowNs
  frames_pos : 0 < stackMaxFrames
  confirmations_pos : 0 < sideConfirmations

/-- What the detector calls in `math`, `numpy` and `scipy`. -/
structure DetectorLibraries (K : Type) where
  sides : Libraries K
  /-- The order in which the set of edges is visited. -/
  iterate : List (ℕ × ℕ) → List (ℕ × ℕ)
  /-- `math.hypot`. -/
  hypot : K → K → K
  /-- `math.cos` and `math.sin`. -/
  cos : K → K
  sin : K → K
  /-- The connected components of the points closer than a radius, as lists of indices. -/
  components : K → List (K × K) → List (List ℕ)

/-- `Pose2D`. -/
structure Pose2D (K : Type) where
  stampNs : ℤ
  x : K
  y : K
  yaw : K

/-- The state of `LidarConeDetector`, with the sides proposed since the last restart. -/
structure LidarConeDetector (K : Type) where
  scanHistory : List (ℤ × List (K × K × K)) := []
  lastScanNs : Option ℤ := none
  coneMap : List (Entry K) := []
  sideVotes : List K := []
  coneSides : List ℤ := []
  stableSides : StableSideLabels
  lastSidePose : Option (Pose2D K) := none
  seededSides : Bool := false
  publishedNamespaces : List String := []
  proposals : List (Pose2D K × List ℤ) := []

variable (p : DetectorParams K) (lib : DetectorLibraries K)

/-- The detector after its constructor. -/
def LidarConeDetector.init : LidarConeDetector K := { stableSides := { confirmations := p.sideConfirmations } }

/-! ## A scan -/

/-- The loop of `_stack_scan` that removes scans from before the window. -/
def expire {P : Type} (oldest : ℤ) : List (ℤ × P) → List (ℤ × P)
  | first :: second :: rest => if first.1 ≤ oldest then expire oldest (second :: rest) else first :: second :: rest
  | history => history

/-- `_stack_scan`: a scan from before the last one starts anew, and one of the same time replaces it. -/
def LidarConeDetector.stackScan (s : LidarConeDetector K) (stampNs : ℤ) (points : List (K × K × K)) :
    LidarConeDetector K × List (K × K × K) :=
  let s :=
    if s.lastScanNs.any fun last => decide (stampNs < last) then
      { s with
        scanHistory := [], coneMap := [], sideVotes := [], coneSides := []
        stableSides := { confirmations := p.sideConfirmations }
        lastSidePose := none, seededSides := false, proposals := [] }
    else s
  let s := if s.lastScanNs = some stampNs then { s with scanHistory := s.scanHistory.dropLast } else s
  -- a `deque` that is full loses its first item
  let appended := (s.scanHistory ++ [(stampNs, points)]).rtake p.stackMaxFrames
  let oldest := stampNs - p.stackWindowNs
  let history := expire oldest appended
  ({ s with lastScanNs := some stampNs, scanHistory := history }, history.flatMap Prod.snd)

/-- `_cluster`. -/
def cluster (points : List (K × K × K)) : List (List (K × K × K)) :=
  let xy := points.map fun q => (q.1, q.2.1)
  if xy.length < p.minClusterPts then []
  else
    ((lib.components p.clusterRadius xy).map fun group => group.filterMap fun i => points[i]?).filter fun group =>
      p.minClusterPts ≤ group.length

/-- The extent of some coordinates. -/
def extent (values : List K) : K := values.max?.getD 0 - values.min?.getD 0

/-- `_is_cone`. -/
def isCone (cluster : List (K × K × K)) : Bool :=
  if p.maxClusterPts < cluster.length then false
  else if p.maxClusterExtent < extent (cluster.map Prod.fst) then false
  else if p.maxClusterExtent < extent (cluster.map fun q => q.2.1) then false
  else true

/-- `detections`: the centroids of the clusters that are cones. -/
def detections (points : List (K × K × K)) : List (K × K) :=
  ((cluster p lib points).filter (isCone p)).map fun cluster =>
    ((cluster.map Prod.fst).sum / cluster.length, (cluster.map fun q => q.2.1).sum / cluster.length)

/-! ## Sides -/

/-- `vehicle_relative_side_vote`. -/
def sideVote (coneX coneY : K) (pose : Pose2D K) : K :=
  let dx := coneX - pose.x
  let dy := coneY - pose.y
  let cosine := lib.cos pose.yaw
  let sine := lib.sin pose.yaw
  let forward := cosine * dx + sine * dy
  let lateral := -sine * dx + cosine * dy
  let distance := lib.hypot dx dy
  if distance < p.minRange ∨ p.sideVoteMaxRange < distance then 0
  else if forward < 0 ∨ p.sideVoteMaxForward < forward then 0
  else if |lateral| < p.sideVoteDeadband ∨ p.sideVoteMaxLateral < |lateral| then 0
  else (if 0 < lateral then 1 else -1) / (1 + (15 : ℕ) / (100 : ℕ) * distance * distance)

/-- `_update_side_classification`. -/
def LidarConeDetector.updateSideClassification (s : LidarConeDetector K) (pose : Pose2D K) :
    Except String (LidarConeDetector K) :=
  if p.classifySides = false then .ok { s with coneSides := List.replicate s.coneMap.length 0 }
  else do
    let votes := s.sideVotes ++ List.replicate (s.coneMap.length - s.sideVotes.length) 0
    let stable ← s.stableSides.labelsFor s.coneMap.length
    let s := { s with sideVotes := votes, stableSides := stable, coneSides := stable.labels }
    if s.lastSidePose.any fun last => decide (lib.hypot (pose.x - last.x) (pose.y - last.y) < p.sideUpdateDistance) then
      return s
    let votes := List.zipWith (fun vote entry => vote + sideVote p lib entry.x entry.y pose) s.sideVotes s.coneMap
    let proposed ← classifyConeSides lib.sides lib.iterate p.boundary (s.coneMap.map fun entry => (entry.x, entry.y)) votes
    let stable ← s.stableSides.update proposed (!s.seededSides)
    return { s with
      sideVotes := votes, stableSides := stable, coneSides := stable.labels, seededSides := true, lastSidePose := some pose
      proposals := s.proposals ++ [(pose, proposed)] }

/-! ## Markers -/

/-- `Marker.action`. -/
inductive MarkerAction
  | add
  | delete
deriving DecidableEq, Repr

/-- `Marker`, with what the track builder reads. -/
structure Marker (K : Type) where
  action : MarkerAction
  ns : String
  id : ℕ
  position : K × K

/-- `_side_marker_style`: the namespace of a side. -/
def markerStyle (side : ℤ) : String := if side = 1 then "left_cones" else if side = -1 then "right_cones" else "cones"

/-- The markers of a cone. -/
def coneMarkers (published : List String) (i : ℕ) (entry : Entry K) (side : ℤ) : List (Marker K) :=
  (match published[i]? with
    | some ns => if ns ≠ markerStyle side then [{ action := .delete, ns := ns, id := i, position := (0, 0) }] else []
    | none => []) ++
    [{ action := .add, ns := markerStyle side, id := i, position := (entry.x, entry.y) }]

/-- `_publish_accumulated`. -/
def LidarConeDetector.publishAccumulated (s : LidarConeDetector K) : LidarConeDetector K × Option (List (Marker K)) :=
  if s.coneMap = [] then (s, none)
  else
    ({ s with publishedNamespaces := s.coneSides.map markerStyle },
      some ((s.coneMap.zip s.coneSides).zipIdx.flatMap fun ((entry, side), i) =>
        coneMarkers s.publishedNamespaces i entry side))

/-- The cones of `TrackBuilder`, by their ids. -/
structure TrackCones (K : Type) where
  left : Dict ℕ (K × K) := []
  right : Dict ℕ (K × K) := []
  unknown : Dict ℕ (K × K) := []

/-- The loop body of `_cones_cb`. -/
def TrackCones.read (cones : TrackCones K) (marker : Marker K) : TrackCones K :=
  if marker.action ≠ .add then cones
  else if marker.ns = "left_cones" then { cones with left := cones.left.set marker.id marker.position }
  else if marker.ns = "right_cones" then { cones with right := cones.right.set marker.id marker.position }
  else if marker.ns = "cones" then { cones with unknown := cones.unknown.set marker.id marker.position }
  else cones

/-- `_cones_cb`. -/
def conesCb (msg : List (Marker K)) : TrackCones K := msg.foldl TrackCones.read {}

/-! ## Runs -/

/-- A scan: its time, its registered points, and the pose of the car at that time. -/
structure ScanInput (K : Type) where
  stampNs : ℤ
  points : List (K × K × K)
  pose : Pose2D K

/-- `_process` from the registered points on, with what it publishes. -/
def LidarConeDetector.process (s : LidarConeDetector K) (scan : ScanInput K) :
    Except String (LidarConeDetector K × Option (List (Marker K))) := do
  let (s, points) := s.stackScan p scan.stampNs scan.points
  let s := { s with coneMap := (updateConeMap (detections p lib points) s.coneMap p.dedupRadius).1 }
  let s ← s.updateSideClassification p lib scan.pose
  return s.publishAccumulated

/-- A run of scans, with what was published last. -/
def processAll (s : LidarConeDetector K × Option (List (Marker K))) (scans : List (ScanInput K)) :
    Except String (LidarConeDetector K × Option (List (Marker K))) :=
  scans.foldlM (fun s scan => do
    let (next, msg) ← s.1.process p lib scan
    return (next, msg.orElse fun _ => s.2)) s

end Lhre.Autonomy.Lidar
