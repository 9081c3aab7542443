import Mathlib.Tactic

/-!
# `Ingest.Partitions` — how the ingest worker keeps the partitions of a car

A partition is a stretch of driving without a long gap. The DB worker collects the jobs of many packets, and writes a
batch of them in one transaction, in which it also brings the partitions up to date. The sessions are made with
`autoflush=False`: a query sees the rows as they were when the transaction began, a row that was loaded is the object
the session has changed, and what was added is written at the commit.

## Contents
- **Rows.** `Partition`, `latestRow`.
- **Sessions.** `Session`: `latest`, `add`, `setEndTime`, `commit`.
- **The manager.** `PartitionManager`: `recordPacketTime`, `setLatestEndTime`.
- **Batches.** `Job`, `packetTimes`, `recordGaps`, `flushBatch`.
-/

namespace Lhre.Ingest

/-- A row of the table `partitions`. -/
structure Partition where
  partitionName : String
  startTime : ℤ
  endTime : ℤ
deriving Repr, DecidableEq

/-- The primary key. -/
def Partition.key (p : Partition) : String × ℤ := (p.partitionName, p.startTime)

/-- The first row in the order of `end_time.desc()`. -/
def latestRow (rows : List Partition) : Option Partition :=
  rows.foldl (fun best row =>
    match best with
    | none => some row
    | some b => if b.endTime < row.endTime then some row else some b) none

/-! ## Sessions -/

/-- A session: the rows its queries see, the objects it has changed, and the ones it has added. -/
structure Session where
  rows : List Partition
  changed : List Partition := []
  added : List Partition := []
deriving Repr, DecidableEq

/-- The object of a row. -/
def Session.object (s : Session) (row : Partition) : Partition := (s.changed.find? (·.key = row.key)).getD row

/-- `session.query(Partitions).order_by(Partitions.end_time.desc()).first()`. -/
def Session.latest (s : Session) : Option Partition := (latestRow s.rows).map s.object

def Session.add (s : Session) (p : Partition) : Session := { s with added := s.added ++ [p] }

def Session.setEndTime (s : Session) (p : Partition) (t : ℤ) : Session :=
  { s with changed := { p with endTime := t } :: s.changed }

/-- What the commit leaves in the table. -/
def Session.commit (s : Session) : List Partition := s.rows.map s.object ++ s.added

/-! ## The manager -/

structure PartitionManager where
  partitionGapMs : ℤ
deriving Repr, DecidableEq

/-- `PartitionManager(gap_seconds)`. -/
def PartitionManager.ofSeconds (gapSeconds : ℕ) : PartitionManager where
  partitionGapMs := gapSeconds * 1000

/-- A partition of one packet. `strftime` formats its time, in the zone of the host. -/
def newPartition (strftime : ℤ → String) (t : ℤ) : Partition where
  partitionName := strftime t
  startTime := t
  endTime := t

/-- `record_packet_time`: start a partition after a gap, or extend the latest one. -/
def PartitionManager.recordPacketTime (m : PartitionManager) (strftime : ℤ → String) (s : Session) (t : ℤ) : Session :=
  match s.latest with
  | none => s.add (newPartition strftime t)
  | some latest =>
      if t - latest.endTime > m.partitionGapMs then s.add (newPartition strftime t)
      else if t > latest.endTime then s.setEndTime latest t
      else s

/-- `set_latest_end_time`. -/
def setLatestEndTime (s : Session) (t : ℤ) : Session :=
  match s.latest with
  | none => s
  | some latest => if t > latest.endTime then s.setEndTime latest t else s

/-! ## Batches -/

/-- A job of the queue: a table, and the row for it. Of a row that is a dictionary only the time is read. -/
structure Job where
  table : String
  row : Option (Option ℤ)
deriving Repr, DecidableEq

/-- The times of the packets among some jobs. -/
def storedTimes (jobs : List Job) : List ℤ :=
  jobs.filterMap fun job => if job.table = "packet" then job.row.join else none

/-- The distinct times, in order. -/
def packetTimes (jobs : List Job) : List ℤ := (storedTimes jobs).dedup.insertionSort (· ≤ ·)

/-- The loop over the packets after the first: record those that come after a gap. -/
def PartitionManager.recordGaps (m : PartitionManager) (strftime : ℤ → String) :
    Session → ℤ → List ℤ → Session
  | s, _, [] => s
  | s, prevTime, packetTime :: rest =>
      if packetTime - prevTime > m.partitionGapMs then
        m.recordGaps strftime (m.recordPacketTime strftime s packetTime) packetTime rest
      else m.recordGaps strftime s packetTime rest

/-- The partition part of a batch. -/
def PartitionManager.recordBatch (m : PartitionManager) (strftime : ℤ → String) (s : Session) : List ℤ → Session
  | [] => s
  | t :: ts =>
      setLatestEndTime (m.recordGaps strftime (m.recordPacketTime strftime s t) t ts) ((t :: ts).getLast (by simp))

/-- The tables of one car: the times of its packets, and its partitions. -/
structure Database where
  packets : List ℤ := []
  partitions : List Partition := []
deriving Repr, DecidableEq

/-- `partition_enabled_cars`. -/
def partitionEnabledCars : List String := ["Angelique", "Orion"]

/-- `flush_batch`, whose transaction succeeds. A flush after a timeout does the same as one of a full batch. -/
def PartitionManager.flushBatch (m : PartitionManager) (strftime : ℤ → String) (car : String) (db : Database)
    (jobs : List Job) : Database :=
  if jobs = [] then db
  else
    let session : Session := { rows := db.partitions }
    let session :=
      if car ∈ partitionEnabledCars then m.recordBatch strftime session (packetTimes jobs) else session
    { packets := db.packets ++ storedTimes jobs
      partitions := session.commit }

/-- The database after some batches. -/
def PartitionManager.flushed (m : PartitionManager) (strftime : ℤ → String) (car : String) (batches : List (List Job)) :
    Database :=
  batches.foldl (m.flushBatch strftime car) {}

end Lhre.Ingest
