import Lhre.Ingest.Partitions

/-!
# `Ingest.Correctness.PartitionCover` — every stored packet falls in a partition

A batch asks for the latest partition several times, and its session never sees what it has added itself. So a batch
that starts a partition leaves it at its first packet, and moves the end of the one before: the partitions cover the
packets exactly while no batch does that, except the first one, where there is no partition before.

## Contents
- **The property.** `Partitioned`.
- **Sorted times.** The gaps of a sorted list.
- **Sessions.** What a batch does to an empty table, and to a table with a latest row.
- **Batches.** `Steady`; one batch, and `partitions_cover`.
- **A batch of two packets.**
-/

namespace Lhre.Ingest

/-! ## The property -/

/-- No packet lies strictly between two times. -/
def Consecutive (packets : List ℤ) (t u : ℤ) : Prop :=
  t ∈ packets ∧ u ∈ packets ∧ t < u ∧ ∀ v ∈ packets, ¬ (t < v ∧ v < u)

/-- The partition holds a time. -/
def Partition.Holds (p : Partition) (t : ℤ) : Prop := p.startTime ≤ t ∧ t ≤ p.endTime

/-- The partitions are those of the stored packets. A partition that ends before another one starts is more than the
    gap ahead of it, whether or not there are partitions in between. -/
structure Partitioned (gap : ℤ) (db : Database) : Prop where
  disjoint : db.partitions.Pairwise fun p q => p.endTime < q.startTime ∨ q.endTime < p.startTime
  covered : ∀ t ∈ db.packets, ∃ p ∈ db.partitions, p.Holds t
  stored : ∀ p ∈ db.partitions, p.startTime ∈ db.packets ∧ p.endTime ∈ db.packets
  apart : ∀ p ∈ db.partitions, ∀ q ∈ db.partitions, p.endTime < q.startTime → gap < q.startTime - p.endTime
  together : ∀ p ∈ db.partitions, ∀ t u, Consecutive db.packets t u → p.Holds t → p.Holds u → u - t ≤ gap

/-! ## Sorted times -/

section Sorted

variable {gap : ℤ}

/-- The times after a gap. -/
def gapStarts (gap prevTime : ℤ) : List ℤ → List ℤ
  | [] => []
  | t :: ts => if t - prevTime > gap then t :: gapStarts gap t ts else gapStarts gap t ts

theorem mem_of_mem_gapStarts {prevTime t : ℤ} {ts : List ℤ} (h : t ∈ gapStarts gap prevTime ts) : t ∈ ts := by
  induction ts generalizing prevTime with
  | nil => exact h
  | cons u us ih =>
      rw [gapStarts] at h
      split at h
      · rcases List.mem_cons.mp h with rfl | h
        · exact List.mem_cons_self
        · exact List.mem_cons_of_mem _ (ih h)
      · exact List.mem_cons_of_mem _ (ih h)

/-- Where every time is recorded, every one comes after a gap. -/
theorem chain_of_gapStarts {prevTime : ℤ} {ts : List ℤ} (hsorted : (prevTime :: ts).Pairwise (· < ·))
    (h : ∀ t ∈ ts, t ∈ gapStarts gap prevTime ts) : (prevTime :: ts).IsChain fun t u => gap < u - t := by
  induction ts generalizing prevTime with
  | nil => exact List.isChain_singleton _
  | cons u us ih =>
      have htail : (u :: us).Pairwise (· < ·) := hsorted.of_cons
      have hlater : ∀ t ∈ us, u < t := (List.pairwise_cons.mp htail).1
      by_cases hgap : u - prevTime > gap
      · refine List.isChain_cons_cons.mpr ⟨hgap, ih htail ?_⟩
        intro t ht
        have hmem := h t (List.mem_cons_of_mem _ ht)
        rw [gapStarts, if_pos hgap] at hmem
        rcases List.mem_cons.mp hmem with rfl | hmem
        · exact absurd (hlater t ht) (lt_irrefl t)
        · exact hmem
      · have hmem := h u List.mem_cons_self
        rw [gapStarts, if_neg hgap] at hmem
        exact absurd (hlater u (mem_of_mem_gapStarts hmem)) (lt_irrefl u)

theorem gapStarts_of_chain {prevTime : ℤ} {ts : List ℤ} (h : (prevTime :: ts).IsChain fun t u => gap < u - t) :
    gapStarts gap prevTime ts = ts := by
  induction ts generalizing prevTime with
  | nil => rfl
  | cons u us ih =>
      obtain ⟨hgap, htail⟩ := List.isChain_cons_cons.mp h
      rw [gapStarts, if_pos hgap, ih htail]

/-- Without a gap nothing is recorded, and the other way round. -/
theorem gapStarts_eq_nil {prevTime : ℤ} {ts : List ℤ} :
    gapStarts gap prevTime ts = [] ↔ (prevTime :: ts).IsChain fun t u => u - t ≤ gap := by
  induction ts generalizing prevTime with
  | nil => exact ⟨fun _ => List.isChain_singleton _, fun _ => rfl⟩
  | cons u us ih =>
      rw [List.isChain_cons_cons, gapStarts]
      by_cases hgap : u - prevTime > gap
      · rw [if_pos hgap]
        exact ⟨fun h => absurd h (List.cons_ne_nil _ _), fun h => absurd h.1 (not_le.mpr hgap)⟩
      · rw [if_neg hgap, ih]
        exact ⟨fun h => ⟨not_lt.mp hgap, h⟩, And.right⟩

/-- Consecutive members of a sorted list without a gap. -/
theorem gap_of_chain {l : List ℤ} (hsorted : l.Pairwise (· ≤ ·)) (h : l.IsChain fun t u => u - t ≤ gap) {t u : ℤ}
    (ht : t ∈ l) (hu : u ∈ l) (htu : t < u) (hnone : ∀ v ∈ l, ¬ (t < v ∧ v < u)) : u - t ≤ gap := by
  induction l with
  | nil => exact absurd ht List.not_mem_nil
  | cons a l ih =>
      obtain ⟨hfirst, htail⟩ := List.pairwise_cons.mp hsorted
      have hu' : u ∈ l := by
        rcases List.mem_cons.mp hu with rfl | hu
        · rcases List.mem_cons.mp ht with rfl | ht
          · exact absurd htu (lt_irrefl t)
          · exact absurd htu (not_lt.mpr (hfirst t ht))
        · exact hu
      by_cases ht' : t ∈ l
      · exact ih htail h.of_cons ht' hu' fun v hv => hnone v (List.mem_cons_of_mem _ hv)
      · obtain rfl : t = a := by
          rcases List.mem_cons.mp ht with rfl | ht
          · rfl
          · exact absurd ht ht'
        cases l with
        | nil => exact absurd hu' List.not_mem_nil
        | cons b l =>
            have hb : t ≠ b := by
              rintro rfl
              exact ht' List.mem_cons_self
            have htb : t ≤ b := hfirst b List.mem_cons_self
            have hbu : b ≤ u := by
              rcases List.mem_cons.mp hu' with rfl | hu'
              · exact le_rfl
              · exact (List.pairwise_cons.mp htail).1 u hu'
            have hlast : ¬ (t < b ∧ b < u) := hnone b (List.mem_cons_of_mem _ List.mem_cons_self)
            have hstep : b - t ≤ gap := (List.isChain_cons_cons.mp h).1
            have hbeq : b = u := by omega
            rwa [hbeq] at hstep

theorem mem_packetTimes {jobs : List Job} {t : ℤ} : t ∈ packetTimes jobs ↔ t ∈ storedTimes jobs := by
  unfold packetTimes
  rw [List.mem_insertionSort, List.mem_dedup]

theorem packetTimes_sorted (jobs : List Job) : (packetTimes jobs).Pairwise (· < ·) := by
  have hle : (packetTimes jobs).Pairwise (· ≤ ·) := List.pairwise_insertionSort _ _
  have hne : (packetTimes jobs).Nodup :=
    (List.perm_insertionSort _ _).nodup_iff.mpr (List.nodup_dedup (storedTimes jobs))
  exact hle.imp₂ (fun _ _ h h' => lt_of_le_of_ne h h') hne

theorem le_getLast {l : List ℤ} (hsorted : l.Pairwise (· < ·)) (hne : l ≠ []) {t : ℤ} (ht : t ∈ l) :
    t ≤ l.getLast hne := by
  obtain ⟨init, last, rfl⟩ : ∃ init last, l = init ++ [last] := ⟨_, _, (List.dropLast_append_getLast hne).symm⟩
  rw [List.getLast_append_singleton]
  rcases List.mem_append.mp ht with ht | ht
  · exact le_of_lt ((List.pairwise_append.mp hsorted).2.2 t ht last (List.mem_singleton.mpr rfl))
  · exact le_of_eq (List.mem_singleton.mp ht)

end Sorted

/-! ## Sessions -/

theorem latestRow_mem {rows : List Partition} {b : Partition} (h : latestRow rows = some b) : b ∈ rows := by
  induction rows using List.reverseRecOn generalizing b with
  | nil => exact absurd h (by simp [latestRow])
  | append_singleton rows p ih =>
      unfold latestRow at h ih
      rw [List.foldl_append, List.foldl_cons, List.foldl_nil] at h
      split at h
      · rw [← Option.some.inj h]
        exact List.mem_append_right _ (List.mem_singleton.mpr rfl)
      · rename_i best hbest
        split at h
        · rw [← Option.some.inj h]
          exact List.mem_append_right _ (List.mem_singleton.mpr rfl)
        · rw [← Option.some.inj h]
          exact List.mem_append_left _ (ih hbest)

/-- The row that ends last is the latest one. -/
theorem latestRow_append {init : List Partition} {latest : Partition}
    (h : ∀ p ∈ init, p.endTime < latest.endTime) : latestRow (init ++ [latest]) = some latest := by
  cases hinit : latestRow init with
  | none =>
      unfold latestRow at hinit ⊢
      rw [List.foldl_append, hinit]
      rfl
  | some b =>
      have hlt : b.endTime < latest.endTime := h b (latestRow_mem hinit)
      unfold latestRow at hinit ⊢
      rw [List.foldl_append, hinit, List.foldl_cons, List.foldl_nil]
      simp only
      rw [if_pos hlt]

/-- A session over a table with a latest row, whose object ends at `e`. -/
structure Session.At (init : List Partition) (latest : Partition) (e : ℤ) (added : List Partition) (s : Session) :
    Prop where
  rows : s.rows = init ++ [latest]
  object : s.object latest = { latest with endTime := e }
  others : ∀ p ∈ init, s.object p = p
  added : s.added = added

/-- The latest row of a table ends last, and has its own key. -/
structure Latest (init : List Partition) (latest : Partition) : Prop where
  ends : ∀ p ∈ init, p.endTime < latest.endTime
  keys : ∀ p ∈ init, p.key ≠ latest.key

section Sessions

variable {m : PartitionManager} {strftime : ℤ → String} {s : Session} {init added : List Partition}
  {latest : Partition} {e t : ℤ}

theorem recordGaps_empty (hrows : s.rows = []) (prevTime : ℤ) (ts : List ℤ) :
    m.recordGaps strftime s prevTime ts =
      { s with added := s.added ++ (gapStarts m.partitionGapMs prevTime ts).map (newPartition strftime) } := by
  induction ts generalizing s prevTime with
  | nil => rw [PartitionManager.recordGaps, gapStarts, List.map_nil, List.append_nil]
  | cons u us ih =>
      rw [PartitionManager.recordGaps, gapStarts]
      by_cases hgap : u - prevTime > m.partitionGapMs
      · have hrecord : m.recordPacketTime strftime s u = s.add (newPartition strftime u) := by
          unfold PartitionManager.recordPacketTime Session.latest
          rw [hrows]
          rfl
        have hadded : (s.add (newPartition strftime u)).rows = [] := hrows
        rw [if_pos hgap, if_pos hgap, hrecord, ih hadded, List.map_cons]
        simp only [Session.add, List.append_assoc, List.singleton_append]
      · rw [if_neg hgap, if_neg hgap, ih hrows]

/-- **A batch over an empty table** leaves a partition of one packet for the first packet and after each gap. -/
theorem recordBatch_empty (t : ℤ) (ts : List ℤ) : m.recordBatch strftime { rows := [] } (t :: ts) =
    { rows := [], added := (t :: gapStarts m.partitionGapMs t ts).map (newPartition strftime) } := by
  rw [PartitionManager.recordBatch]
  have hrecord : m.recordPacketTime strftime { rows := [] } t =
      { rows := [], added := [newPartition strftime t] } := rfl
  rw [hrecord, recordGaps_empty rfl]
  rfl

theorem Session.At.latest_eq (hlatest : Latest init latest) (h : Session.At init latest e added s) :
    s.latest = some { latest with endTime := e } := by
  unfold Session.latest
  rw [h.rows, latestRow_append hlatest.ends, Option.map_some, h.object]

theorem Session.At.setEndTime (hlatest : Latest init latest) (h : Session.At init latest e added s) :
    Session.At init latest t added (s.setEndTime { latest with endTime := e } t) := by
  refine ⟨h.rows, ?_, ?_, h.added⟩
  · unfold Session.object Session.setEndTime
    rw [List.find?_cons_of_pos (by simp [Partition.key])]
    rfl
  · intro p hp
    have hkey : (Partition.key { latest with endTime := t }) ≠ p.key := fun heq => hlatest.keys p hp heq.symm
    show (List.find? _ ({ latest with endTime := t } :: s.changed)).getD p = p
    rw [List.find?_cons_of_neg (by simpa using hkey)]
    exact h.others p hp

theorem Session.At.record (m : PartitionManager) (strftime : ℤ → String) (t : ℤ) (hlatest : Latest init latest)
    (h : Session.At init latest e added s) :
    Session.At init latest (if t - e > m.partitionGapMs then e else max e t)
      (if t - e > m.partitionGapMs then added ++ [newPartition strftime t] else added)
      (m.recordPacketTime strftime s t) := by
  unfold PartitionManager.recordPacketTime
  rw [h.latest_eq hlatest]
  simp only
  by_cases hgap : t - e > m.partitionGapMs
  · rw [if_pos hgap, if_pos hgap, if_pos hgap]
    refine ⟨h.rows, h.object, h.others, ?_⟩
    show s.added ++ _ = _
    rw [h.added]
  · rw [if_neg hgap, if_neg hgap, if_neg hgap]
    by_cases hlater : t > e
    · rw [if_pos hlater, max_eq_right (le_of_lt hlater)]
      exact h.setEndTime hlatest
    · rw [if_neg hlater, max_eq_left (not_lt.mp hlater)]
      exact h

theorem Session.At.recordGaps (m : PartitionManager) (strftime : ℤ → String) (hlatest : Latest init latest)
    {prevTime : ℤ} {ts : List ℤ}
    (h : Session.At init latest e added s) (hprev : e ≤ prevTime) (hsorted : (prevTime :: ts).Pairwise (· < ·)) :
    Session.At init latest e (added ++ (gapStarts m.partitionGapMs prevTime ts).map (newPartition strftime))
      (m.recordGaps strftime s prevTime ts) := by
  induction ts generalizing s prevTime added with
  | nil =>
      rw [gapStarts, List.map_nil, List.append_nil]
      exact h
  | cons u us ih =>
      have hlt : prevTime < u := (List.pairwise_cons.mp hsorted).1 u List.mem_cons_self
      rw [PartitionManager.recordGaps, gapStarts]
      by_cases hgap : u - prevTime > m.partitionGapMs
      · have hrecord := h.record m strftime u hlatest
        have hgap' : u - e > m.partitionGapMs := by omega
        rw [if_pos hgap', if_pos hgap'] at hrecord
        rw [if_pos hgap, if_pos hgap, List.map_cons, ← List.singleton_append, ← List.append_assoc]
        exact ih hrecord (by omega) hsorted.of_cons
      · rw [if_neg hgap, if_neg hgap]
        exact ih h (by omega) hsorted.of_cons

theorem Session.At.setLatestEndTime (t : ℤ) (hlatest : Latest init latest) (h : Session.At init latest e added s) :
    Session.At init latest (max e t) added (setLatestEndTime s t) := by
  unfold Ingest.setLatestEndTime
  rw [h.latest_eq hlatest]
  simp only
  by_cases hlater : t > e
  · rw [if_pos hlater, max_eq_right (le_of_lt hlater)]
    exact h.setEndTime hlatest
  · rw [if_neg hlater, max_eq_left (not_lt.mp hlater)]
    exact h

/-- **A batch over a table with a latest row** moves its end to the last packet, and adds a partition of one packet
    after each gap. -/
theorem recordBatch_latest (hlatest : Latest init latest) {ts : List ℤ} (ht : latest.endTime ≤ t)
    (hsorted : (t :: ts).Pairwise (· < ·)) :
    (m.recordBatch strftime { rows := init ++ [latest] } (t :: ts)).commit =
      init ++ [{ latest with endTime := (t :: ts).getLast (by simp) }] ++
        (gapStarts m.partitionGapMs latest.endTime (t :: ts)).map (newPartition strftime) := by
  have hstart : Session.At init latest latest.endTime [] { rows := init ++ [latest] } :=
    ⟨rfl, rfl, fun _ _ => rfl, rfl⟩
  have hlast : t ≤ (t :: ts).getLast (by simp) := le_getLast hsorted _ List.mem_cons_self
  have hend : Session.At init latest ((t :: ts).getLast (by simp))
      ((gapStarts m.partitionGapMs latest.endTime (t :: ts)).map (newPartition strftime))
      (m.recordBatch strftime { rows := init ++ [latest] } (t :: ts)) := by
    rw [PartitionManager.recordBatch, gapStarts]
    have hrecord := hstart.record m strftime t hlatest
    by_cases hgap : t - latest.endTime > m.partitionGapMs
    · rw [if_pos hgap, if_pos hgap] at hrecord
      have hfinal := (hrecord.recordGaps m strftime hlatest ht hsorted).setLatestEndTime
        ((t :: ts).getLast (by simp)) hlatest
      rw [max_eq_right (le_trans ht hlast)] at hfinal
      rw [if_pos hgap]
      exact hfinal
    · rw [if_neg hgap, if_neg hgap] at hrecord
      have hfinal := (hrecord.recordGaps m strftime hlatest (max_le ht le_rfl) hsorted).setLatestEndTime
        ((t :: ts).getLast (by simp)) hlatest
      rw [max_eq_right (max_le (le_trans ht hlast) hlast)] at hfinal
      rw [if_neg hgap]
      exact hfinal
  unfold Session.commit
  rw [hend.rows, hend.added, List.map_append, List.map_singleton, hend.object]
  rw [List.map_congr_left hend.others, List.map_id']

end Sessions

/-! ## Batches -/

/-- A batch starts no partition over another one. Where there is no partition yet, it may only start partitions of one
    packet; where there is one, it may not start any. -/
def Steady (gap : ℤ) (db : Database) (jobs : List Job) : Prop :=
  match latestRow db.partitions with
  | none => (packetTimes jobs).IsChain fun t u => gap < u - t
  | some latest => (latest.endTime :: packetTimes jobs).IsChain fun t u => u - t ≤ gap

/-- What a steady batch keeps: the rows are those of the packets, and in the order of their times. -/
structure Tidy (gap : ℤ) (db : Database) : Prop extends Partitioned gap db where
  sorted : db.partitions.Pairwise fun p q => p.endTime + gap < q.startTime
  ordered : ∀ p ∈ db.partitions, p.startTime ≤ p.endTime

section Batches

variable {m : PartitionManager} {strftime : ℤ → String} {car : String} {gap : ℤ} {db : Database} {jobs : List Job}
  {init : List Partition} {latest : Partition} {t : ℤ} {ts : List ℤ}

/-- The rows before the last one end more than the gap before it starts. -/
theorem Tidy.before_latest (h : Tidy gap db) (hrows : db.partitions = init ++ [latest]) :
    ∀ p ∈ init, p.endTime + gap < latest.startTime := by
  have hsorted := h.sorted
  rw [hrows] at hsorted
  intro p hp
  exact (List.pairwise_append.mp hsorted).2.2 p hp latest (List.mem_singleton.mpr rfl)

theorem Tidy.latest_mem (hrows : db.partitions = init ++ [latest]) : latest ∈ db.partitions := by
  rw [hrows]
  exact List.mem_append_right _ (List.mem_singleton.mpr rfl)

/-- The last row of a tidy table is its latest one. -/
theorem Tidy.latest_row (hgap : 0 ≤ gap) (h : Tidy gap db) (hrows : db.partitions = init ++ [latest]) :
    Latest init latest := by
  have hordered : ∀ p ∈ init, p.startTime ≤ p.endTime := by
    intro p hp
    exact h.ordered p (by rw [hrows]; exact List.mem_append_left _ hp)
  have hlatest : latest.startTime ≤ latest.endTime := h.ordered latest (Tidy.latest_mem hrows)
  refine ⟨?_, ?_⟩
  · intro p hp
    have hbefore := h.before_latest hrows p hp
    omega
  · intro p hp hkey
    have hbefore := h.before_latest hrows p hp
    have hp' := hordered p hp
    have hstart : p.startTime = latest.startTime := congrArg Prod.snd hkey
    omega

/-- No packet of a tidy table is later than its last row. -/
theorem Tidy.packets_le (hgap : 0 ≤ gap) (h : Tidy gap db) (hrows : db.partitions = init ++ [latest]) :
    ∀ w ∈ db.packets, w ≤ latest.endTime := by
  intro w hw
  obtain ⟨p, hp, hpw⟩ := h.covered w hw
  have hordered := h.ordered latest (Tidy.latest_mem hrows)
  rw [hrows] at hp
  rcases List.mem_append.mp hp with hp | hp
  · have hbefore := h.before_latest hrows p hp
    have hend := hpw.2
    omega
  · rw [List.mem_singleton.mp hp] at hpw
    exact hpw.2

theorem apart_of_sorted (hgap : 0 ≤ gap) {rows : List Partition}
    (hsorted : rows.Pairwise fun p q => p.endTime + gap < q.startTime) (hordered : ∀ p ∈ rows, p.startTime ≤ p.endTime)
    {p q : Partition} (hp : p ∈ rows) (hq : q ∈ rows) (hlt : p.endTime < q.startTime) :
    gap < q.startTime - p.endTime := by
  have hsymm : Std.Symm fun p q : Partition => p.endTime + gap < q.startTime ∨ q.endTime + gap < p.startTime :=
    ⟨fun _ _ h => h.symm⟩
  have hne : p ≠ q := by
    rintro rfl
    have := hordered p hp
    omega
  have hpairs : rows.Pairwise fun p q => p.endTime + gap < q.startTime ∨ q.endTime + gap < p.startTime :=
    hsorted.imp fun {_ _} h => Or.inl h
  have hp' := hordered p hp
  have hq' := hordered q hq
  rcases hpairs.forall hp hq hne with h | h
  · omega
  · omega

theorem packetTimes_nil (h : packetTimes jobs = []) : storedTimes jobs = [] := by
  refine List.eq_nil_iff_forall_not_mem.mpr ?_
  intro t ht
  rw [← mem_packetTimes, h] at ht
  exact List.not_mem_nil ht

theorem flushBatch_none (h : packetTimes jobs = []) : m.flushBatch strftime car db jobs = db := by
  unfold PartitionManager.flushBatch
  rw [h, packetTimes_nil h]
  have hcommit : Session.commit { rows := db.partitions } = db.partitions := by
    unfold Session.commit
    rw [List.append_nil]
    exact List.map_id' _
  split
  · rfl
  · simp only [PartitionManager.recordBatch, ite_self, hcommit, List.append_nil]

theorem flushBatch_some (hcar : car ∈ partitionEnabledCars) (h : packetTimes jobs = t :: ts) :
    m.flushBatch strftime car db jobs =
      { packets := db.packets ++ storedTimes jobs
        partitions := (m.recordBatch strftime { rows := db.partitions } (t :: ts)).commit } := by
  have hjobs : jobs ≠ [] := by
    rintro rfl
    exact absurd h (by simp [packetTimes, storedTimes])
  unfold PartitionManager.flushBatch
  rw [if_neg hjobs, h]
  simp only [if_pos hcar]

/-- Partitions of one packet each, for packets that lie apart. -/
theorem tidy_points (hgap : 0 ≤ gap) {packets l : List ℤ} (hmem : ∀ t, t ∈ packets ↔ t ∈ l)
    (hchain : l.IsChain fun t u => gap < u - t) :
    Tidy gap { packets := packets, partitions := l.map (newPartition strftime) } := by
  have htrans : Trans (fun t u : ℤ => gap < u - t) (fun t u : ℤ => gap < u - t) fun t u : ℤ => gap < u - t :=
    ⟨fun htu huv => by omega⟩
  have hpairs : l.Pairwise fun t u => gap < u - t := List.isChain_iff_pairwise.mp hchain
  have hsorted : (l.map (newPartition strftime)).Pairwise fun p q => p.endTime + gap < q.startTime := by
    refine List.pairwise_map.mpr (hpairs.imp fun {t u} htu => ?_)
    show t + gap < u
    omega
  have hordered : ∀ p ∈ l.map (newPartition strftime), p.startTime ≤ p.endTime := by
    intro p hp
    obtain ⟨t, -, rfl⟩ := List.mem_map.mp hp
    exact le_rfl
  refine ⟨⟨?_, ?_, ?_, ?_, ?_⟩, hsorted, hordered⟩
  · exact hsorted.imp fun {p q} hpq => Or.inl (by omega)
  · intro t ht
    exact ⟨newPartition strftime t, List.mem_map.mpr ⟨t, (hmem t).mp ht, rfl⟩, le_rfl, le_rfl⟩
  · intro p hp
    obtain ⟨t, ht, rfl⟩ := List.mem_map.mp hp
    exact ⟨(hmem t).mpr ht, (hmem t).mpr ht⟩
  · intro p hp q hq hlt
    exact apart_of_sorted hgap hsorted hordered hp hq hlt
  · intro p hp t u hcons ht hu
    obtain ⟨v, hv, rfl⟩ := List.mem_map.mp hp
    have htu : t < u := hcons.2.2.1
    have ht' : t ≤ v ∧ v ≤ t := ⟨ht.2, ht.1⟩
    have hu' : u ≤ v ∧ v ≤ u := ⟨hu.2, hu.1⟩
    omega

section Extend

variable (hgap : 0 ≤ gap) (h : Tidy gap db) (hrows : db.partitions = init ++ [latest])
  (hlate : ∀ v ∈ t :: ts, ∀ u ∈ db.packets, u ≤ v) (hmem : ∀ v, v ∈ storedTimes jobs ↔ v ∈ t :: ts)
include h hrows hlate hmem

/-- Packets that are consecutive with the batch and not past the latest row were consecutive before it. -/
theorem consecutive_before {v u : ℤ} (hcons : Consecutive (db.packets ++ storedTimes jobs) v u)
    (hle : u ≤ latest.endTime) : Consecutive db.packets v u := by
  obtain ⟨hv, hu, hvu, hnone⟩ := hcons
  have hstored := (h.stored latest (Tidy.latest_mem hrows)).2
  -- a packet of the batch that is not past the latest row is at its end
  have hold : ∀ w ∈ db.packets ++ storedTimes jobs, w ≤ latest.endTime → w ∈ db.packets := by
    intro w hw hle
    rcases List.mem_append.mp hw with hw | hw
    · exact hw
    · rw [le_antisymm hle (hlate w ((hmem w).mp hw) _ hstored)]
      exact hstored
  exact ⟨hold v hv (le_trans (le_of_lt hvu) hle), hold u hu hle, hvu, fun w hw => hnone w (List.mem_append_left _ hw)⟩

include hgap in
/-- Packets that are consecutive with the batch and past the latest row are no gap apart. -/
theorem consecutive_past (hsorted : (t :: ts).Pairwise (· < ·))
    (hchain : (latest.endTime :: t :: ts).IsChain fun t u => u - t ≤ gap) {v u : ℤ}
    (hcons : Consecutive (db.packets ++ storedTimes jobs) v u) (hlt : latest.endTime < u) : u - v ≤ gap := by
  obtain ⟨hv, hu, hvu, hnone⟩ := hcons
  have hstored := (h.stored latest (Tidy.latest_mem hrows)).2
  -- the two are consecutive in the batch, or the first is the old end
  have hvend : latest.endTime ≤ v := by
    by_contra hbefore
    exact hnone _ (List.mem_append_left _ hstored) ⟨not_le.mp hbefore, hlt⟩
  have hbatch : ∀ w ∈ db.packets ++ storedTimes jobs, latest.endTime ≤ w → w ∈ latest.endTime :: t :: ts := by
    intro w hw hle
    rcases List.mem_append.mp hw with hw | hw
    · rw [le_antisymm (h.packets_le hgap hrows w hw) hle]
      exact List.mem_cons_self
    · exact List.mem_cons_of_mem _ ((hmem w).mp hw)
  have hall : (latest.endTime :: t :: ts).Pairwise (· ≤ ·) :=
    List.pairwise_cons.mpr ⟨fun w hw => hlate w hw _ hstored, hsorted.imp fun {_ _} hlt => le_of_lt hlt⟩
  refine gap_of_chain hall hchain (hbatch v hv hvend) (hbatch u hu (le_trans hvend (le_of_lt hvu))) hvu ?_
  intro w hw
  rcases List.mem_cons.mp hw with rfl | hw
  · exact fun hbetween => absurd hbetween.1 (not_lt.mpr hvend)
  · exact hnone w (List.mem_append_right _ ((hmem w).mpr hw))

end Extend

/-- **A batch that goes on from the latest row** without a gap. -/
theorem tidy_extend (hgap : 0 ≤ gap) (h : Tidy gap db) (hrows : db.partitions = init ++ [latest])
    (hlate : ∀ v ∈ t :: ts, ∀ u ∈ db.packets, u ≤ v) (hsorted : (t :: ts).Pairwise (· < ·))
    (hmem : ∀ v, v ∈ storedTimes jobs ↔ v ∈ t :: ts)
    (hchain : (latest.endTime :: t :: ts).IsChain fun t u => u - t ≤ gap) :
    Tidy gap { packets := db.packets ++ storedTimes jobs
               partitions := init ++ [{ latest with endTime := (t :: ts).getLast (by simp) }] } := by
  have hlatest : latest ∈ db.partitions := Tidy.latest_mem hrows
  have hinit : ∀ p ∈ init, p ∈ db.partitions := by
    intro p hp
    rw [hrows]
    exact List.mem_append_left _ hp
  have hstored := h.stored latest hlatest
  have hlast : ∀ v ∈ t :: ts, v ≤ (t :: ts).getLast (by simp) := fun v hv => le_getLast hsorted _ hv
  have hnew : ∀ v ∈ t :: ts, latest.endTime ≤ v := fun v hv => hlate v hv _ hstored.2
  have hgrow : latest.endTime ≤ (t :: ts).getLast (by simp) := hnew _ (List.getLast_mem _)
  have hstart : latest.startTime ≤ latest.endTime := h.ordered latest hlatest
  have hbefore := h.sorted
  rw [hrows] at hbefore
  have hsorted' : (init ++ [{ latest with endTime := (t :: ts).getLast (by simp) }]).Pairwise
      fun p q : Partition => p.endTime + gap < q.startTime := by
    refine List.pairwise_append.mpr ⟨(List.pairwise_append.mp hbefore).1, List.pairwise_singleton _ _, ?_⟩
    intro p hp q hq
    rw [List.mem_singleton.mp hq]
    exact h.before_latest hrows p hp
  have hordered : ∀ p ∈ init ++ [{ latest with endTime := (t :: ts).getLast (by simp) }],
      p.startTime ≤ p.endTime := by
    intro p hp
    rcases List.mem_append.mp hp with hp | hp
    · exact h.ordered p (hinit p hp)
    · rw [List.mem_singleton.mp hp]
      exact le_trans hstart hgrow
  refine ⟨⟨?_, ?_, ?_, ?_, ?_⟩, hsorted', hordered⟩
  · exact hsorted'.imp fun {p q} hpq => Or.inl (by omega)
  · intro v hv
    rcases List.mem_append.mp hv with hv | hv
    · obtain ⟨p, hp, hpv⟩ := h.covered v hv
      rw [hrows] at hp
      rcases List.mem_append.mp hp with hp | hp
      · exact ⟨p, List.mem_append_left _ hp, hpv⟩
      · rw [List.mem_singleton.mp hp] at hpv
        exact ⟨_, List.mem_append_right _ (List.mem_singleton.mpr rfl), hpv.1, le_trans hpv.2 hgrow⟩
    · have hv' := (hmem v).mp hv
      exact ⟨_, List.mem_append_right _ (List.mem_singleton.mpr rfl), le_trans hstart (hnew v hv'), hlast v hv'⟩
  · intro p hp
    rcases List.mem_append.mp hp with hp | hp
    · obtain ⟨hs, he⟩ := h.stored p (hinit p hp)
      exact ⟨List.mem_append_left _ hs, List.mem_append_left _ he⟩
    · rw [List.mem_singleton.mp hp]
      exact ⟨List.mem_append_left _ hstored.1, List.mem_append_right _ ((hmem _).mpr (List.getLast_mem _))⟩
  · intro p hp q hq hlt
    exact apart_of_sorted hgap hsorted' hordered hp hq hlt
  · intro p hp v u hcons hv hu
    have hvu : v < u := hcons.2.2.1
    rcases List.mem_append.mp hp with hp | hp
    · have hend : p.endTime + gap < latest.startTime := h.before_latest hrows p hp
      have hle : u ≤ latest.endTime := by
        have := hu.2
        omega
      exact h.together p (hinit p hp) v u (consecutive_before h hrows hlate hmem hcons hle) hv hu
    · rw [List.mem_singleton.mp hp] at hv hu
      rcases le_or_gt u latest.endTime with hle | hlt
      · exact h.together latest hlatest v u (consecutive_before h hrows hlate hmem hcons hle)
          ⟨hv.1, le_trans (le_of_lt hvu) hle⟩ ⟨hu.1, hle⟩
      · exact consecutive_past hgap h hrows hlate hmem hsorted hchain hcons hlt

/-- **A steady batch keeps the table tidy.** -/
theorem tidy_step (hgap : 0 ≤ m.partitionGapMs) (hcar : car ∈ partitionEnabledCars)
    (h : Tidy m.partitionGapMs db) (hlate : ∀ t ∈ storedTimes jobs, ∀ u ∈ db.packets, u ≤ t)
    (hsteady : Steady m.partitionGapMs db jobs) : Tidy m.partitionGapMs (m.flushBatch strftime car db jobs) := by
  cases htimes : packetTimes jobs with
  | nil =>
      rw [flushBatch_none htimes]
      exact h
  | cons t ts =>
      have hsorted : (t :: ts).Pairwise (· < ·) := htimes ▸ packetTimes_sorted jobs
      have hmem : ∀ v, v ∈ storedTimes jobs ↔ v ∈ t :: ts := fun v => by rw [← htimes, mem_packetTimes]
      rw [flushBatch_some hcar htimes]
      unfold Steady at hsteady
      rw [htimes] at hsteady
      rcases List.eq_nil_or_concat db.partitions with hrows | ⟨init, latest, hrows⟩
      · rw [hrows] at hsteady ⊢
        have hnone : db.packets = [] := by
          refine List.eq_nil_iff_forall_not_mem.mpr fun v hv => ?_
          obtain ⟨p, hp, -⟩ := h.covered v hv
          rw [hrows] at hp
          exact List.not_mem_nil hp
        have hchain : (t :: ts).IsChain fun t u => m.partitionGapMs < u - t := hsteady
        rw [recordBatch_empty, gapStarts_of_chain hchain, hnone, List.nil_append]
        exact tidy_points hgap hmem hchain
      · rw [List.concat_eq_append] at hrows
        have hlatest := h.latest_row hgap hrows
        rw [hrows, latestRow_append hlatest.ends] at hsteady
        have hend : latest.endTime ≤ t :=
          hlate t ((hmem t).mpr List.mem_cons_self) _ (h.stored latest (by rw [hrows]; simp)).2
        rw [hrows, recordBatch_latest hlatest hend hsorted, gapStarts_eq_nil.mpr hsteady, List.map_nil, List.append_nil]
        exact tidy_extend hgap h hrows (fun v hv => hlate v ((hmem v).mpr hv)) hsorted hmem hsteady

/-- **A batch that is not steady** leaves a packet outside, or two partitions over each other. -/
theorem not_partitioned (strftime : ℤ → String) (hgap : 0 ≤ m.partitionGapMs) (hcar : car ∈ partitionEnabledCars)
    (h : Tidy m.partitionGapMs db) (hlate : ∀ t ∈ storedTimes jobs, ∀ u ∈ db.packets, u ≤ t)
    (hsteady : ¬ Steady m.partitionGapMs db jobs) :
    ¬ Partitioned m.partitionGapMs (m.flushBatch strftime car db jobs) := by
  intro hpart
  apply hsteady
  unfold Steady
  cases htimes : packetTimes jobs with
  | nil =>
      cases latestRow db.partitions with
      | none => exact List.isChain_nil
      | some latest => exact List.isChain_singleton _
  | cons t ts =>
      have hsorted : (t :: ts).Pairwise (· < ·) := htimes ▸ packetTimes_sorted jobs
      have hmem : ∀ v, v ∈ storedTimes jobs ↔ v ∈ t :: ts := fun v => by rw [← htimes, mem_packetTimes]
      rw [flushBatch_some hcar htimes] at hpart
      rcases List.eq_nil_or_concat db.partitions with hrows | ⟨init, latest, hrows⟩
      · rw [hrows] at hpart ⊢
        rw [recordBatch_empty] at hpart
        refine chain_of_gapStarts hsorted ?_
        intro v hv
        obtain ⟨p, hp, hpv⟩ := hpart.covered v
          (List.mem_append_right _ ((hmem v).mpr (List.mem_cons_of_mem _ hv)))
        obtain ⟨w, hw, rfl⟩ := List.mem_map.mp (show p ∈ List.map _ _ from hp)
        obtain rfl : w = v := le_antisymm hpv.1 hpv.2
        rcases List.mem_cons.mp hw with rfl | hw
        · exact absurd ((List.pairwise_cons.mp hsorted).1 w hv) (lt_irrefl w)
        · exact hw
      · rw [List.concat_eq_append] at hrows
        have hlatest := h.latest_row hgap hrows
        have hmemLatest : latest ∈ db.partitions := by
          rw [hrows]
          exact List.mem_append_right _ (List.mem_singleton.mpr rfl)
        have hend : ∀ v ∈ t :: ts, latest.endTime ≤ v :=
          fun v hv => hlate v ((hmem v).mpr hv) _ (h.stored latest hmemLatest).2
        rw [hrows, recordBatch_latest hlatest (hend t List.mem_cons_self) hsorted] at hpart
        rw [hrows, latestRow_append hlatest.ends]
        simp only
        rw [← gapStarts_eq_nil]
        refine List.eq_nil_iff_forall_not_mem.mpr fun v hv => ?_
        -- the new partition lies inside the one before
        have hv' : v ∈ t :: ts := mem_of_mem_gapStarts hv
        have hpair := (List.pairwise_append.mp hpart.disjoint).2.2 _
          (List.mem_append_right _ (List.mem_singleton.mpr rfl)) _ (List.mem_map.mpr ⟨v, hv, rfl⟩)
        have hstart := h.ordered latest hmemLatest
        have hlast := le_getLast hsorted (by simp) hv'
        have hle := hend v hv'
        rcases hpair with hpair | hpair
        · have hbad : (t :: ts).getLast (by simp) < v := hpair
          omega
        · have hbad : v < latest.startTime := hpair
          omega

theorem mem_flushed_packets (batches : List (List Job)) (db : Database) {t : ℤ} :
    t ∈ (batches.foldl (m.flushBatch strftime car) db).packets ↔
      t ∈ db.packets ∨ ∃ jobs ∈ batches, t ∈ storedTimes jobs := by
  induction batches generalizing db with
  | nil => simp
  | cons jobs batches ih =>
      have hpackets : (m.flushBatch strftime car db jobs).packets = db.packets ++ storedTimes jobs := by
        unfold PartitionManager.flushBatch
        split
        · rename_i hnil
          rw [hnil]
          exact (List.append_nil _).symm
        · rfl
      rw [List.foldl_cons, ih, hpackets, List.mem_append, List.exists_mem_cons_iff, or_assoc]

end Batches

/-- Packet times do not decrease from batch to batch. -/
def InOrder (batches : List (List Job)) : Prop :=
  batches.Pairwise fun jobs later => ∀ t ∈ storedTimes jobs, ∀ u ∈ storedTimes later, t ≤ u

/-- **Every stored packet falls in a partition.** After every batch of a car with partitions, these are as they should be
    exactly when no batch started a partition over another one. -/
theorem partitions_cover (gapSeconds : ℕ) (strftime : ℤ → String) (car : String) (hcar : car ∈ partitionEnabledCars)
    (batches : List (List Job)) (hordered : InOrder batches) :
    let m := PartitionManager.ofSeconds gapSeconds
    (∀ n ≤ batches.length, Partitioned m.partitionGapMs (m.flushed strftime car (batches.take n))) ↔
      ∀ (n : ℕ) (jobs : List Job), batches[n]? = some jobs →
        Steady m.partitionGapMs (m.flushed strftime car (batches.take n)) jobs := by
  intro m
  have hgap : 0 ≤ m.partitionGapMs := by
    show (0 : ℤ) ≤ gapSeconds * 1000
    positivity
  have hsucc : ∀ (n : ℕ) (jobs : List Job), batches[n]? = some jobs →
      m.flushed strftime car (batches.take (n + 1)) =
        m.flushBatch strftime car (m.flushed strftime car (batches.take n)) jobs := by
    intro n jobs hget
    unfold PartitionManager.flushed
    rw [List.take_add_one, hget, List.foldl_append]
    rfl
  have hlate : ∀ (n : ℕ) (jobs : List Job), batches[n]? = some jobs →
      ∀ t ∈ storedTimes jobs, ∀ u ∈ (m.flushed strftime car (batches.take n)).packets, u ≤ t := by
    intro n jobs hget t ht u hu
    rcases (mem_flushed_packets _ _).mp hu with hu | ⟨earlier, hearlier, hu⟩
    · exact absurd hu List.not_mem_nil
    · have hdrop : jobs ∈ batches.drop n := List.mem_of_getElem? (i := 0) (by rw [List.getElem?_drop]; exact hget)
      have hpairs := hordered
      unfold InOrder at hpairs
      rw [← List.take_append_drop n batches] at hpairs
      exact (List.pairwise_append.mp hpairs).2.2 earlier hearlier jobs hdrop u hu t ht
  have hstart : Tidy m.partitionGapMs (m.flushed strftime car (batches.take 0)) := by
    refine ⟨⟨List.Pairwise.nil, ?_, ?_, ?_, ?_⟩, List.Pairwise.nil, ?_⟩
    all_goals
      intro _ hmem
      exact absurd hmem List.not_mem_nil
  -- while every batch has been steady, the table is tidy
  have htidy : ∀ n ≤ batches.length,
      (∀ (k : ℕ) (jobs : List Job), k < n → batches[k]? = some jobs →
        Steady m.partitionGapMs (m.flushed strftime car (batches.take k)) jobs) →
      Tidy m.partitionGapMs (m.flushed strftime car (batches.take n)) := by
    intro n
    induction n with
    | zero => exact fun _ _ => hstart
    | succ n ih =>
        intro hn hsteady
        have hget : batches[n]? = some batches[n] := List.getElem?_eq_getElem (by omega)
        rw [hsucc n _ hget]
        refine tidy_step hgap hcar (ih (by omega) ?_) (hlate n _ hget) (hsteady n _ (Nat.lt_succ_self n) hget)
        exact fun k jobs hk => hsteady k jobs (by omega)
  constructor
  · intro hpart n
    induction n using Nat.strong_induction_on with
    | _ n ih =>
        intro jobs hget
        have hlt : n < batches.length := (List.getElem?_eq_some_iff.mp hget).1
        by_contra hsteady
        have htidy' := htidy n (by omega) fun k jobs hk => ih k hk jobs
        have hbad := not_partitioned strftime hgap hcar htidy' (hlate n jobs hget) hsteady
        rw [← hsucc n jobs hget] at hbad
        exact hbad (hpart (n + 1) hlt)
  · intro hsteady n hn
    exact (htidy n hn fun k jobs _ => hsteady k jobs).toPartitioned

/-! ## A batch of two packets -/

/-- The job of a packet. -/
def packetJob (t : ℤ) : Job where
  table := "packet"
  row := some (some t)

theorem partitions_cover_steady : InOrder [[packetJob 0], [packetJob 1000, packetJob 2000]] ∧
    ((∀ n ≤ 2, Partitioned 300000 ((PartitionManager.ofSeconds 300).flushed (fun _ => "") "Orion"
        ([[packetJob 0], [packetJob 1000, packetJob 2000]].take n))) ↔
      ∀ (n : ℕ) (jobs : List Job), [[packetJob 0], [packetJob 1000, packetJob 2000]][n]? = some jobs →
        Steady 300000 ((PartitionManager.ofSeconds 300).flushed (fun _ => "") "Orion"
          ([[packetJob 0], [packetJob 1000, packetJob 2000]].take n)) jobs) := by
  have hordered : InOrder [[packetJob 0], [packetJob 1000, packetJob 2000]] := by
    unfold InOrder
    decide
  exact ⟨hordered, partitions_cover 300 (fun _ => "") "Orion" (by decide) _ hordered⟩

/-- The partition of the batch ends at its first packet. -/
theorem not_always_covered : ¬ ∀ (strftime : ℤ → String) (car : String) (batches : List (List Job)),
    car ∈ partitionEnabledCars → InOrder batches → ∀ n ≤ batches.length,
      Partitioned (PartitionManager.ofSeconds 300).partitionGapMs
        ((PartitionManager.ofSeconds 300).flushed strftime car (batches.take n)) := by
  intro hall
  have hordered : InOrder [[packetJob 0, packetJob 1000]] := List.pairwise_singleton _ _
  have hpart := hall (fun _ => "") "Orion" _ (by decide) hordered 1 le_rfl
  have hrows : ((PartitionManager.ofSeconds 300).flushed (fun _ => "") "Orion" [[packetJob 0, packetJob 1000]]) =
      { packets := [0, 1000], partitions := [⟨"", 0, 0⟩] } := by decide
  rw [List.take_of_length_le (by simp), hrows] at hpart
  obtain ⟨p, hp, hheld⟩ := hpart.covered 1000 (by decide)
  rw [List.mem_singleton.mp hp] at hheld
  exact absurd hheld.2 (by decide)

end Lhre.Ingest
