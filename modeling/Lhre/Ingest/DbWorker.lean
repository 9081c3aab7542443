import Lhre.Theory.Dict

/-!
# `Ingest.DbWorker` — from the queue of a car into its database

`MQTTHandler._db_worker` of `mqtt_handler.py` and `QueryBuilder.execute_insert` of `sql_utils/query_builder.py`. The MQTT callback puts
the rows of a message into a bounded queue; the worker collects them and writes many messages in one transaction, which commits or is
rolled back as a whole. The partitions that such a transaction also keeps are in `Ingest.Partitions`.

The worker neither loses, repeats nor reorders what the queue accepted: a message waits in the queue, is held for the next transaction,
or was part of one. The rows of each table are those of the messages in committed transactions, in the order of the messages, and the
row of a packet is never written after a row that refers to it.

## Contents
- **Inserts.** `Row`, `Schema`, `getInsertValues`, `executeInsert`.
- **The worker.** `Item`, `DbWorker`, `putNowait`, `flushBatch`, `ack`, `get`, `timeout`.
- **Runs.** `WorkerEvent`, `DbWorker.step`, `DbWorker.run`.
- **Statements.** `cells`, `sent`, `multiRow_cells`, `rowsByTable_eq`, `executeInsert_cells`, `executeInsert_tables`.
- **The invariant.** `DbWorker.Ok`, `ok_flush`, a lemma for each event, `ok_run`; `rows_in_order`.
-/

namespace Lhre.Ingest

/-- The data of a row by column. -/
abbrev Row (ν : Type) := Dict String ν

/-- The rows of a message with their tables. -/
abbrev InsertJobs (ν : Type) := List (String × Row ν)

/-- What `execute_insert` is given for a car: the tables that have a model, the columns of each with their types, and how a value is
    found missing and brought to a type. -/
structure Schema (ν τ : Type) where
  models : List String
  specs : Dict String (Dict String τ)
  isMissing : ν → Bool
  normalize : ν → τ → ν

/-- One statement: a table and the rows inserted, each with a value or none for every column that one of them has. -/
abbrev Insert (ν : Type) := String × List (Dict String (Option ν))

variable {ν τ : Type}

/-! ## Inserts -/

/-- `get_insert_values`. -/
def getInsertValues (s : Schema ν τ) (spec : Dict String τ) (data : Row ν) : Row ν :=
  data.filterMap fun (key, val) =>
    if s.isMissing val then none else (spec.get? key).map fun expected => (key, s.normalize val expected)

/-- `'packet' in t`. -/
def isPacketTable (t : String) : Bool := decide ("packet".toList <:+: t.toList)

/-- The rows of a statement with the same keys in each. -/
def multiRow (rows : List (Row ν)) : List (Dict String (Option ν)) :=
  let allKeys := (rows.flatMap Dict.keys).dedup
  rows.map fun r => allKeys.map fun k => (k, r.get? k)

/-- `rows_by_table`. -/
def rowsByTable (rows : InsertJobs ν) : Dict String (List (Row ν)) :=
  Dict.collect Prod.fst (fun old row => old.getD [] ++ [row.2]) [] rows

/-- The statement for the rows of one table; `none` where `KeyError` is raised. -/
def insertTable (s : Schema ν τ) (table : String × List (Row ν)) : Option (Insert ν) :=
  if table.1 ∈ s.models then
    (s.specs.get? table.1).map fun spec => (table.1, multiRow (table.2.map (getInsertValues s spec)))
  else none

/-- `execute_insert`: its statements in their order, the tables of packets first. -/
def executeInsert (s : Schema ν τ) (rows : InsertJobs ν) : Option (List (Insert ν)) :=
  let byTable := rowsByTable rows
  let packetTables := byTable.filter fun table => isPacketTable table.1
  let otherTables := byTable.filter fun table => !isPacketTable table.1
  (packetTables ++ otherTables).mapM (insertTable s)

/-! ## The worker -/

/-- What the queue holds: the rows of a message, something else, or the sentinel. -/
inductive Item (ν : Type) where
  | job (rows : InsertJobs ν)
  | malformed
  | stop

/-- The queue with its `unfinished` count, the worker's variables, and the transactions that were committed. The messages that were
    `accepted` by the queue, the ones `held` in `jobs`, and those `done` with whether they were committed are history: nothing reads it. -/
structure DbWorker (ν : Type) where
  queue : List (Item ν) := []
  unfinished : ℕ := 0
  jobs : InsertJobs ν := []
  pendingAcks : ℕ := 0
  running : Bool := true
  database : List (List (Insert ν)) := []
  accepted : List (InsertJobs ν) := []
  held : List (InsertJobs ν) := []
  done : List (InsertJobs ν × Bool) := []

/-- The message of an item. -/
def Item.message? : Item ν → Option (InsertJobs ν)
  | .job rows => some rows
  | _ => none

/-- `put_nowait`; when the queue is full the item is dropped. -/
def DbWorker.putNowait (maxsize : ℕ) (w : DbWorker ν) (item : Item ν) : DbWorker ν :=
  if w.queue.length < maxsize then
    { w with
      queue := w.queue ++ [item]
      unfinished := w.unfinished + 1
      accepted := w.accepted ++ item.message?.toList }
  else w

/-- `flush_batch`: the transaction commits if no insert raises and the database `accepts` it. -/
def DbWorker.flushBatch (s : Schema ν τ) (w : DbWorker ν) (accepts : Bool) : DbWorker ν :=
  if w.jobs = [] then w
  else
    match executeInsert s w.jobs with
    | some inserts =>
        if accepts then
          { w with
            jobs := []
            database := w.database ++ [inserts]
            held := []
            done := w.done ++ w.held.map fun rows => (rows, true) }
        else { w with jobs := [], held := [], done := w.done ++ w.held.map fun rows => (rows, false) }
    | none => { w with jobs := [], held := [], done := w.done ++ w.held.map fun rows => (rows, false) }

/-- The loop of `task_done`. -/
def DbWorker.ack (w : DbWorker ν) : DbWorker ν :=
  { w with unfinished := w.unfinished - w.pendingAcks, pendingAcks := 0 }

/-- The size of a batch. -/
def batchSize : ℕ := 1000

/-- The worker takes an item. -/
def DbWorker.get (s : Schema ν τ) (w : DbWorker ν) (accepts : Bool) : DbWorker ν :=
  match w.running, w.queue with
  | true, .stop :: queue =>
      let w := ({ w with queue := queue }.flushBatch s accepts).ack
      { w with unfinished := w.unfinished - 1, running := false }
  | true, .malformed :: queue => { w with queue := queue, unfinished := w.unfinished - 1 }
  | true, .job rows :: queue =>
      let w :=
        { w with queue := queue, jobs := w.jobs ++ rows, pendingAcks := w.pendingAcks + 1, held := w.held ++ [rows] }
      if batchSize ≤ w.jobs.length then (w.flushBatch s accepts).ack else w
  | _, _ => w

/-- The worker waited in vain. -/
def DbWorker.timeout (s : Schema ν τ) (w : DbWorker ν) (accepts : Bool) : DbWorker ν :=
  match w.running, w.queue with
  | true, [] => if w.jobs = [] then w else (w.flushBatch s accepts).ack
  | _, _ => w

/-! ## Runs -/

/-- What can happen; a transaction that the worker then makes is accepted by the database or not. -/
inductive WorkerEvent (ν : Type) where
  | put (item : Item ν)
  | get (accepts : Bool)
  | timeout (accepts : Bool)

/-- One event. -/
def DbWorker.step (s : Schema ν τ) (maxsize : ℕ) (w : DbWorker ν) : WorkerEvent ν → DbWorker ν
  | .put item => w.putNowait maxsize item
  | .get accepts => w.get s accepts
  | .timeout accepts => w.timeout s accepts

/-- Some events. -/
def DbWorker.run (s : Schema ν τ) (maxsize : ℕ) (w : DbWorker ν) (events : List (WorkerEvent ν)) : DbWorker ν :=
  events.foldl (DbWorker.step s maxsize) w

section Rows

variable {ν τ : Type} {s : Schema ν τ} {t : String} {maxsize : ℕ} {w : DbWorker ν}

/-! ## Statements -/

/-- The value of each column of a stored row. -/
def cells (r : Dict String (Option ν)) (col : String) : Option ν := (r.get? col).join

/-- The rows of a table that some statements insert. -/
def insertedRows (t : String) (inserts : List (Insert ν)) : List (Dict String (Option ν)) :=
  (inserts.filter fun table => table.1 = t).flatMap Prod.snd

/-- The value of each column of a row that is sent to a table. -/
def sent (s : Schema ν τ) (t : String) (row : Row ν) (col : String) : Option ν :=
  (s.specs.get? t).bind fun spec => (getInsertValues s spec row).get? col

theorem get?_pairs {β : Type} (f : String → β) (keys : List String) (k : String) :
    Dict.get? (keys.map fun k => (k, f k)) k = if k ∈ keys then some (f k) else none := by
  induction keys with
  | nil => rfl
  | cons key keys ih =>
      rw [List.map_cons, Dict.get?_cons, ih]
      by_cases h : k = key
      · simp [h]
      · simp [h]

/-- **A row keeps its values** among the rows of a statement; a column it has no value for is empty. -/
theorem multiRow_cells (rows : List (Row ν)) : (multiRow rows).map cells = rows.map fun r col => r.get? col := by
  unfold multiRow
  rw [List.map_map]
  apply List.map_congr_left
  intro r hr
  funext col
  show (Dict.get? ((rows.flatMap Dict.keys).dedup.map fun k => (k, r.get? k)) col).join = r.get? col
  rw [get?_pairs]
  split
  · rfl
  · rename_i hnot
    have hcol : col ∉ r.keys := by
      intro hmem
      exact hnot (List.mem_dedup.mpr (List.mem_flatMap.mpr ⟨r, hr, hmem⟩))
    rw [Dict.get?_eq_none.mpr hcol]
    rfl

theorem foldl_appends (rows : InsertJobs ν) (old : Option (List (Row ν))) :
    (rows.foldl (fun old row => some (old.getD [] ++ [row.2])) old).getD [] = old.getD [] ++ rows.map Prod.snd := by
  induction rows generalizing old with
  | nil => simp
  | cons row rows ih =>
      rw [List.foldl_cons, ih, List.map_cons]
      simp

theorem filter_key {β : Type} {d : Dict String (List β)} (hkeys : d.keys.Nodup) (t : String) :
    (d.filter fun entry => entry.1 = t).flatMap Prod.snd = (d.get? t).getD [] := by
  induction d with
  | nil => rfl
  | cons entry d ih =>
      obtain ⟨hhead, hkeys'⟩ := List.nodup_cons.mp hkeys
      rw [Dict.get?_cons]
      by_cases h : entry.1 = t
      · subst h
        have hnone : (d.filter fun entry' => entry'.1 = entry.1) = [] := by
          apply List.filter_eq_nil_iff.mpr
          intro entry' hmem
          have hne : entry'.1 ≠ entry.1 := fun heq => hhead (heq ▸ List.mem_map_of_mem hmem)
          simpa using hne
        rw [List.filter_cons_of_pos (by simp), hnone, if_pos rfl]
        simp
      · rw [List.filter_cons_of_neg (by simpa using h), if_neg (Ne.symm h)]
        exact ih hkeys'

/-- **The rows of a table** are grouped in their order. -/
theorem rowsByTable_eq (rows : InsertJobs ν) (t : String) :
    ((rowsByTable rows).filter fun table => table.1 = t).flatMap Prod.snd =
      (rows.filter fun row => row.1 = t).map Prod.snd := by
  have hnodup : (rowsByTable rows).keys.Nodup := Dict.nodup_keys_collect Dict.nodup_keys_nil rows
  rw [filter_key hnodup]
  unfold rowsByTable
  rw [Dict.get?_collect, Dict.get?_nil, foldl_appends]
  rfl

theorem insertTable_eq {table : String × List (Row ν)} {insert : Insert ν} (h : insertTable s table = some insert) :
    insert.1 = table.1 ∧ insert.2.map cells = table.2.map (sent s table.1) := by
  unfold insertTable at h
  split at h
  · obtain ⟨spec, hspec, rfl⟩ := Option.map_eq_some_iff.mp h
    refine ⟨rfl, ?_⟩
    rw [multiRow_cells, List.map_map]
    apply List.map_congr_left
    intro row _
    funext col
    show (getInsertValues s spec row).get? col = (s.specs.get? table.1).bind _
    rw [hspec]
    rfl
  · cases h

theorem insertTables_eq {tables : List (String × List (Row ν))} {inserts : List (Insert ν)}
    (h : tables.mapM (insertTable s) = some inserts) :
    inserts.map Prod.fst = tables.map Prod.fst ∧ ∀ t, (insertedRows t inserts).map cells =
      ((tables.filter fun table => table.1 = t).flatMap Prod.snd).map (sent s t) := by
  induction tables generalizing inserts with
  | nil =>
      rw [List.mapM_nil] at h
      obtain rfl := Option.some.inj h
      exact ⟨rfl, fun t => rfl⟩
  | cons table tables ih =>
      rw [List.mapM_cons] at h
      obtain ⟨insert, hinsert, h⟩ := Option.bind_eq_some_iff.mp h
      obtain ⟨inserts', hrest, h⟩ := Option.bind_eq_some_iff.mp h
      obtain rfl := Option.some.inj h
      obtain ⟨hname, hcells⟩ := insertTable_eq hinsert
      obtain ⟨hnames, hrows⟩ := ih hrest
      refine ⟨by rw [List.map_cons, List.map_cons, hname, hnames], fun t => ?_⟩
      unfold insertedRows at hrows ⊢
      by_cases ht : table.1 = t
      · subst ht
        rw [List.filter_cons_of_pos (by simpa using hname), List.filter_cons_of_pos (by simp), List.flatMap_cons, List.flatMap_cons,
          List.map_append, List.map_append, hcells, hrows]
      · rw [List.filter_cons_of_neg (by simpa [hname] using ht), List.filter_cons_of_neg (by simpa using ht), hrows]

/-- **What a transaction inserts into a table** are the rows for it, in their order. -/
theorem executeInsert_cells {rows : InsertJobs ν} {inserts : List (Insert ν)} (h : executeInsert s rows = some inserts) (t : String) :
    (insertedRows t inserts).map cells = (rows.filter fun row => row.1 = t).map fun row => sent s t row.2 := by
  unfold executeInsert at h
  rw [(insertTables_eq h).2 t, List.filter_append, List.filter_filter, List.filter_filter]
  have hgroup : ((rowsByTable rows).filter fun table => decide (table.1 = t) && isPacketTable table.1) ++
      ((rowsByTable rows).filter fun table => decide (table.1 = t) && !isPacketTable table.1) =
      (rowsByTable rows).filter fun table => table.1 = t := by
    cases hpacket : isPacketTable t with
    | true =>
        rw [show ((rowsByTable rows).filter fun table => decide (table.1 = t) && !isPacketTable table.1) = [] by
          apply List.filter_eq_nil_iff.mpr
          rintro table -
          by_cases ht : table.1 = t <;> simp [ht, hpacket], List.append_nil]
        apply List.filter_congr
        intro table _
        by_cases ht : table.1 = t <;> simp [ht, hpacket]
    | false =>
        rw [show ((rowsByTable rows).filter fun table => decide (table.1 = t) && isPacketTable table.1) = [] by
          apply List.filter_eq_nil_iff.mpr
          rintro table -
          by_cases ht : table.1 = t <;> simp [ht, hpacket], List.nil_append]
        apply List.filter_congr
        intro table _
        by_cases ht : table.1 = t <;> simp [ht, hpacket]
  rw [hgroup, rowsByTable_eq, List.map_map]
  rfl

/-- No table of a packet comes after another table, and none comes twice. -/
def PacketsFirst (inserts : List (Insert ν)) : Prop :=
  (inserts.map Prod.fst).Nodup ∧
    (inserts.map Prod.fst).Pairwise fun a b => isPacketTable b = true → isPacketTable a = true

theorem executeInsert_tables {rows : InsertJobs ν} {inserts : List (Insert ν)} (h : executeInsert s rows = some inserts) :
    PacketsFirst inserts := by
  unfold executeInsert at h
  unfold PacketsFirst
  rw [(insertTables_eq h).1]
  have hnodup : (rowsByTable rows).keys.Nodup := Dict.nodup_keys_collect Dict.nodup_keys_nil rows
  constructor
  · have hperm : ((rowsByTable rows).filter (fun table => isPacketTable table.1) ++
        (rowsByTable rows).filter fun table => !isPacketTable table.1).Perm (rowsByTable rows) :=
      List.filter_append_perm _ _
    exact (hperm.map Prod.fst).nodup_iff.mpr hnodup
  · rw [List.map_append]
    apply List.pairwise_append.mpr
    have hpacket : ∀ a ∈ ((rowsByTable rows).filter fun table => isPacketTable table.1).map Prod.fst, isPacketTable a = true := by
      intro a ha
      obtain ⟨table, hmem, rfl⟩ := List.mem_map.mp ha
      simpa using (List.mem_filter.mp hmem).2
    have hother : ∀ b ∈ ((rowsByTable rows).filter fun table => !isPacketTable table.1).map Prod.fst, isPacketTable b = false := by
      intro b hb
      obtain ⟨table, hmem, rfl⟩ := List.mem_map.mp hb
      simpa using (List.mem_filter.mp hmem).2
    refine ⟨?_, ?_, ?_⟩
    · exact List.pairwise_of_forall_mem_list fun a ha b _ _ => hpacket a ha
    · exact List.pairwise_of_forall_mem_list fun a _ b hb htrue => absurd htrue (by simp [hother b hb])
    · exact fun a ha b _ _ => hpacket a ha

/-! ## The invariant -/

/-- The rows of a table in the database. -/
def storedRows (t : String) (database : List (List (Insert ν))) : List (Dict String (Option ν)) :=
  database.flatMap (insertedRows t)

/-- The rows that committed messages sent to a table. -/
def committedRows (t : String) (done : List (InsertJobs ν × Bool)) : List (String × Row ν) :=
  ((done.filter Prod.snd).flatMap Prod.fst).filter fun row => row.1 = t

/-- Where the messages are, and what of them is stored. -/
structure DbWorker.Ok (s : Schema ν τ) (w : DbWorker ν) : Prop where
  accepted : w.accepted = w.done.map Prod.fst ++ w.held ++ w.queue.filterMap Item.message?
  jobs : w.held.flatten = w.jobs
  acks : w.running = true → w.pendingAcks = w.held.length
  counted : w.unfinished = w.queue.length + w.pendingAcks
  rows : ∀ t, (storedRows t w.database).map cells = (committedRows t w.done).map fun row => sent s t row.2
  first : ∀ inserts ∈ w.database, PacketsFirst inserts

theorem DbWorker.Ok.start : ({} : DbWorker ν).Ok s where
  accepted := rfl
  jobs := rfl
  acks := fun _ => rfl
  counted := rfl
  rows := fun t => rfl
  first := by simp

theorem committedRows_append (t : String) (done done' : List (InsertJobs ν × Bool)) :
    committedRows t (done ++ done') = committedRows t done ++ committedRows t done' := by
  unfold committedRows
  rw [List.filter_append, List.flatMap_append, List.filter_append]

/-- What a transaction that is done makes of the held messages. -/
theorem committedRows_held (t : String) (held : List (InsertJobs ν)) (committed : Bool) :
    committedRows t (held.map fun rows => (rows, committed)) =
      if committed then held.flatten.filter fun row => row.1 = t else [] := by
  unfold committedRows
  cases committed with
  | true =>
      have hall : (held.map fun rows => (rows, true)).filter Prod.snd = held.map fun rows => (rows, true) :=
        List.filter_eq_self.mpr (by simp)
      rw [if_pos rfl, hall, List.flatMap_map]
      show (held.flatMap id).filter _ = _
      rw [List.flatMap_id]
  | false =>
      have hnone : (held.map fun rows => (rows, false)).filter Prod.snd = [] := List.filter_eq_nil_iff.mpr (by simp)
      rw [hnone]
      rfl

/-- **A transaction** stores all of the held messages or none. -/
theorem flushBatch_cases (s : Schema ν τ) (w : DbWorker ν) (accepts : Bool) :
    (w.jobs = [] ∧ w.flushBatch s accepts = w) ∨
      (∃ inserts, executeInsert s w.jobs = some inserts ∧ w.flushBatch s accepts =
        { w with
          jobs := []
          database := w.database ++ [inserts]
          held := []
          done := w.done ++ w.held.map fun rows => (rows, true) }) ∨
      w.flushBatch s accepts = { w with jobs := [], held := [], done := w.done ++ w.held.map fun rows => (rows, false) } := by
  unfold DbWorker.flushBatch
  split
  · rename_i hjobs
    exact Or.inl ⟨hjobs, rfl⟩
  · split
    · rename_i inserts hinserts
      split
      · exact Or.inr (Or.inl ⟨inserts, hinserts, rfl⟩)
      · exact Or.inr (Or.inr rfl)
    · exact Or.inr (Or.inr rfl)

/-- What holds in the middle of an event too. -/
structure DbWorker.Stored (s : Schema ν τ) (w : DbWorker ν) : Prop where
  accepted : w.accepted = w.done.map Prod.fst ++ w.held ++ w.queue.filterMap Item.message?
  jobs : w.held.flatten = w.jobs
  rows : ∀ t, (storedRows t w.database).map cells = (committedRows t w.done).map fun row => sent s t row.2
  first : ∀ inserts ∈ w.database, PacketsFirst inserts

theorem DbWorker.Stored.flush (h : w.Stored s) (accepts : Bool) :
    (w.flushBatch s accepts).Stored s ∧ (w.jobs ≠ [] → (w.flushBatch s accepts).held = []) ∧
      (w.flushBatch s accepts).queue = w.queue ∧ (w.flushBatch s accepts).unfinished = w.unfinished ∧
      (w.flushBatch s accepts).pendingAcks = w.pendingAcks ∧ (w.flushBatch s accepts).running = w.running := by
  have hmoved : ∀ committed : Bool, w.accepted =
      (w.done ++ w.held.map fun rows => (rows, committed)).map Prod.fst ++ [] ++ w.queue.filterMap Item.message? := by
    intro committed
    rw [List.map_append, List.map_map, List.append_nil]
    show w.accepted = w.done.map Prod.fst ++ w.held.map id ++ _
    rw [List.map_id]
    exact h.accepted
  obtain ⟨hjobs, heq⟩ | ⟨inserts, hinserts, heq⟩ | heq := flushBatch_cases s w accepts
  · rw [heq]
    exact ⟨h, fun hne => absurd hjobs hne, rfl, rfl, rfl, rfl⟩
  · rw [heq]
    refine ⟨⟨hmoved true, rfl, fun t => ?_, ?_⟩, fun _ => rfl, rfl, rfl, rfl, rfl⟩
    · show (storedRows t (w.database ++ [inserts])).map cells = (committedRows t (w.done ++ _)).map _
      unfold storedRows
      rw [List.flatMap_append, List.flatMap_singleton, List.map_append, committedRows_append, List.map_append,
        committedRows_held, if_pos rfl, h.jobs, executeInsert_cells hinserts t]
      congr 1
      exact h.rows t
    · intro inserts' hmem
      rcases List.mem_append.mp hmem with hold | hnew
      · exact h.first inserts' hold
      · rw [List.mem_singleton.mp hnew]
        exact executeInsert_tables hinserts
  · rw [heq]
    refine ⟨⟨hmoved false, rfl, fun t => ?_, h.first⟩, fun _ => rfl, rfl, rfl, rfl, rfl⟩
    show (storedRows t w.database).map cells = (committedRows t (w.done ++ _)).map _
    rw [committedRows_append, committedRows_held, if_neg (by simp), List.append_nil]
    exact h.rows t

theorem DbWorker.Ok.stored (h : w.Ok s) : w.Stored s := ⟨h.accepted, h.jobs, h.rows, h.first⟩

theorem DbWorker.Ok.putNowait (h : w.Ok s) (item : Item ν) : (w.putNowait maxsize item).Ok s := by
  unfold DbWorker.putNowait
  split
  · refine ⟨?_, h.jobs, h.acks, ?_, h.rows, h.first⟩
    · show w.accepted ++ item.message?.toList = _ ++ (w.queue ++ [item]).filterMap Item.message?
      rw [List.filterMap_append, ← List.append_assoc, h.accepted]
      congr 1
    · show w.unfinished + 1 = (w.queue ++ [item]).length + w.pendingAcks
      rw [h.counted, List.length_append, List.length_singleton]
      omega
  · exact h

/-- The worker after a transaction and its acknowledgements. -/
theorem DbWorker.Stored.flushed (h : w.Stored s) (hcounted : w.unfinished = w.queue.length + w.pendingAcks) (hjobs : w.jobs ≠ [])
    (accepts : Bool) : (w.flushBatch s accepts).ack.Ok s := by
  obtain ⟨hstored, hheld, hqueue, hunfinished, hacks, -⟩ := h.flush accepts
  refine ⟨hstored.accepted, hstored.jobs, fun _ => ?_, ?_, hstored.rows, hstored.first⟩
  · show 0 = (w.flushBatch s accepts).held.length
    rw [hheld hjobs]
    rfl
  · show (w.flushBatch s accepts).unfinished - (w.flushBatch s accepts).pendingAcks = (w.flushBatch s accepts).queue.length + 0
    rw [hunfinished, hacks, hqueue, hcounted]
    omega

theorem DbWorker.Ok.get (h : w.Ok s) (accepts : Bool) : (w.get s accepts).Ok s := by
  unfold DbWorker.get
  split
  · rename_i queue hrunning hqueue
    have hstored : ({ w with queue := queue } : DbWorker ν).Stored s := by
      refine ⟨?_, h.jobs, h.rows, h.first⟩
      show w.accepted = w.done.map Prod.fst ++ w.held ++ queue.filterMap Item.message?
      rw [h.accepted, hqueue]
      rfl
    obtain ⟨hflush, -, hq, hu, hp, -⟩ := hstored.flush accepts
    refine ⟨hflush.accepted, hflush.jobs, fun hstopped => absurd hstopped (by simp), ?_, hflush.rows, hflush.first⟩
    show (({ w with queue := queue } : DbWorker ν).flushBatch s accepts).unfinished -
      (({ w with queue := queue } : DbWorker ν).flushBatch s accepts).pendingAcks - 1 = _ + 0
    have hcounted := h.counted
    rw [hqueue, List.length_cons] at hcounted
    rw [hu, hp]
    show w.unfinished - w.pendingAcks - 1 = (({ w with queue := queue } : DbWorker ν).flushBatch s accepts).queue.length + 0
    rw [hq, hcounted]
    show queue.length + 1 + w.pendingAcks - w.pendingAcks - 1 = queue.length + 0
    omega
  · rename_i queue hrunning hqueue
    have hcounted := h.counted
    rw [hqueue, List.length_cons] at hcounted
    refine ⟨?_, h.jobs, h.acks, ?_, h.rows, h.first⟩
    · show w.accepted = w.done.map Prod.fst ++ w.held ++ queue.filterMap Item.message?
      rw [h.accepted, hqueue]
      rfl
    · show w.unfinished - 1 = queue.length + w.pendingAcks
      omega
  · rename_i rows queue hrunning hqueue
    have hcounted := h.counted
    rw [hqueue, List.length_cons] at hcounted
    have hstored : ({ w with
        queue := queue, jobs := w.jobs ++ rows, pendingAcks := w.pendingAcks + 1, held := w.held ++ [rows] } : DbWorker ν).Stored s := by
      refine ⟨?_, ?_, h.rows, h.first⟩
      · show w.accepted = w.done.map Prod.fst ++ (w.held ++ [rows]) ++ queue.filterMap Item.message?
        rw [h.accepted, hqueue]
        simp [Item.message?]
      · show (w.held ++ [rows]).flatten = w.jobs ++ rows
        rw [List.flatten_append, h.jobs]
        simp
    have hcounted' : w.unfinished = queue.length + (w.pendingAcks + 1) := by omega
    dsimp only
    split
    · rename_i hfull
      apply hstored.flushed hcounted'
      intro hnil
      have hzero : (w.jobs ++ rows).length = 0 := by
        rw [show w.jobs ++ rows = [] from hnil]
        rfl
      exact absurd hfull (by rw [hzero]; decide)
    · refine ⟨hstored.accepted, hstored.jobs, fun _ => ?_, hcounted', hstored.rows, hstored.first⟩
      show w.pendingAcks + 1 = (w.held ++ [rows]).length
      rw [h.acks hrunning, List.length_append, List.length_singleton]
  · exact h

theorem DbWorker.Ok.timeout (h : w.Ok s) (accepts : Bool) : (w.timeout s accepts).Ok s := by
  unfold DbWorker.timeout
  split
  · split
    · exact h
    · rename_i hjobs
      exact h.stored.flushed h.counted hjobs accepts
  · exact h

theorem ok_run (events : List (WorkerEvent ν)) (h : w.Ok s) : (w.run s maxsize events).Ok s := by
  induction events generalizing w with
  | nil => exact h
  | cons e events ih =>
      apply ih
      cases e with
      | put item => exact h.putNowait item
      | get accepts => exact h.get accepts
      | timeout accepts => exact h.timeout accepts

/-- **Every message that the queue accepted is stored once, whole and in order, or not at all.** At any moment of any run the accepted
    messages are those done, those held for the next transaction and those that wait, in this order; what a table holds are the rows of
    the messages in committed transactions; packets come first in each; and the queue's count is of what waits or is held. -/
theorem rows_in_order (s : Schema ν τ) (maxsize : ℕ) (events : List (WorkerEvent ν)) :
    (({} : DbWorker ν).run s maxsize events).accepted =
        (({} : DbWorker ν).run s maxsize events).done.map Prod.fst ++ (({} : DbWorker ν).run s maxsize events).held ++
          (({} : DbWorker ν).run s maxsize events).queue.filterMap Item.message? ∧
      (∀ t, (storedRows t (({} : DbWorker ν).run s maxsize events).database).map cells =
        (committedRows t (({} : DbWorker ν).run s maxsize events).done).map fun row => sent s t row.2) ∧
      (∀ inserts ∈ (({} : DbWorker ν).run s maxsize events).database, PacketsFirst inserts) ∧
      (({} : DbWorker ν).run s maxsize events).unfinished =
        (({} : DbWorker ν).run s maxsize events).queue.length + (({} : DbWorker ν).run s maxsize events).pendingAcks ∧
      ((({} : DbWorker ν).run s maxsize events).running = true →
        (({} : DbWorker ν).run s maxsize events).pendingAcks = (({} : DbWorker ν).run s maxsize events).held.length) := by
  have hend : (({} : DbWorker ν).run s maxsize events).Ok s := ok_run events DbWorker.Ok.start
  exact ⟨hend.accepted, hend.rows, hend.first, hend.counted, hend.acks⟩

/-- Two packets, of which the second finds the queue full, and the rows of the first. -/
example :
    ((({} : DbWorker ℕ).run
      ({ models := ["packet"], specs := [("packet", [("time", ())])], isMissing := fun _ => false, normalize := fun v _ => v } :
        Schema ℕ Unit) 1
      [.put (.job [("packet", [("time", 5)])]), .put (.job [("packet", [("time", 6)])]), .get true, .timeout true]).database) =
      [[("packet", [[("time", some 5)]])]] :=
  rfl

end Rows

end Lhre.Ingest
