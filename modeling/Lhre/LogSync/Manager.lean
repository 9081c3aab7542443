import Mathlib.Tactic
import Lhre.Theory.Dict

/-!
# `LogSync.Manager` — the job manager of the log-sync worker

One task works through a queue of jobs, one `rsync` at a time; the handlers of the HTTP layer change the jobs it works
on. Both run on one event loop, so the task is cut at its awaits: between two of them it runs alone, and at an await any
handler may come in. `stop` cancels the task at an await, and the next `start` reloads what was persisted.

## Contents
- **Jobs.** `JobState`, `Job`, `Control`, `Job.updateLocalProgress`, `Job.allDone`.
- **The task between two awaits.** `At`, `Chunk`, `loopTop`, `workerLoop`, `rsyncExit`, `continueAt`.
- **The service.** `Service`, its handlers, `Service.start`.
- **The system.** `System`, `Event`, `System.step`.
-/

namespace Lhre.LogSync

/-! ## Jobs -/

inductive JobState
  | queued
  | running
  | pausedMotion
  | paused
  | completed
  | failed
  | canceled
deriving Repr, DecidableEq

def JobState.isTerminal : JobState → Bool
  | .completed | .failed | .canceled => true
  | _ => false

/-- What `start` treats as an interrupted run. -/
def JobState.interrupted : JobState → Bool
  | .queued | .running | .pausedMotion => true
  | _ => false

structure FileProgress where
  name : String
  size : ℕ
  transferred : ℕ := 0
  done : Bool := false
deriving Repr, DecidableEq

/-- The text `{now}-{seq}`. -/
abbrev JobId := ℕ × ℕ

/-- A job, under its id in `_jobs` and in the store. -/
structure Job where
  state : JobState
  createdMs : ℕ
  files : List FileProgress
  totalBytes : ℕ
  transferredBytes : ℕ := 0
  attempts : ℕ := 0
  error : Option String := none
deriving Repr, DecidableEq

/-- `_Control`: the flags of a job, in memory only. -/
structure Control where
  cancel : Bool := false
  resume : Bool := false
  paused : Bool := false
deriving Repr, DecidableEq

def Job.setState (job : Job) (state : JobState) : Job := { job with state := state }

/-- `_update_local_progress`, with the sizes of the files on disk (0 for a missing one). -/
def Job.updateLocalProgress (job : Job) (disk : String → ℕ) : Job :=
  let files := job.files.map fun f =>
    { f with transferred := min (disk f.name) f.size, done := decide (f.size ≤ min (disk f.name) f.size) }
  { job with files := files, transferredBytes := (files.map FileProgress.transferred).sum }

/-- `_all_done`. -/
def Job.allDone (job : Job) : Bool := !job.files.isEmpty && job.files.all FileProgress.done

@[simp] theorem Job.setState_state (job : Job) (state : JobState) : (job.setState state).state = state := rfl

@[simp] theorem Job.updateLocalProgress_state (job : Job) (disk : String → ℕ) :
    (job.updateLocalProgress disk).state = job.state := rfl

/-! ## The task between two awaits -/

structure Config where
  rsyncMaxRetries : ℕ := 5
  motionResumeStableS : ℚ := 10

/-- What the task finds when it goes on: the files on disk, the free space or the error of asking for it, and whether
    the time it sleeps for is over. -/
structure Env where
  disk : String → ℕ
  free : Except String ℕ
  expired : Bool

/-- The local variables of `_run_job`. -/
structure Round where
  lastProgressBytes : ℕ
  stalledRounds : ℕ := 0
  consecutiveFail : ℕ := 0
deriving Repr, DecidableEq

/-- Where `_run_job` is suspended. -/
inductive At
  /-- The motion reading of its gate. -/
  | motionGate
  /-- The reading and the sleep of `_wait_motion_clear`, with its `stable_since`. -/
  | waitRead (stableSince : Option ℚ)
  | waitSleep (stableSince : Option ℚ)
  /-- `run.start()`. -/
  | starting
  /-- `_supervise`: waiting for the process, reading the motion, waiting for a process it has terminated. -/
  | supervising
  | superviseRead
  | terminating
  /-- `_interruptible_sleep`. -/
  | sleeping
deriving Repr, DecidableEq

/-- What the task does between two awaits: the job it leaves, the copy of it that was persisted last, whether it came by
    the gate of the manual pause, and where it waits next. Without a `next` it is back at the queue. -/
structure Chunk where
  job : Job
  saved : Option Job
  gate : Bool
  next : Option (Round × At)
deriving Repr, DecidableEq

/-- A chunk that has persisted the job before. -/
def Chunk.after (c : Chunk) (job : Job) : Chunk := { c with saved := c.saved.or (some job) }

/-- `_set_state`, then `return`. -/
def ends (job : Job) (state : JobState) (gate : Bool) : Chunk :=
  { job := job.setState state, saved := some (job.setState state), gate := gate, next := none }

/-- An exception that `_worker_loop` catches. -/
def workerError (job : Job) (e : String) (gate : Bool) : Chunk :=
  ends { job with error := some s!"worker error: {e}" } .failed gate

/-- The loop of `_run_job`, from its top to the reading of the motion gate. -/
def loopTop (job : Job) (ctrl : Control) (env : Env) (round : Round) : Chunk :=
  if ctrl.cancel then ends job .canceled false
  else
    let job := job.updateLocalProgress env.disk
    if job.allDone then ends job .completed false
    else if ctrl.paused then ends job .paused true
    else
      match env.free with
      | .error e => workerError job e true
      | .ok free =>
          let needed := job.totalBytes - job.transferredBytes
          if free < needed then
            ends
              { job with
                error := some s!"insufficient disk space: need ~{needed} bytes, {free} free in staging" }
              .failed true
          else { job := job, saved := none, gate := true, next := some (round, .motionGate) }

/-- `_run_job` up to its first await; `listfile` is the error of making its directories or of writing the list. -/
def runJob (job : Job) (ctrl : Control) (env : Env) (listfile : Option String) : Chunk :=
  match listfile with
  | some e => workerError job e false
  | none =>
      let job := job.updateLocalProgress env.disk
      if job.allDone then ends job .completed false
      else loopTop job ctrl env { lastProgressBytes := job.transferredBytes }

/-- `_worker_loop`, for the job it took from the queue. -/
def workerLoop (job : Job) (ctrl : Control) (env : Env) (listfile : Option String) : Chunk :=
  if job.state.isTerminal then { job := job, saved := none, gate := false, next := none }
  else if ctrl.cancel then ends job .canceled false
  else runJob job ctrl env listfile

/-- The loop of `_wait_motion_clear`, from its top. -/
def waitMotionClear (job : Job) (ctrl : Control) (env : Env) (round : Round) (stableSince : Option ℚ) : Chunk :=
  if ctrl.cancel || ctrl.paused then loopTop job ctrl env round
  else { job := job, saved := none, gate := false, next := some (round, .waitRead stableSince) }

/-- The motion gate. -/
def motionRead (job : Job) (ctrl : Control) (env : Env) (round : Round) (moving : Bool) : Chunk :=
  if moving then
    (waitMotionClear (job.setState .pausedMotion) ctrl env round none).after (job.setState .pausedMotion)
  else
    let job := { job with attempts := job.attempts + 1, error := none }.setState .running
    { job := job, saved := some job, gate := false, next := some (round, .starting) }

/-- The reading of `_wait_motion_clear`. -/
def waitReading (cfg : Config) (job : Job) (ctrl : Control) (env : Env) (round : Round) (stableSince : Option ℚ)
    (moving : Bool) (now : ℚ) : Chunk :=
  let sleep (since : Option ℚ) : Chunk :=
    { job := job, saved := some job, gate := false, next := some (round, .waitSleep since) }
  if moving then sleep none
  else
    match stableSince with
    | none => sleep (some now)
    | some since =>
        if cfg.motionResumeStableS ≤ now - since then (loopTop job ctrl env round).after job
        else sleep (some since)

/-- The loop of `_interruptible_sleep`, from its top. -/
def interruptibleSleep (job : Job) (ctrl : Control) (env : Env) (round : Round) : Chunk :=
  if env.expired || ctrl.cancel || ctrl.paused then loopTop job ctrl env round
  else { job := job, saved := none, gate := false, next := some (round, .sleeping) }

def rsyncOkCodes : List ℤ := [0, 24]
def rsyncTransientCodes : List ℤ := [5, 10, 12, 30, 35, 255]

/-- The exit of an `rsync` that was not terminated. -/
structure RsyncExit where
  code : ℤ
  stderrTail : String

/-- The rounds without progress after an exit that should have brought some, and the failures in a row. -/
def Round.stalls (round : Round) (job : Job) : ℕ :=
  if job.transferredBytes ≤ round.lastProgressBytes then round.stalledRounds + 1 else 0

def Round.fails (round : Round) (job : Job) : ℕ :=
  if round.lastProgressBytes < job.transferredBytes then 0 else round.consecutiveFail + 1

/-- `rsync` says it is done, yet nothing has come for the second time. -/
def stallsOut (round : Round) (job : Job) : Bool :=
  decide (job.transferredBytes ≤ round.lastProgressBytes) && decide (2 ≤ round.stalls job)

/-- A real fault, and as many of them in a row without progress as are allowed. -/
def retriesOut (cfg : Config) (round : Round) (job : Job) : Bool :=
  !decide (round.lastProgressBytes < job.transferredBytes) && decide (cfg.rsyncMaxRetries ≤ round.fails job)

/-- `_run_job` after `_supervise` has returned an exit code. -/
def rsyncExit (cfg : Config) (job : Job) (ctrl : Control) (env : Env) (round : Round) (exit : RsyncExit) : Chunk :=
  let job := job.updateLocalProgress env.disk
  if exit.code ∈ rsyncOkCodes then
    if job.allDone then ends job .completed false
    else if stallsOut round job then
      ends { job with error := some "rsync completed but files are still incomplete" } .failed false
    else
      loopTop job ctrl env
        { round with lastProgressBytes := job.transferredBytes, stalledRounds := round.stalls job }
  else
    let code := exit.code
    let tail := exit.stderrTail
    let failed := { round with lastProgressBytes := job.transferredBytes, consecutiveFail := round.fails job }
    if exit.code ∈ rsyncTransientCodes then
      let job := { job with error := some s!"car unreachable (rsync exit {code}); waiting to reconnect…" }
      (interruptibleSleep (job.setState .running) ctrl env failed).after (job.setState .running)
    else if retriesOut cfg round job then
      ends { job with error := some s!"rsync failed (exit {code}): {tail}" } .failed false
    else (interruptibleSleep job ctrl env failed).after job

/-- What can happen next: a request, the task taking a job from the queue, an await of the task coming back, or the
    service going down or up. -/
inductive Event
  | create (now : ℕ) (files : List (String × ℕ))
  | pause (id : JobId)
  | resume (id : JobId)
  | cancel (id : JobId)
  | take (env : Env) (listfile : Option String)
  | motion (moving : Bool) (now : ℚ) (env : Env)
  | wake (env : Env)
  | started (raised : Option String)
  | poll (env : Env)
  | exited (result : Except String RsyncExit) (env : Env)
  | gone (raised : Option String) (env : Env)
  | stop
  | start

/-- The task goes on from an await, if the event is what it waits for. -/
def continueAt (cfg : Config) (pos : At) (round : Round) (job : Job) (ctrl : Control) : Event → Option Chunk
  | .motion moving now env =>
      match pos with
      | .motionGate => some (motionRead job ctrl env round moving)
      | .waitRead stableSince => some (waitReading cfg job ctrl env round stableSince moving now)
      | .superviseRead =>
          some
            { job := job, saved := none, gate := false,
              next := some (round, if moving then .terminating else .supervising) }
      | _ => none
  | .wake env =>
      match pos with
      | .waitSleep stableSince => some (waitMotionClear job ctrl env round stableSince)
      | .sleeping => some (interruptibleSleep job ctrl env round)
      | _ => none
  | .started raised =>
      match pos, raised with
      | .starting, none => some { job := job, saved := none, gate := false, next := some (round, .supervising) }
      | .starting, some e => some (workerError job e false)
      | _, _ => none
  | .poll env =>
      match pos with
      | .supervising =>
          let job := job.updateLocalProgress env.disk
          some
            { job := job, saved := some job, gate := false,
              next := some (round, if ctrl.cancel || ctrl.paused then .terminating else .superviseRead) }
      | _ => none
  | .exited result env =>
      match pos, result with
      | .supervising, .ok exit => some (rsyncExit cfg job ctrl env round exit)
      | .supervising, .error e => some (workerError job e false)
      | _, _ => none
  | .gone raised env =>
      match pos, raised with
      | .terminating, none => some (loopTop (job.updateLocalProgress env.disk) ctrl env round)
      | .terminating, some e => some (workerError job e false)
      | _, _ => none
  | _ => none

/-! ## The service -/

/-- `JobManager`. `_jobs` and `_controls` are set together, so one dictionary holds both. The task is at the queue, or
    runs a job. -/
structure Service where
  store : Dict JobId Job
  jobs : Dict JobId (Job × Control) := []
  queue : List JobId := []
  seq : ℕ := 0
  worker : Option (JobId × Round × At) := none

/-- A job and its flags in memory, and the copy that is persisted, if any. -/
def Service.record (svc : Service) (id : JobId) (job : Job) (ctrl : Control) (saved : Option Job) : Service :=
  { svc with
    jobs := Dict.set id (job, ctrl) svc.jobs
    store := match saved with
      | some copy => Dict.set id copy svc.store
      | none => svc.store }

/-- `create_job`. The task holds on to the job it runs, not to its id: a new job under that id would leave it with the
    old one, and is left out. -/
def Service.create (svc : Service) (now : ℕ) (files : List (String × ℕ)) : Option Service :=
  let id := (now, svc.seq + 1)
  let job : Job :=
    { state := .queued, createdMs := now, files := files.map fun f => { name := f.1, size := f.2 },
      totalBytes := (files.map Prod.snd).sum }
  if svc.worker.map Prod.fst = some id then none
  else
    some { svc.record id job {} (some job) with queue := svc.queue ++ [id], seq := svc.seq + 1 }

/-- `pause`, and what it returns. -/
def Service.pause (svc : Service) (id : JobId) : Bool × Service :=
  match Dict.get? svc.jobs id with
  | none => (false, svc)
  | some (job, ctrl) =>
      if job.state.isTerminal then (false, svc)
      else (true, svc.record id job { ctrl with paused := true, resume := false } none)

/-- `resume`, and what it returns. -/
def Service.resume (svc : Service) (id : JobId) : Bool × Service :=
  match Dict.get? svc.jobs id with
  | none => (false, svc)
  | some (job, ctrl) =>
      if job.state ∈ [JobState.paused, .pausedMotion, .queued, .failed] then
        let ctrl := { ctrl with paused := false, resume := true }
        if job.state ∈ [JobState.paused, .failed] then
          let job := { job with error := none }.setState .queued
          (true, { svc.record id job ctrl (some job) with queue := svc.queue ++ [id] })
        else (true, svc.record id job ctrl none)
      else (false, svc)

/-- `cancel`, and what it returns. -/
def Service.cancel (svc : Service) (id : JobId) : Bool × Service :=
  match Dict.get? svc.jobs id with
  | none => (false, svc)
  | some (job, ctrl) =>
      if job.state.isTerminal then (false, svc)
      else
        let ctrl := { ctrl with cancel := true, resume := true }
        if job.state ∈ [JobState.paused, .queued] then
          (true, svc.record id (job.setState .canceled) ctrl (some (job.setState .canceled)))
        else (true, svc.record id job ctrl none)

/-- What the task does on an event: the job it does it to, its flags, and the queue it leaves. -/
structure Turn where
  id : JobId
  ctrl : Control
  queue : List JobId
  chunk : Chunk

def Service.turn (cfg : Config) (svc : Service) (e : Event) : Option Turn :=
  match svc.worker with
  | some (id, round, pos) =>
      (Dict.get? svc.jobs id).bind fun entry =>
        (continueAt cfg pos round entry.1 entry.2 e).map fun chunk =>
          { id := id, ctrl := entry.2, queue := svc.queue, chunk := chunk }
  | none =>
      match e, svc.queue with
      | .take env listfile, id :: queue =>
          (Dict.get? svc.jobs id).map fun entry =>
            { id := id, ctrl := entry.2, queue := queue, chunk := workerLoop entry.1 entry.2 env listfile }
      | _, _ => none

def Service.apply (svc : Service) (t : Turn) : Service :=
  { svc.record t.id t.chunk.job t.ctrl t.chunk.saved with
    queue := t.queue
    worker := t.chunk.next.map (t.id, ·) }

/-- `Store.list`: the newest first. -/
def listJobs (store : Dict JobId Job) : List (JobId × Job) :=
  store.insertionSort fun a b => b.2.createdMs ≤ a.2.createdMs

/-- An interrupted job is queued again. -/
def Job.reload (job : Job) : Job := if job.state.interrupted then job.setState .queued else job

/-- `start`, in a new process. -/
def Service.start (store : Dict JobId Job) : Service :=
  { store := store.map fun entry => (entry.1, entry.2.reload)
    jobs := (listJobs store).map fun entry =>
      (entry.1, entry.2.reload, { paused := decide (entry.2.state = .paused) })
    queue := ((listJobs store).filter fun entry => entry.2.state.interrupted).map Prod.fst }

/-! ## The system -/

/-- The service, or what it has left in the store. -/
inductive System
  | down (store : Dict JobId Job)
  | up (svc : Service)

/-- Before the service was first started. -/
def System.init : System := .down []

def System.step (cfg : Config) : System → Event → Option System
  | .down store, .start => some (.up (Service.start store))
  | .down _, _ => none
  | .up _, .start => none
  | .up svc, .stop => some (.down svc.store)
  | .up svc, .create now files => (svc.create now files).map .up
  | .up svc, .pause id => some (.up (svc.pause id).2)
  | .up svc, .resume id => some (.up (svc.resume id).2)
  | .up svc, .cancel id => some (.up (svc.cancel id).2)
  | .up svc, e => (svc.turn cfg e).map fun t => .up (svc.apply t)

/-- The state of a job, in memory or in the store. -/
def Service.stateOf (svc : Service) (id : JobId) : Option JobState :=
  (Dict.get? svc.jobs id).map fun entry => entry.1.state

def storedState (store : Dict JobId Job) (id : JobId) : Option JobState := (Dict.get? store id).map Job.state

def System.stateOf : System → JobId → Option JobState
  | .down store, id => storedState store id
  | .up svc, id => svc.stateOf id

/-- The job the task runs. -/
def Service.holder (svc : Service) : Option JobId := svc.worker.map Prod.fst

end Lhre.LogSync
