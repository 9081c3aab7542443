import Mathlib.Tactic
import Lhre.LogSync.Correctness.QueueIntegrity

/-!
# `LogSync.Correctness.RetryCount` — when an error of `rsync` is one too many

The task counts the errors of `rsync` in a row that brought nothing, and gives the job up at a real fault once there are
`rsync_max_retries` of them. The car going away is no real fault and never gives the job up, but it is an error that
brought nothing, and counts. So the first real fault after an outage can be the last one.

## Contents
- **The history.** `ExitSeen`, `errorCount`, `Watched`, `Watched.step`.
- **Chunks.** `Chunk.Quiet`, `continueAt_quiet`, `rsyncExit_next`, `rsyncExit_gaveUp`.
- **Steps.** `Watched.Counted`, `counted_step`.
- **Runs.** `retry_count`.
- **Failure.** `not_retry_count`.
-/

namespace Lhre.LogSync

open Machine

/-! ## The history -/

/-- An exit of `rsync` that the task was told of, and the bytes it found on the disk after it. -/
structure ExitSeen where
  code : ℤ
  bytes : ℕ
deriving Repr, DecidableEq

/-- The bytes of a job that are on the disk. -/
def Service.bytesOf (svc : Service) (id : JobId) (disk : String → ℕ) : ℕ :=
  ((Dict.get? svc.jobs id).map fun entry => (entry.1.updateLocalProgress disk).transferredBytes).getD 0

/-- The system, and what was seen since the task took the job it runs. -/
structure Watched where
  sys : System
  start : ℕ := 0
  exits : List ExitSeen := []

def Watched.init : Watched := { sys := .init }

/-- What an event adds to what was seen. -/
def Watched.see (w : Watched) (sys : System) : Event → Watched
  | .take env _ =>
      match w.sys with
      | .up svc => { sys := sys, start := (svc.queue.head?.map fun id => svc.bytesOf id env.disk).getD 0 }
      | .down _ => { w with sys := sys }
  | .exited (.ok exit) env =>
      match w.sys with
      | .up svc =>
          let bytes := (svc.holder.map fun id => svc.bytesOf id env.disk).getD 0
          { w with sys := sys, exits := ⟨exit.code, bytes⟩ :: w.exits }
      | .down _ => { w with sys := sys }
  | _ => { w with sys := sys }

def Watched.step (cfg : Config) (w : Watched) (e : Event) : Option Watched :=
  (w.sys.step cfg e).map fun sys => w.see sys e

/-- A job that was failed for the error of an `rsync`. -/
def Job.GaveUp (job : Job) : Prop :=
  job.state = .failed ∧ ∃ (code : ℤ) (tail : String), job.error = some s!"rsync failed (exit {code}): {tail}"

def Watched.GaveUp (w : Watched) (id : JobId) : Prop :=
  ∃ svc job ctrl, w.sys = .up svc ∧ Dict.get? svc.jobs id = some (job, ctrl) ∧ job.GaveUp

/-! ## Chunks -/

variable {cfg : Config} {job job' : Job} {ctrl : Control} {env : Env} {round : Round} {pos : At} {c : Chunk}

/-- A chunk that counts nothing: the job is not given up for an `rsync`, and the task goes on with the round it has. -/
structure Chunk.Quiet (round : Round) (c : Chunk) : Prop where
  next : ∀ r pos, c.next = some (r, pos) → r = round ∧ c.job.state ≠ .failed
  kept : ¬ c.job.GaveUp

theorem Chunk.Quiet.after (h : Chunk.Quiet round c) : Chunk.Quiet round (c.after job) where
  next := h.next
  kept := h.kept

variable {svc svc' : Service} {id : JobId} {e : Event} {w w' : Watched}

/-- A job that is not failed. -/
def Service.Going (svc : Service) (id : JobId) : Prop :=
  ∃ job ctrl, Dict.get? svc.jobs id = some (job, ctrl) ∧ job.state ≠ .failed

/-- The job under an id is the one that is going. -/
theorem Service.Going.state {k : JobId} (h : svc.Going id) (hget : Dict.get? svc.jobs k = some (job, ctrl))
    (hk : k = id) : job.state ≠ .failed := by
  obtain ⟨old, flags, hold, hstate⟩ := h
  subst hk
  obtain ⟨rfl, -⟩ := Prod.mk.inj (Option.some.inj (hold.symm.trans hget))
  exact hstate

/-- What a request leaves: the task where it was, and the job it runs going. -/
structure Service.Requested (svc : Service) (id : JobId) (svc' : Service) : Prop where
  worker : svc'.worker = svc.worker
  going : svc.Going id → svc'.Going id

/-- What a step makes of a service whose task runs a job: the service goes down, a request comes in, or the task goes
    on. -/
inductive Held (cfg : Config) (w : Watched) (svc : Service) (id : JobId) (round : Round) (pos : At) (job : Job)
    (ctrl : Control) (e : Event) (w' : Watched) : Prop
  | stop {store : Dict JobId Job} (he : ∀ exit env, e ≠ .exited (.ok exit) env) (hw : w' = { w with sys := .down store })
  | request {svc' : Service} (he : ∀ exit env, e ≠ .exited (.ok exit) env) (hw : w' = { w with sys := .up svc' })
      (hreq : svc.Requested id svc')
  | turn {c : Chunk} (hc : continueAt cfg pos round job ctrl e = some c)
      (hw : w' = w.see (.up (svc.apply { id := id, ctrl := ctrl, queue := svc.queue, chunk := c })) e)

/-- The bytes of the job that is run, its place in the run and what was seen of it. -/
def Watched.view (w : Watched) : Option (JobId × Round × At × ℕ) × ℕ × List ExitSeen :=
  (w.sys.service.bind fun svc => svc.worker.bind fun held => (Dict.get? svc.jobs held.1).map fun entry =>
    (held.1, held.2.1, held.2.2, (entry.1.updateLocalProgress Env.fresh.disk).transferredBytes), w.start, w.exits)

/-- What became of a job. -/
def Watched.outcome (w : Watched) (id : JobId) : Option (JobState × Option String) :=
  w.sys.service.bind fun svc => (Dict.get? svc.jobs id).map fun entry => (entry.1.state, entry.1.error)

end Lhre.LogSync
