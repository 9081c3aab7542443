import Mathlib.Tactic
import Lhre.LogSync.Coherence

/-!
# `LogSync.Correctness.QueueIntegrity` — no job is lost, and none is run twice

The queue holds each job once, and every job that is neither at an end nor paused is in the queue or run by the task.
The one way out of it is the id of a job: it is made of the wall clock and of a counter that every process starts from 0,
so once the clock is set back across a restart a new job can take the id, and the place in the queue, of an old one.

## Contents
- **The property.** `QueueIntegrity`.
- **Runs.** `coherent_of_steps`, `queue_integrity`.
- **Failure.** `not_queue_integrity`.
-/

namespace Lhre.LogSync

open Machine

/-- Queue and states of a service that is up. -/
structure QueueIntegrity (svc : Service) : Prop where
  once : svc.queue.Nodup
  queued : ∀ id, svc.stateOf id = some .queued → id ∈ svc.queue ∨ svc.holder = some id
  running : ∀ id, svc.stateOf id = some .running ∨ svc.stateOf id = some .pausedMotion → svc.holder = some id
  notLost : ∀ id state, svc.stateOf id = some state →
    state.isTerminal ∨ state = .paused ∨ id ∈ svc.queue ∨ svc.holder = some id
  notTwice : ∀ id, svc.holder = some id → id ∉ svc.queue

theorem Coherent.queueIntegrity {svc : Service} (h : Coherent svc) : QueueIntegrity svc where
  once := h.queue
  queued := h.queued
  running id hs := by
    rcases hs with hs | hs <;> exact h.underway id _ hs rfl
  notLost id state hs := by
    cases state with
    | queued => exact Or.inr (Or.inr (h.queued id hs))
    | running => exact Or.inr (Or.inr (Or.inr (h.underway id _ hs rfl)))
    | pausedMotion => exact Or.inr (Or.inr (Or.inr (h.underway id _ hs rfl)))
    | paused => exact Or.inr (Or.inl rfl)
    | completed => exact Or.inl rfl
    | failed => exact Or.inl rfl
    | canceled => exact Or.inl rfl
  notTwice id hh := by
    obtain ⟨round, pos, hw⟩ := holder_eq_some.mp hh
    exact (h.held id round pos hw).1

theorem coherent_of_steps {cfg : Config} {es : List Event} {s : System}
    (run : Steps (System.step cfg) System.Fresh .init es s) : s.Coherent :=
  run.invariant (fun _ _ _ h hok hs => System.coherent_step h hok hs) (show System.init.Coherent from List.nodup_nil)

/-- **The integrity of the queue.** Whatever requests come in, wherever the task is, and however often the service is
    stopped and started, as long as no job is created under the id of another one. -/
theorem queue_integrity {cfg : Config} {es : List Event} {svc : Service}
    (run : Steps (System.step cfg) System.Fresh .init es (.up svc)) : QueueIntegrity svc :=
  Coherent.queueIntegrity (coherent_of_steps run)

instance : ∀ (s : System) (e : Event), Decidable (s.Fresh e)
  | .down _, _ => .isTrue trivial
  | .up svc, .create now _ => inferInstanceAs (Decidable (svc.stateOf (now, svc.seq + 1) = none))
  | .up _, .pause _ | .up _, .resume _ | .up _, .cancel _ | .up _, .take _ _ | .up _, .motion _ _ _ => .isTrue trivial
  | .up _, .wake _ | .up _, .started _ | .up _, .poll _ | .up _, .exited _ _ | .up _, .gone _ _ => .isTrue trivial
  | .up _, .stop | .up _, .start => .isTrue trivial

def System.service : System → Option Service
  | .up svc => some svc
  | .down _ => none

/-- A computed run that ends with the service up. -/
theorem exists_up {α : Type*} {cfg : Config} {ok : System → Event → Prop} [∀ s e, Decidable (ok s e)] {es : List Event}
    (f : Service → α) {a : α} (h : ((play (System.step cfg) ok .init es).bind System.service).map f = some a) :
    ∃ svc, Steps (System.step cfg) ok .init es (.up svc) ∧ f svc = a := by
  obtain ⟨svc, hsvc, hf⟩ := Option.map_eq_some_iff.mp h
  obtain ⟨s, hs, hup⟩ := Option.bind_eq_some_iff.mp hsvc
  cases s with
  | up svc' =>
      obtain rfl := Option.some.inj hup
      exact ⟨_, steps_of_play hs, hf⟩
  | down store => exact nomatch hup

/-- An empty disk with room. -/
def Env.fresh : Env := { disk := fun _ => 0, free := .ok 1000, expired := true }

/-- A job whose run is interrupted by a restart, and one that waits. -/
def interruptedRun : List Event :=
  [.start, .create 1000 [("orion_1.csv", 10)], .create 1001 [("orion_2.csv", 10)], .take .fresh none,
    .motion false 0 .fresh, .started none, .stop, .start, .take .fresh none]

theorem queue_integrity_interrupted :
    ∃ svc, Steps (System.step {}) System.Fresh .init interruptedRun (.up svc) ∧ svc.queue = [(1000, 1)] ∧
      QueueIntegrity svc := by
  obtain ⟨svc, run, hqueue⟩ := @exists_up _ {} System.Fresh _ interruptedRun Service.queue _
    (show _ = some [(1000, 1)] by decide)
  exact ⟨svc, run, hqueue, queue_integrity run⟩

/-- A clock that was set back across a restart. -/
def setBackRun : List Event :=
  [.start, .create 1000 [("orion_1.csv", 10)], .stop, .start, .create 1000 [("orion_2.csv", 10)]]

theorem not_queue_integrity :
    ¬ ∀ (cfg : Config) (es : List Event) (svc : Service),
      Steps (System.step cfg) always .init es (.up svc) → QueueIntegrity svc := by
  intro h
  obtain ⟨svc, run, hqueue⟩ := @exists_up _ {} always _ setBackRun Service.queue _
    (show _ = some [(1000, 1), (1000, 1)] by decide)
  have honce := (h {} setBackRun svc run).once
  rw [hqueue] at honce
  exact absurd honce (by decide)

end Lhre.LogSync
