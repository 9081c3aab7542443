import Mathlib.Tactic
import Lhre.LogSync.Correctness.QueueIntegrity

/-!
# `LogSync.Correctness.TerminalStates` — a job at an end stays there

`cancel` marks a queued job canceled at once. The task takes a queued job and waits for the first reading of the motion
before it makes it running, so for that long a job it runs is still queued, can be canceled, and is made running or
paused by motion when the reading comes back. Nothing else changes the state of a job at an end, except that a failed job
can be resumed.

## Contents
- **The condition.** `System.GateReopens`, `System.Careful`.
- **Steps.** `apply_terminal`, `stateOf_step`.
- **Runs.** `terminal_absorbing`.
- **Failure.** `not_terminal_absorbing`.
-/

namespace Lhre.LogSync

open Machine

/-! ## The condition -/

/-- The reading of the motion gate comes back to a job that was canceled meanwhile. -/
def System.GateReopens : System → Event → Prop
  | .up svc, .motion _ _ _ =>
      ∃ id round, svc.worker = some (id, round, .motionGate) ∧ svc.stateOf id = some .canceled
  | _, _ => False

/-- No id is given twice, and no reading of the motion gate comes back to a canceled job. -/
def System.Careful (s : System) (e : Event) : Prop := s.Fresh e ∧ ¬ s.GateReopens e

/-- A `resume` of the job that returns `True`. -/
def System.Resumes (s : System) (id : JobId) (e : Event) : Prop :=
  e = .resume id ∧ ∃ svc, s = .up svc ∧ (svc.resume id).1 = true

/-! ## Steps -/

variable {cfg : Config} {svc : Service} {id : JobId} {e : Event} {s s' : System} {state : JobState}

/-- Before its turn the first of the queue can only have been canceled; the task drops it. While the task runs a job, the
    job can only have been canceled before its first reading of the motion. -/
theorem apply_terminal {t : Turn} (h : Coherent svc) (hcareful : ¬ (System.up svc).GateReopens e)
    (ht : svc.turn cfg e = some t) (hterm : state.isTerminal = true) (hs : svc.stateOf t.id = some state) :
    t.chunk.job.state = state ∧ t.chunk.next = none := by
  rcases turn_cases ht with ⟨round, pos, job, hw, -, hget, hc⟩ | ⟨env, listfile, job, rfl, -, -, hget, hc⟩
  · exfalso
    obtain ⟨-, state', hstate, hpos⟩ := h.held t.id round pos hw
    obtain rfl := Option.some.inj (hs.symm.trans hstate)
    rcases hpos with hu | ⟨rfl, rfl | rfl⟩
    · cases state <;> simp [JobState.underway, JobState.isTerminal] at hu hterm
    · cases hterm
    · cases e with
      | motion moving now env => exact hcareful ⟨t.id, round, hw, hs⟩
      | started raised => cases raised <;> cases hc
      | exited result env => cases result <;> cases hc
      | gone raised env => cases raised <;> cases hc
      | _ => cases hc
  · obtain rfl := Option.some.inj (hs.symm.trans (stateOf_of_get? hget))
    rw [hc, workerLoop, if_pos hterm]
    exact ⟨rfl, rfl⟩

/-- **What a step makes of a job at an end.** -/
theorem stateOf_step (h : s.Coherent) (hcareful : s.Careful e) (hstep : s.step cfg e = some s')
    (hterm : state.isTerminal = true) (hs : s.stateOf id = some state) :
    s'.stateOf id = some state ∨ state = .failed ∧ s.Resumes id e ∧ s'.stateOf id = some .queued := by
  cases s with
  | down store =>
      cases e with
      | start =>
          obtain rfl := Option.some.inj hstep
          left
          have hstored : storedState store id = some state := hs
          show (Service.start store).stateOf id = some state
          rw [stateOf_start h, hstored]
          cases state <;> first | rfl | cases hterm
      | _ => cases hstep
  | up svc =>
      have h : Coherent svc := h
      have hs : svc.stateOf id = some state := hs
      cases s' with
      | down store =>
          left
          cases e with
          | stop =>
              obtain rfl : store = svc.store := by simpa [System.step] using hstep.symm
              exact (h.stored id).trans hs
          | _ => simp [System.step] at hstep
      | up svc' =>
          show svc'.stateOf id = some state ∨ _ ∧ _ ∧ svc'.stateOf id = some .queued
          cases effect_of_step h hcareful.1 hstep id with
          | nothing hget hholder =>
              left
              rw [Service.stateOf, hget]
              exact hs
          | create hnew => cases hnew.symm.trans hs
          | pause he hget hstate hsvc =>
              obtain rfl := Option.some.inj (hs.symm.trans (stateOf_of_get? hget))
              cases hterm.symm.trans hstate
          | cancel he hget hstate hsvc =>
              obtain rfl := Option.some.inj (hs.symm.trans (stateOf_of_get? hget))
              cases hterm.symm.trans hstate
          | resume he hresume hsvc =>
              subst hsvc
              have hresumes : (System.up svc).Resumes id e := ⟨he, svc, rfl, hresume⟩
              right
              unfold Service.resume at hresume ⊢
              split at hresume
              · cases hresume
              · rename_i job ctrl hget
                obtain rfl := Option.some.inj (hs.symm.trans (stateOf_of_get? hget))
                dsimp only at hresume ⊢
                cases hjob : job.state <;> simp [hjob, JobState.isTerminal] at hterm hresume ⊢
                exact ⟨hresumes, (@stateOf_of_jobs svc id _ _ _ rfl id).trans (if_pos rfl)⟩
          | turn hturn hof hid hsvc =>
              subst hid hsvc
              left
              obtain ⟨hstate, -⟩ := apply_terminal h hcareful.2 hturn hterm hs
              exact (@stateOf_of_jobs svc _ _ _ _ rfl _).trans ((if_pos rfl).trans (congrArg some hstate))

/-! ## Runs -/

theorem careful_coherent {es : List Event} (run : Steps (System.step cfg) System.Careful .init es s) : s.Coherent :=
  coherent_of_steps (run.mono fun _ _ hok => hok.1)

/-- A state that no step changes stays to the end of a run. -/
theorem stateOf_steps {es : List Event} (h : s.Coherent) (hterm : state.isTerminal = true) (hfailed : state ≠ .failed)
    (hs : s.stateOf id = some state) (run : Steps (System.step cfg) System.Careful s es s') :
    s'.stateOf id = some state := by
  refine (run.invariant (I := fun s => s.Coherent ∧ s.stateOf id = some state) ?_ ⟨h, hs⟩).2
  rintro s e s' ⟨h, hs⟩ hok hstep
  refine ⟨System.coherent_step h hok.1 hstep, ?_⟩
  rcases stateOf_step h hok hstep hterm hs with hs' | ⟨hf, -, -⟩
  · exact hs'
  · exact absurd hf hfailed

/-- **A job at an end stays there**, canceled or completed for good, failed until a `resume` of it is accepted. -/
theorem terminal_absorbing {cfg : Config} {es : List Event} {s : System}
    (run : Steps (System.step cfg) System.Careful .init es s) (id : JobId) :
    (∀ es' t, Steps (System.step cfg) System.Careful s es' t →
      (s.stateOf id = some .canceled → t.stateOf id = some .canceled) ∧
      (s.stateOf id = some .completed → t.stateOf id = some .completed)) ∧
    ∀ e t, s.Careful e → s.step cfg e = some t → s.stateOf id = some .failed →
      t.stateOf id = some .failed ∨ s.Resumes id e ∧ t.stateOf id = some .queued := by
  have h := careful_coherent run
  refine ⟨fun es' t later => ⟨?_, ?_⟩, ?_⟩
  · exact fun hs => stateOf_steps h rfl (fun h => nomatch h) hs later
  · exact fun hs => stateOf_steps h rfl (fun h => nomatch h) hs later
  · exact fun e t hok hstep hs => (stateOf_step h hok hstep rfl hs).imp_right And.right

/-- A job that is canceled in the queue and dropped by the task. -/
def droppedRun : List Event := [.start, .create 1000 [("orion_1.csv", 10)], .cancel (1000, 1), .take .fresh none]

/-- A job that is canceled while the task waits for its first reading of the motion. -/
def reopenedRun : List Event := [.start, .create 1000 [("orion_1.csv", 10)], .take .fresh none, .cancel (1000, 1)]

theorem terminal_absorbing_dropped :
    ∃ s, Steps (System.step {}) System.Careful .init droppedRun s ∧ s.stateOf (1000, 1) = some .canceled ∧
      ∀ es' t, Steps (System.step {}) System.Careful s es' t → t.stateOf (1000, 1) = some .canceled := by
  obtain ⟨s, run, hs⟩ : ∃ s, Steps (System.step {}) System.Careful .init droppedRun s ∧
      s.stateOf (1000, 1) = some .canceled :=
    ⟨_, ⟨⟨trivial, False.elim⟩, _, rfl, ⟨rfl, False.elim⟩, _, rfl, ⟨trivial, False.elim⟩, _, rfl,
      ⟨trivial, False.elim⟩, _, rfl, rfl⟩, rfl⟩
  refine ⟨s, run, hs, fun es' t later => ?_⟩
  exact ((terminal_absorbing run (1000, 1)).1 es' t later).1 hs

/-- The reading comes back, and `rsync` pulls the file. -/
def pulledRun : List Event :=
  [.motion false 0 .fresh, .started none, .exited (.ok ⟨0, ""⟩) { Env.fresh with disk := fun _ => 10 }]

/-- A job that was reported canceled runs, and completes. -/
theorem not_terminal_absorbing :
    ¬ ∀ (cfg : Config) (es : List Event) (s : System) (id : JobId),
      Steps (System.step cfg) always .init es s → s.stateOf id = some .canceled →
        ∀ es' t, Steps (System.step cfg) always s es' t → t.stateOf id = some .canceled := by
  intro h
  obtain ⟨svc, run, hsvc⟩ := @exists_up _ {} always _ reopenedRun
    (fun svc => (svc.stateOf (1000, 1),
      (play (System.step {}) always (.up svc) pulledRun).map fun t => t.stateOf (1000, 1))) _
    (show _ = some (some .canceled, some (some .completed)) by decide)
  obtain ⟨hs, hlater⟩ := Prod.mk.inj hsvc
  obtain ⟨t, later, ht⟩ := Option.map_eq_some_iff.mp hlater
  have hcanceled := h {} reopenedRun (.up svc) (1000, 1) run hs pulledRun t (steps_of_play later)
  exact nomatch ht.symm.trans hcanceled

end Lhre.LogSync
