import Mathlib.Tactic
import Lhre.LogSync.Correctness.TerminalStates

/-!
# `LogSync.Correctness.Requests` — an accepted pause or cancel holds

A request is a flag in memory until the task looks at it. A pause is looked at by the gate of the loop, where it becomes
the persisted state of the job; a cancel is looked at by the top of the loop. What comes in between can lose it: `stop`
loses the flag, and the exit of `rsync` can make the task give the job up before it comes to the top of its loop.

## Contents
- **The claims.** `PauseHolds`, `CancelHolds`, and the conditions `KeepsPause`, `KeepsCancel`.
- **Pauses.** `PauseStands` up to the gate, `PausedOut` after it.
- **Cancels.** `CancelStands`.
- **Runs.** `requests_hold`.
- **Failure.** `not_requests_hold`.
-/

namespace Lhre.LogSync

open Machine

/-! ## The claims -/

/-- The task comes by the pause gate of the job. -/
def System.ReachesGate (cfg : Config) (s : System) (id : JobId) (e : Event) : Prop :=
  ∃ svc t, s = .up svc ∧ svc.turn cfg e = some t ∧ t.id = id ∧ t.chunk.gate = true

/-- The task is starting `rsync` for the job. -/
def System.Starting (s : System) (id : JobId) : Prop := ∃ svc round, s = .up svc ∧ svc.worker = some (id, round, .starting)

/-- A step that starts a run of `rsync`. -/
def System.StartsRun (s s' : System) (id : JobId) : Prop := ¬ s.Starting id ∧ s'.Starting id

/-- After an accepted `pause`, and after the gate was reached next, no run starts unless a `resume` is accepted. -/
def PauseHolds (cfg : Config) (ok : System → Event → Prop) (svc : Service) (id : JobId) : Prop :=
  (svc.pause id).1 = true →
    ∀ es m e n es' t e' t',
      Steps (System.step cfg) (fun s e => ok s e ∧ ¬ s.Resumes id e) (.up (svc.pause id).2) es m →
      ok m e → ¬ m.Resumes id e → m.step cfg e = some n → m.ReachesGate cfg id e →
      Steps (System.step cfg) (fun s e => ok s e ∧ ¬ s.Resumes id e) n es' t →
      ok t e' → ¬ t.Resumes id e' → t.step cfg e' = some t' → ¬ t.StartsRun t' id

/-- The job is not at an end. -/
def System.Pending (s : System) (id : JobId) : Prop := ∀ state, s.stateOf id = some state → state.isTerminal = false

/-- After an accepted `cancel`, the first state of the job that is one of an end is canceled or completed. -/
def CancelHolds (cfg : Config) (ok : System → Event → Prop) (svc : Service) (id : JobId) : Prop :=
  (svc.cancel id).1 = true →
    ∀ es t state,
      Steps (System.step cfg) (fun s e => ok s e ∧ s.Pending id) (.up (svc.cancel id).2) es t →
      t.stateOf id = some state → state.isTerminal = true → state = .canceled ∨ state = .completed

/-- The service is not stopped before the pause of the job has become its state. -/
def System.KeepsPause (id : JobId) (s : System) (e : Event) : Prop :=
  s.Fresh e ∧ ∀ svc job ctrl, s = .up svc → e = .stop → Dict.get? svc.jobs id = some (job, ctrl) → ctrl.paused = true →
    job.state = .paused ∨ job.state.isTerminal = true

/-- The service is not stopped before the cancel of the job has become its state, nor is the job given up. -/
def System.KeepsCancel (cfg : Config) (id : JobId) (s : System) (e : Event) : Prop :=
  s.Fresh e ∧ ∀ svc job ctrl, s = .up svc → Dict.get? svc.jobs id = some (job, ctrl) → ctrl.cancel = true →
    (e = .stop → job.state.isTerminal = true) ∧
    ∀ round pos, svc.worker = some (id, round, pos) → e.givesUp cfg round job = false

variable {cfg : Config} {svc svc' : Service} {id : JobId} {e : Event} {s s' : System} {job : Job} {ctrl : Control}

/-! ## Pauses -/

/-- What the store keeps of a pause. -/
def StoredOut (store : Dict JobId Job) (id : JobId) : Prop :=
  ∃ state, storedState store id = some state ∧ (state = .paused ∨ state.isTerminal = true)

/-- A pause that stands: the flag is set, or the job is at an end, where only a `resume` gets it from. -/
def PauseStands (id : JobId) : System → Prop
  | .down store => StoredOut store id
  | .up svc => ∃ job ctrl, Dict.get? svc.jobs id = some (job, ctrl) ∧
      (ctrl.paused = true ∨ job.state.isTerminal = true ∧ svc.holder ≠ some id)

/-- A pause that has become the state of the job. -/
def PausedOut (id : JobId) : System → Prop
  | .down store => StoredOut store id
  | .up svc => ∃ job ctrl, Dict.get? svc.jobs id = some (job, ctrl) ∧
      (ctrl.paused = true ∧ job.state = .paused ∨ job.state.isTerminal = true) ∧ svc.holder ≠ some id

theorem PausedOut.stands (h : PausedOut id s) : PauseStands id s := by
  cases s with
  | down store => exact h
  | up svc =>
      obtain ⟨job, ctrl, hget, ⟨hp, -⟩ | hterm, hholder⟩ := h
      · exact ⟨job, ctrl, hget, Or.inl hp⟩
      · exact ⟨job, ctrl, hget, Or.inr ⟨hterm, hholder⟩⟩

theorem storedOut_of_get? (h : Coherent svc) (hget : Dict.get? svc.jobs id = some (job, ctrl))
    (hs : job.state = .paused ∨ job.state.isTerminal = true) : StoredOut svc.store id :=
  ⟨job.state, (h.stored id).trans (stateOf_of_get? hget), hs⟩

/-- A pause in the store is there again after a `start`. -/
theorem PausedOut.start {store : Dict JobId Job} (hkeys : (Dict.keys store).Nodup) (h : StoredOut store id) :
    PausedOut id (.up (Service.start store)) := by
  obtain ⟨state, hstate, hs⟩ := h
  obtain ⟨job, hjob, rfl⟩ := Option.map_eq_some_iff.mp hstate
  have hreload : job.state.interrupted = false := by
    rcases hs with hs | hs
    · rw [hs]
      rfl
    · cases hstate : job.state <;> simp [hstate, JobState.isTerminal, JobState.interrupted] at hs ⊢
  have hsame : job.reload = job := by
    rw [Job.reload, hreload, if_neg Bool.false_ne_true]
  refine ⟨job, { paused := decide (job.state = .paused) }, ?_, ?_, ?_⟩
  · rw [get?_start hkeys, hjob, Option.map_some, hsame]
  · exact hs.imp_left fun hs => ⟨by simpa using hs, hs⟩
  · intro h
    cases h

theorem holder_apply {t : Turn} (hn : t.chunk.next = none) : (svc.apply t).holder ≠ some id := by
  intro h
  obtain ⟨round, pos, hw⟩ := holder_eq_some.mp h
  have hw : t.chunk.next.map (t.id, ·) = some (id, round, pos) := hw
  rw [hn] at hw
  exact nomatch hw

/-- The turn of a job that the task does not run begins with `_worker_loop`. -/
theorem turn_of_not_held {t : Turn} (h : Coherent svc) (ht : svc.turn cfg e = some t)
    (hget : Dict.get? svc.jobs t.id = some (job, ctrl)) (hholder : svc.holder ≠ some t.id) :
    (job.state = .queued ∨ job.state = .canceled) ∧
      ∃ env listfile, t.chunk = workerLoop job ctrl env listfile := by
  rcases turn_cases ht with ⟨round, pos, _, hw, -⟩ | ⟨env, listfile, job', rfl, -, hq, hget', hc⟩
  · exact absurd (holder_eq_some.mpr ⟨round, pos, hw⟩) hholder
  · obtain ⟨rfl, hctrl⟩ := Prod.mk.inj (Option.some.inj (hget.symm.trans hget'))
    have hwait := h.waiting t.id (hq ▸ List.mem_cons_self)
    rw [stateOf_of_get? hget] at hwait
    exact ⟨hwait.imp Option.some.inj Option.some.inj, env, listfile, hctrl ▸ hc⟩

/-- A job at an end that is in the queue is dropped. -/
theorem workerLoop_of_terminal {env : Env} {listfile : Option String} (hterm : job.state.isTerminal = true) :
    workerLoop job ctrl env listfile = { job := job, saved := none, gate := false, next := none } := by
  rw [workerLoop, if_pos hterm]

theorem cancel_state (hget : Dict.get? svc.jobs id = some (job, ctrl)) (hstate : job.state.isTerminal = false) :
    ∃ job', Dict.get? (svc.cancel id).2.jobs id = some (job', { ctrl with cancel := true, resume := true }) ∧
      (svc.cancel id).2.worker = svc.worker ∧
      (job'.state = job.state ∧ job.state ≠ .paused ∨ job'.state = .canceled) := by
  unfold Service.cancel
  rw [hget]
  dsimp only
  rw [if_neg (by rw [hstate]; exact Bool.false_ne_true)]
  split
  · exact ⟨_, Dict.get?_set_self _ _ _, rfl, Or.inr rfl⟩
  · rename_i hs
    exact ⟨_, Dict.get?_set_self _ _ _, rfl, Or.inl ⟨rfl, fun h => hs (h ▸ List.mem_cons_self)⟩⟩

/-- The state of the task after a step that leaves it alone. -/
theorem holder_of_worker (h : svc'.worker = svc.worker) : svc'.holder = svc.holder := congrArg (Option.map Prod.fst) h

theorem PauseStands.step (h : s.Coherent) (hp : PauseStands id s) (hok : s.KeepsPause id e) (hres : ¬ s.Resumes id e)
    (hs : s.step cfg e = some s') : PauseStands id s' := by
  cases s with
  | down store =>
      cases e with
      | start =>
          obtain rfl := Option.some.inj hs
          exact (PausedOut.start h hp).stands
      | _ => cases hs
  | up svc =>
      have h : Coherent svc := h
      obtain ⟨job, ctrl, hget, hstands⟩ := hp
      cases s' with
      | down store =>
          cases e with
          | stop =>
              obtain rfl : store = svc.store := by simpa [System.step] using hs.symm
              refine storedOut_of_get? h hget ?_
              rcases hstands with hp | ⟨hterm, -⟩
              · exact hok.2 svc job ctrl rfl rfl hget hp
              · exact Or.inr hterm
          | _ => simp [System.step] at hs
      | up svc' =>
          cases effect_of_step h hok.1 hs id with
          | nothing hsame hholder => exact ⟨job, ctrl, hsame.trans hget, hstands.imp_right (And.imp_right (mt hholder.mp))⟩
          | create hnew => cases hnew.symm.trans (stateOf_of_get? hget)
          | pause he hget' hstate hsvc =>
              subst hsvc
              exact ⟨_, _, Dict.get?_set_self _ _ _, Or.inl rfl⟩
          | resume he hresume hsvc => exact absurd ⟨he, svc, rfl, hresume⟩ hres
          | cancel he hget' hstate hsvc =>
              subst hsvc
              obtain ⟨rfl, rfl⟩ := Prod.mk.inj (Option.some.inj (hget.symm.trans hget'))
              obtain ⟨job', hjob', -, -⟩ := cancel_state hget hstate
              refine ⟨job', _, hjob', Or.inl ?_⟩
              rcases hstands with hp | ⟨hterm, -⟩
              · exact hp
              · cases hterm.symm.trans hstate
          | turn hturn hof hid hsvc =>
              subst hid hsvc
              obtain ⟨rfl, rfl⟩ := Prod.mk.inj (Option.some.inj (hget.symm.trans hof.get))
              refine ⟨_, _, Dict.get?_set_self _ _ _, ?_⟩
              rcases hstands with hp | ⟨hterm, hholder⟩
              · exact Or.inl hp
              -- a worker that finds its job ended leaves it as it is
              · obtain ⟨-, env, listfile, hc⟩ := turn_of_not_held h hturn hget hholder
                rw [workerLoop_of_terminal hterm] at hc
                right
                exact ⟨by rw [hc]; exact hterm, holder_apply (by rw [hc])⟩

theorem step_of_turn {t : Turn} (ht : svc.turn cfg e = some t) :
    System.step cfg (.up svc) e = some (.up (svc.apply t)) := by
  have hmap : (svc.turn cfg e).map (fun t => System.up (svc.apply t)) = some (.up (svc.apply t)) := by
    rw [ht]
    rfl
  rcases turn_cases ht with ⟨round, pos, job, -, -, -, hc⟩ | ⟨env, listfile, job, rfl, -⟩
  · cases e with
    | create _ _ | pause _ | resume _ | cancel _ | take _ _ | stop | start => exact nomatch hc
    | _ => exact hmap
  · exact hmap

/-- The gate makes a pause the state of the job. -/
theorem PauseStands.gate (h : s.Coherent) (hp : PauseStands id s) (hgate : s.ReachesGate cfg id e)
    (hs : s.step cfg e = some s') : PausedOut id s' := by
  obtain ⟨svc, t, rfl, ht, rfl, hg⟩ := hgate
  have h : Coherent svc := h
  obtain ⟨job, ctrl, hget, hstands⟩ := hp
  obtain ⟨job', hof⟩ := h.turn ht
  obtain ⟨rfl, rfl⟩ := Prod.mk.inj (Option.some.inj (hget.symm.trans hof.get))
  obtain rfl := Option.some.inj ((step_of_turn ht).symm.trans hs)
  rcases hstands with hp | ⟨hterm, hholder⟩
  · obtain ⟨hn, hstate⟩ := hof.sound.gated hp hg
    exact ⟨_, _, Dict.get?_set_self _ _ _, Or.inl ⟨hp, hstate⟩, holder_apply hn⟩
  · obtain ⟨-, env, listfile, hc⟩ := turn_of_not_held h ht hget hholder
    rw [hc, workerLoop_of_terminal hterm] at hg
    exact nomatch hg

theorem PausedOut.step (h : s.Coherent) (hp : PausedOut id s) (hfresh : s.Fresh e) (hres : ¬ s.Resumes id e)
    (hs : s.step cfg e = some s') : PausedOut id s' := by
  cases s with
  | down store =>
      cases e with
      | start =>
          obtain rfl := Option.some.inj hs
          exact PausedOut.start h hp
      | _ => cases hs
  | up svc =>
      have h : Coherent svc := h
      obtain ⟨job, ctrl, hget, hout, hholder⟩ := hp
      cases s' with
      | down store =>
          cases e with
          | stop =>
              obtain rfl : store = svc.store := by simpa [System.step] using hs.symm
              exact storedOut_of_get? h hget (hout.imp_left And.right)
          | _ => simp [System.step] at hs
      | up svc' =>
          cases effect_of_step h hfresh hs id with
          | nothing hsame hsameHolder => exact ⟨job, ctrl, hsame.trans hget, hout, mt hsameHolder.mp hholder⟩
          | create hnew => cases hnew.symm.trans (stateOf_of_get? hget)
          | pause he hget' hstate hsvc =>
              subst hsvc
              obtain ⟨rfl, rfl⟩ := Prod.mk.inj (Option.some.inj (hget.symm.trans hget'))
              refine ⟨_, _, Dict.get?_set_self _ _ _, ?_, hholder⟩
              exact hout.imp_left fun hpaused => ⟨rfl, hpaused.2⟩
          | resume he hresume hsvc => exact absurd ⟨he, svc, rfl, hresume⟩ hres
          | cancel he hget' hstate hsvc =>
              subst hsvc
              obtain ⟨rfl, rfl⟩ := Prod.mk.inj (Option.some.inj (hget.symm.trans hget'))
              obtain ⟨job', hjob', hw, hcases⟩ := cancel_state hget hstate
              refine ⟨job', _, hjob', Or.inr ?_, holder_of_worker hw ▸ hholder⟩
              rcases hcases with ⟨-, hne⟩ | hcanceled
              · rcases hout with ⟨-, hpaused⟩ | hterm
                · exact absurd hpaused hne
                · cases hterm.symm.trans hstate
              · rw [hcanceled]
                rfl
          | turn hturn hof hid hsvc =>
              subst hid hsvc
              obtain ⟨rfl, rfl⟩ := Prod.mk.inj (Option.some.inj (hget.symm.trans hof.get))
              obtain ⟨hwait, env, listfile, hc⟩ := turn_of_not_held h hturn hget hholder
              -- a paused job has no turn, so a job with one has ended
              have hterm : job.state.isTerminal = true := by
                rcases hout with ⟨-, hpaused⟩ | hterm
                · simp [hpaused] at hwait
                · exact hterm
              rw [workerLoop_of_terminal hterm] at hc
              exact ⟨_, _, Dict.get?_set_self _ _ _, Or.inr (by rw [hc]; exact hterm), holder_apply (by rw [hc])⟩

theorem PausedOut.not_starting (h : PausedOut id s) : ¬ s.Starting id := by
  rintro ⟨svc, round, rfl, hw⟩
  obtain ⟨_, _, -, -, hholder⟩ := h
  exact hholder (holder_eq_some.mpr ⟨round, _, hw⟩)

/-! ## Cancels -/

/-- A cancel that stands: the flag is set, and the job has not failed. -/
def CancelStands (id : JobId) (s : System) : Prop :=
  ∃ svc job ctrl, s = .up svc ∧ Dict.get? svc.jobs id = some (job, ctrl) ∧ ctrl.cancel = true ∧ job.state ≠ .failed

theorem CancelStands.step (h : s.Coherent) (hc : CancelStands id s) (hok : s.KeepsCancel cfg id e) (hpend : s.Pending id)
    (hs : s.step cfg e = some s') : CancelStands id s' := by
  obtain ⟨svc, job, ctrl, rfl, hget, hcancel, hfailed⟩ := hc
  have h : Coherent svc := h
  have hpend : job.state.isTerminal = false := hpend job.state (stateOf_of_get? hget)
  cases s' with
  | down store =>
      cases e with
      | stop => cases hpend.symm.trans ((hok.2 svc job ctrl rfl hget hcancel).1 rfl)
      | _ => simp [System.step] at hs
  | up svc' =>
      cases effect_of_step h hok.1 hs id with
      | nothing hsame hholder => exact ⟨svc', job, ctrl, rfl, hsame.trans hget, hcancel, hfailed⟩
      | create hnew => cases hnew.symm.trans (stateOf_of_get? hget)
      | pause he hget' hstate hsvc =>
          subst hsvc
          obtain ⟨rfl, rfl⟩ := Prod.mk.inj (Option.some.inj (hget.symm.trans hget'))
          exact ⟨_, _, _, rfl, Dict.get?_set_self _ _ _, hcancel, hfailed⟩
      | resume he hresume hsvc =>
          subst hsvc
          unfold Service.resume at hresume ⊢
          rw [hget] at hresume ⊢
          dsimp only at hresume ⊢
          split at hresume
          · rename_i hs
            rw [if_pos hs]
            split
            · refine ⟨_, _, _, rfl, Dict.get?_set_self _ _ _, hcancel, ?_⟩
              intro h
              cases h
            · exact ⟨_, _, _, rfl, Dict.get?_set_self _ _ _, hcancel, hfailed⟩
          · cases hresume
      | cancel he hget' hstate hsvc =>
          subst hsvc
          obtain ⟨rfl, rfl⟩ := Prod.mk.inj (Option.some.inj (hget.symm.trans hget'))
          obtain ⟨job', hjob', -, hcases⟩ := cancel_state hget hstate
          refine ⟨_, job', _, rfl, hjob', rfl, ?_⟩
          rcases hcases with ⟨hsame, -⟩ | hcanceled
          · rw [hsame]
            exact hfailed
          · rw [hcanceled]
            intro h
            cases h
      | turn hturn hof hid hsvc =>
          subst hid hsvc
          obtain ⟨rfl, rfl⟩ := Prod.mk.inj (Option.some.inj (hget.symm.trans hof.get))
          refine ⟨_, _, _, rfl, Dict.get?_set_self _ _ _, hcancel, ?_⟩
          rcases turn_cases hturn with ⟨round, pos, job', hw, -, hget', hc⟩ | ⟨env, listfile, job', rfl, -, -, hget', hc⟩
          · obtain ⟨rfl, -⟩ := Prod.mk.inj (Option.some.inj (hget.symm.trans hget'))
            exact continueAt_of_cancel hcancel hfailed ((hok.2 svc job _ rfl hget hcancel).2 round pos hw) hc
          · obtain ⟨rfl, -⟩ := Prod.mk.inj (Option.some.inj (hget.symm.trans hget'))
            rw [hc]
            exact workerLoop_of_cancel hcancel hfailed

/-! ## Runs -/

theorem pause_stands (h : (svc.pause id).1 = true) : PauseStands id (.up (svc.pause id).2) := by
  unfold Service.pause at h ⊢
  split at h
  · exact nomatch h
  · split at h
    · exact nomatch h
    · rename_i hterm
      rw [if_neg hterm]
      exact ⟨_, _, Dict.get?_set_self _ _ _, Or.inl rfl⟩

theorem cancel_stands (h : (svc.cancel id).1 = true) : CancelStands id (.up (svc.cancel id).2) := by
  have hget : ∃ job ctrl, Dict.get? svc.jobs id = some (job, ctrl) ∧ job.state.isTerminal = false := by
    unfold Service.cancel at h
    split at h
    · cases h
    · rename_i job ctrl hget
      split at h
      · cases h
      · rename_i hterm
        exact ⟨job, ctrl, hget, Bool.eq_false_iff.mpr hterm⟩
  obtain ⟨job, ctrl, hget, hterm⟩ := hget
  obtain ⟨job', hjob', -, hcases⟩ := cancel_state hget hterm
  refine ⟨_, job', _, rfl, hjob', rfl, ?_⟩
  rcases hcases with ⟨hsame, -⟩ | hcanceled
  · rw [hsame]
    intro hfailed
    rw [hfailed] at hterm
    cases hterm
  · rw [hcanceled]
    intro h
    cases h

/-- **An accepted pause holds** in a run in which no stop of the service comes before its gate. -/
theorem Coherent.pauseHolds (h : Coherent svc) : PauseHolds cfg (System.KeepsPause id) svc id := by
  intro haccept es m e n es' t e' t' before hok hres hstep hgate after hok' hres' hstep'
  have hm : m.Coherent ∧ PauseStands id m := by
    refine before.invariant (I := fun s => s.Coherent ∧ PauseStands id s) ?_ ⟨h.pause id, pause_stands haccept⟩
    rintro s e s' ⟨h, hp⟩ ⟨hok, hres⟩ hs
    exact ⟨System.coherent_step h hok.1 hs, hp.step h hok hres hs⟩
  have hn : n.Coherent ∧ PausedOut id n := ⟨System.coherent_step hm.1 hok.1 hstep, hm.2.gate hm.1 hgate hstep⟩
  have ht : t.Coherent ∧ PausedOut id t := by
    refine after.invariant (I := fun s => s.Coherent ∧ PausedOut id s) ?_ hn
    rintro s e s' ⟨h, hp⟩ ⟨hok, hres⟩ hs
    exact ⟨System.coherent_step h hok.1 hs, hp.step h hok.1 hres hs⟩
  exact fun hstarts => (ht.2.step ht.1 hok'.1 hres' hstep').not_starting hstarts.2

/-- **An accepted cancel holds** in a run in which it is neither stopped away nor overtaken by a failure. -/
theorem Coherent.cancelHolds (h : Coherent svc) : CancelHolds cfg (System.KeepsCancel cfg id) svc id := by
  intro haccept es t state run hstate hterm
  have ht : t.Coherent ∧ CancelStands id t := by
    refine run.invariant (I := fun s => s.Coherent ∧ CancelStands id s) ?_ ⟨h.cancel id, cancel_stands haccept⟩
    rintro s e s' ⟨h, hc⟩ ⟨hok, hpend⟩ hs
    exact ⟨System.coherent_step h hok.1 hs, hc.step h hok hpend hs⟩
  obtain ⟨-, svc', job, ctrl, rfl, hget, -, hfailed⟩ := ht
  obtain rfl := Option.some.inj (hstate.symm.trans (stateOf_of_get? hget))
  cases hjob : job.state <;> simp [hjob, JobState.isTerminal] at hterm hfailed ⊢

/-- **Requests hold.** In whatever state of a run a pause or a cancel is accepted, it holds in every run from there on that
    does not lose its flag: no stop before the flag has become the state of the job and, for a cancel, no failure of
    the job before the top of the loop. -/
theorem requests_hold {cfg : Config} {es : List Event} {svc : Service}
    (run : Steps (System.step cfg) System.Fresh .init es (.up svc)) (id : JobId) :
    PauseHolds cfg (System.KeepsPause id) svc id ∧ CancelHolds cfg (System.KeepsCancel cfg id) svc id := by
  have h : Coherent svc := coherent_of_steps run
  exact ⟨h.pauseHolds, h.cancelHolds⟩

/-- A job that `rsync` is pulling. -/
def pullingRun : List Event :=
  [.start, .create 1000 [("orion_1.csv", 10)], .take .fresh none, .motion false 0 .fresh, .started none]

theorem requests_hold_pulling :
    ∃ svc, Steps (System.step {}) System.Fresh .init pullingRun (.up svc) ∧ svc.stateOf (1000, 1) = some .running ∧
      PauseHolds {} (System.KeepsPause (1000, 1)) svc (1000, 1) ∧
      CancelHolds {} (System.KeepsCancel {} (1000, 1)) svc (1000, 1) := by
  obtain ⟨svc, run, hstate⟩ := @exists_up _ {} System.Fresh _ pullingRun (fun svc => svc.stateOf (1000, 1)) _
    (show _ = some (some .running) by decide)
  exact ⟨svc, run, hstate, requests_hold run (1000, 1)⟩

/-- Four failed rounds of `rsync`, and a fifth one that has started. -/
def failingRun : List Event :=
  let round : List Event := [.motion false 0 .fresh, .started none]
  let failure : List Event := [.exited (.ok ⟨23, ""⟩) .fresh]
  [.start, .create 1000 [("orion_1.csv", 10)], .take .fresh none] ++ round ++ failure ++ round ++ failure ++ round ++
    failure ++ round ++ failure ++ round

/-- A pause of a queued job is gone after a restart, and the fifth failure of `rsync` overtakes a cancel. -/
theorem not_requests_hold :
    (¬ ∀ (cfg : Config) (es : List Event) (svc : Service) (id : JobId),
      Steps (System.step cfg) always .init es (.up svc) → PauseHolds cfg always svc id) ∧
    ¬ ∀ (cfg : Config) (es : List Event) (svc : Service) (id : JobId),
      Steps (System.step cfg) always .init es (.up svc) → CancelHolds cfg always svc id := by
  refine ⟨?_, ?_⟩
  · intro h
    have hqueued := h {} [.start, .create 1000 [("orion_1.csv", 10)]] _ (1000, 1) ⟨trivial, _, rfl, trivial, _, rfl, rfl⟩
    have hother {s : System} {e : Event} (he : e ≠ .resume (1000, 1)) : ¬ s.Resumes (1000, 1) e := fun h => he h.1
    refine hqueued rfl [.stop, .start] _ (.take .fresh none) _ [] _ (.motion false 0 .fresh) _
      ⟨⟨trivial, hother (fun h => nomatch h)⟩, _, rfl, ⟨trivial, hother (fun h => nomatch h)⟩, _, rfl, rfl⟩ trivial
      (hother fun h => nomatch h) rfl ⟨_, _, rfl, rfl, rfl, rfl⟩ rfl trivial (hother fun h => nomatch h) rfl ?_
    · refine ⟨?_, _, _, rfl, rfl⟩
      rintro ⟨_, _, heq, hw⟩
      injection heq with heq
      subst heq
      exact nomatch hw
  · intro h
    obtain ⟨svc, run, hsvc⟩ := @exists_up _ {} always _ failingRun
      (fun svc => ((svc.cancel (1000, 1)).1, (svc.cancel (1000, 1)).2.stateOf (1000, 1),
        (System.step {} (.up (svc.cancel (1000, 1)).2) (.exited (.ok ⟨23, ""⟩) .fresh)).map fun t =>
          t.stateOf (1000, 1))) _
      (show _ = some (true, some .running, some (some .failed)) by decide)
    obtain ⟨haccept, hrest⟩ := Prod.mk.inj hsvc
    obtain ⟨hrunning, hlater⟩ := Prod.mk.inj hrest
    obtain ⟨t, hstep, hfailed⟩ := Option.map_eq_some_iff.mp hlater
    have hpending : (System.up (svc.cancel (1000, 1)).2).Pending (1000, 1) := by
      intro state hs
      obtain rfl := Option.some.inj (hrunning.symm.trans hs)
      rfl
    have hcanceled := h {} failingRun svc (1000, 1) run haccept [_] t .failed
      ⟨⟨trivial, hpending⟩, t, hstep, rfl⟩ hfailed rfl
    simp at hcanceled

end Lhre.LogSync
