import Mathlib.Tactic
import Lhre.LogSync.Manager

/-!
# `LogSync.Turns` — what the task can do to a job between two awaits

Everything the proofs use of the task is said once, of any chunk it can run: what it leaves persisted, the states it
leaves a job in when it lets go of it and when it waits, and what a flag makes of it.

## Contents
- **Sound chunks.** `Chunk.Sound`, for each function of the task: `workerLoop_sound`, `continueAt_sound`.
- **Canceled jobs.** `Event.givesUp`, `continueAt_of_cancel`.
-/

namespace Lhre.LogSync

/-! ## Sound chunks -/

/-- The states of a job that is being run. -/
def JobState.underway : JobState → Bool
  | .running | .pausedMotion => true
  | _ => false

/-- What a chunk for a job leaves. -/
structure Chunk.Sound (job : Job) (ctrl : Control) (c : Chunk) : Prop where
  /-- The copy in the store has the state the job has. -/
  saved : ∀ copy, c.saved = some copy → copy.state = c.job.state
  unsaved : c.saved = none → c.job.state = job.state
  /-- A job it lets go of is at an end, or paused. -/
  ended : c.next = none → c.job.state.isTerminal ∨ c.job.state = .paused
  /-- A job it waits for is underway, or waits for its first motion reading. -/
  waits : ∀ round pos, c.next = some (round, pos) →
    c.job.state.underway ∨ c.job.state = job.state ∧ pos = .motionGate
  /-- A paused job does not pass the gate. -/
  gated : ctrl.paused = true → c.gate = true → c.next = none ∧ c.job.state = .paused
  /-- No run of `rsync` starts in a chunk that comes by the gate. -/
  starts : ∀ round, c.next = some (round, .starting) → c.gate = false

variable {cfg : Config} {job job' : Job} {ctrl : Control} {env : Env} {round : Round} {pos : At} {c : Chunk}

theorem ends_sound {state : JobState} {gate : Bool} (hend : state.isTerminal ∨ state = .paused)
    (hgate : gate = true → ctrl.paused = true → state = .paused) : Chunk.Sound job ctrl (ends job' state gate) where
  saved copy h := by
    obtain rfl := Option.some.inj h
    rfl
  unsaved h := nomatch h
  ended _ := hend
  waits _ _ h := nomatch h
  gated hp hg := ⟨rfl, hgate hg hp⟩
  starts _ h := nomatch h

/-- A chunk that only waits, with what it has persisted. -/
theorem waits_sound {saved : Option Job} {gate : Bool} (hsaved : ∀ copy, saved = some copy → copy.state = job'.state)
    (hunsaved : saved = none → job'.state = job.state)
    (hwaits : job'.state.underway ∨ job'.state = job.state ∧ pos = .motionGate)
    (hgate : gate = true → ctrl.paused = false ∧ pos ≠ .starting) :
    Chunk.Sound job ctrl { job := job', saved := saved, gate := gate, next := some (round, pos) } where
  saved := hsaved
  unsaved := hunsaved
  ended h := nomatch h
  waits _ _ h := by
    obtain ⟨-, rfl⟩ := Prod.mk.inj (Option.some.inj h)
    exact hwaits
  gated hp hg := by
    rw [(hgate hg).1] at hp
    exact nomatch hp
  starts _ h := by
    obtain ⟨-, rfl⟩ := Prod.mk.inj (Option.some.inj h)
    exact Bool.eq_false_iff.mpr fun hg => (hgate hg).2 rfl

/-- What was persisted before has the state the rest of the chunk started with. -/
theorem Chunk.Sound.after (h : Chunk.Sound job' ctrl c) (hs : job'.state.underway ∨ job'.state = job.state) :
    Chunk.Sound job ctrl (c.after job') where
  saved copy hcopy := by
    show copy.state = c.job.state
    cases hc : c.saved with
    | some kept =>
        have hkept : some kept = some copy := by simpa [Chunk.after, hc] using hcopy
        exact h.saved copy (hc.trans hkept)
    | none =>
        obtain rfl : job' = copy := by simpa [Chunk.after, hc] using hcopy
        exact (h.unsaved hc).symm
  unsaved hnone := by
    have hor : c.saved.or (some job') = none := hnone
    cases hc : c.saved <;> simp [hc] at hor
  ended := h.ended
  waits round pos hn := by
    show c.job.state.underway ∨ c.job.state = job.state ∧ pos = .motionGate
    rcases h.waits round pos hn with hu | ⟨heq, hpos⟩
    · exact Or.inl hu
    · rcases hs with hs | hs
      · left
        rw [heq]
        exact hs
      · exact Or.inr ⟨heq.trans hs, hpos⟩
  gated := h.gated
  starts := h.starts

theorem Chunk.Sound.of_state (h : Chunk.Sound job' ctrl c) (hs : job'.state = job.state) : Chunk.Sound job ctrl c where
  saved := h.saved
  unsaved hn := (h.unsaved hn).trans hs
  ended := h.ended
  waits round pos hn := (h.waits round pos hn).imp_right fun ⟨heq, hpos⟩ => ⟨heq.trans hs, hpos⟩
  gated := h.gated
  starts := h.starts

theorem loopTop_sound : Chunk.Sound job ctrl (loopTop job ctrl env round) := by
  unfold loopTop
  dsimp only
  split
  · exact ends_sound (Or.inl rfl) (fun h => nomatch h)
  split
  · exact ends_sound (Or.inl rfl) (fun h => nomatch h)
  split
  · exact ends_sound (Or.inr rfl) (fun _ _ => rfl)
  rename_i hp
  have hp : ctrl.paused = false := Bool.eq_false_iff.mpr hp
  split
  · exact ends_sound (Or.inl rfl) (fun _ h => nomatch hp.symm.trans h)
  split
  · exact ends_sound (Or.inl rfl) (fun _ h => nomatch hp.symm.trans h)
  · refine waits_sound (fun _ h => nomatch h) (fun _ => rfl) (Or.inr ⟨rfl, rfl⟩) ?_
    exact fun _ => ⟨hp, fun h => nomatch h⟩

theorem workerLoop_sound {listfile : Option String} : Chunk.Sound job ctrl (workerLoop job ctrl env listfile) := by
  unfold workerLoop
  split
  · rename_i hterm
    refine ⟨?_, fun _ => rfl, fun _ => Or.inl hterm, ?_, ?_, ?_⟩
    · exact fun _ h => nomatch h
    · exact fun _ _ h => nomatch h
    · exact fun _ h => nomatch h
    · exact fun _ h => nomatch h
  split
  · exact ends_sound (Or.inl rfl) (fun h => nomatch h)
  unfold runJob
  split
  · exact ends_sound (Or.inl rfl) (fun h => nomatch h)
  dsimp only
  split
  · exact ends_sound (Or.inl rfl) (fun h => nomatch h)
  · exact loopTop_sound.of_state rfl

theorem waitMotionClear_sound {since : Option ℚ} (hu : job.state.underway) :
    Chunk.Sound job ctrl (waitMotionClear job ctrl env round since) := by
  unfold waitMotionClear
  split
  · exact loopTop_sound
  · exact waits_sound (fun _ h => nomatch h) (fun _ => rfl) (Or.inl hu) (fun h => nomatch h)

theorem motionRead_sound {moving : Bool} : Chunk.Sound job ctrl (motionRead job ctrl env round moving) := by
  unfold motionRead
  split
  · exact (waitMotionClear_sound rfl).after (Or.inl rfl)
  · refine waits_sound ?_ (fun h => nomatch h) (Or.inl rfl) (fun h => nomatch h)
    intro copy h
    exact congrArg Job.state (Option.some.inj h).symm

theorem waitReading_sound {since : Option ℚ} {moving : Bool} {now : ℚ} (hu : job.state.underway) :
    Chunk.Sound job ctrl (waitReading cfg job ctrl env round since moving now) := by
  have hsleep (since : Option ℚ) : Chunk.Sound job ctrl
      { job := job, saved := some job, gate := false, next := some (round, .waitSleep since) } :=
    waits_sound (fun _ h => congrArg Job.state (Option.some.inj h).symm) (fun _ => rfl) (Or.inl hu) (fun h => nomatch h)
  unfold waitReading
  dsimp only
  split
  · exact hsleep none
  split
  · exact hsleep (some now)
  split
  · exact loopTop_sound.after (Or.inr rfl)
  · exact hsleep _

theorem interruptibleSleep_sound (hu : job.state.underway) :
    Chunk.Sound job ctrl (interruptibleSleep job ctrl env round) := by
  unfold interruptibleSleep
  split
  · exact loopTop_sound
  · exact waits_sound (fun _ h => nomatch h) (fun _ => rfl) (Or.inl hu) (fun h => nomatch h)

theorem rsyncExit_sound {exit : RsyncExit} (hu : job.state.underway) :
    Chunk.Sound job ctrl (rsyncExit cfg job ctrl env round exit) := by
  unfold rsyncExit
  dsimp only
  split
  · split
    · exact ends_sound (Or.inl rfl) (fun h => nomatch h)
    split
    · exact ends_sound (Or.inl rfl) (fun h => nomatch h)
    · exact loopTop_sound.of_state rfl
  split
  · exact (interruptibleSleep_sound rfl).after (Or.inl rfl)
  split
  · exact ends_sound (Or.inl rfl) (fun h => nomatch h)
  · have hu : (job.updateLocalProgress env.disk).state.underway := hu
    exact (interruptibleSleep_sound hu).after (Or.inr rfl)

/-- **Whatever the task does to a job is sound**: it waits for the first motion reading of the job, or the job is
    underway. -/
theorem continueAt_sound {e : Event} (hu : job.state.underway ∨ pos = .motionGate)
    (h : continueAt cfg pos round job ctrl e = some c) : Chunk.Sound job ctrl c := by
  have hquiet {next : At} (hu : job.state.underway) : Chunk.Sound job ctrl
      { job := job, saved := none, gate := false, next := some (round, next) } :=
    waits_sound (fun _ h => nomatch h) (fun _ => rfl) (Or.inl hu) (fun h => nomatch h)
  cases e with
  | motion moving now env =>
      cases pos <;> simp only [continueAt, Option.some.injEq, reduceCtorEq, or_false] at h hu <;> subst h
      · exact motionRead_sound
      · exact waitReading_sound hu
      · exact hquiet hu
  | wake env =>
      cases pos <;> simp only [continueAt, Option.some.injEq, reduceCtorEq, or_false] at h hu <;> subst h
      · exact waitMotionClear_sound hu
      · exact interruptibleSleep_sound hu
  | started raised =>
      cases pos <;> cases raised <;>
        simp only [continueAt, Option.some.injEq, reduceCtorEq, or_false] at h hu <;> subst h
      · exact hquiet hu
      · exact ends_sound (Or.inl rfl) (fun h => nomatch h)
  | poll env =>
      cases pos <;> simp only [continueAt, Option.some.injEq, reduceCtorEq, or_false] at h hu
      subst h
      exact waits_sound (fun _ h => congrArg Job.state (Option.some.inj h).symm) (fun _ => rfl) (Or.inl hu)
        (fun h => nomatch h)
  | exited result env =>
      cases pos <;> cases result <;>
        simp only [continueAt, Option.some.injEq, reduceCtorEq, or_false] at h hu <;> subst h
      · exact ends_sound (Or.inl rfl) (fun h => nomatch h)
      · exact rsyncExit_sound hu
  | gone raised env =>
      cases pos <;> cases raised <;>
        simp only [continueAt, Option.some.injEq, reduceCtorEq, or_false] at h hu <;> subst h
      · exact loopTop_sound.of_state rfl
      · exact ends_sound (Or.inl rfl) (fun h => nomatch h)
  | create _ _ | pause _ | resume _ | cancel _ | take _ _ | stop | start => exact nomatch h

/-! ## Canceled jobs -/

/-- The task gives a job up on an event before it looks at the flags of the job: it catches an exception, or counts the
    exit of `rsync` as one too many. -/
def Event.givesUp (cfg : Config) (round : Round) (job : Job) : Event → Bool
  | .started raised => raised.isSome
  | .gone raised _ => raised.isSome
  | .exited (.error _) _ => true
  | .exited (.ok exit) env =>
      let job := job.updateLocalProgress env.disk
      if exit.code ∈ rsyncOkCodes then !job.allDone && stallsOut round job
      else !decide (exit.code ∈ rsyncTransientCodes) && retriesOut cfg round job
  | _ => false

theorem loopTop_of_cancel (hc : ctrl.cancel = true) : (loopTop job ctrl env round).job.state = .canceled := by
  rw [loopTop, if_pos hc]
  rfl

theorem waitMotionClear_of_cancel {since : Option ℚ} (hc : ctrl.cancel = true) :
    (waitMotionClear job ctrl env round since).job.state = .canceled := by
  rw [waitMotionClear, hc, Bool.true_or, if_pos rfl]
  exact loopTop_of_cancel hc

theorem interruptibleSleep_of_cancel (hc : ctrl.cancel = true) :
    (interruptibleSleep job ctrl env round).job.state = .canceled := by
  rw [interruptibleSleep, hc, Bool.or_true, Bool.true_or, if_pos rfl]
  exact loopTop_of_cancel hc

theorem workerLoop_of_cancel {listfile : Option String} (hc : ctrl.cancel = true) (hf : job.state ≠ .failed) :
    (workerLoop job ctrl env listfile).job.state ≠ .failed := by
  unfold workerLoop
  split
  · exact hf
  · exact fun h => nomatch h

theorem rsyncExit_of_cancel {exit : RsyncExit} (hc : ctrl.cancel = true)
    (hgive : (Event.exited (.ok exit) env).givesUp cfg round job = false) :
    (rsyncExit cfg job ctrl env round exit).job.state ≠ .failed := by
  simp only [Event.givesUp] at hgive
  unfold rsyncExit
  dsimp only
  split at hgive
  · rename_i hok
    rw [if_pos hok]
    split
    · exact fun h => nomatch h
    · rename_i hdone
      have hstall : stallsOut round (job.updateLocalProgress env.disk) = false := by
        simpa [Bool.eq_false_iff.mpr hdone] using hgive
      rw [hstall, if_neg Bool.false_ne_true, loopTop_of_cancel hc]
      exact fun h => nomatch h
  · rename_i hok
    rw [if_neg hok]
    split
    · show (interruptibleSleep _ ctrl env _).job.state ≠ .failed
      rw [interruptibleSleep_of_cancel hc]
      exact fun h => nomatch h
    · rename_i htransient
      have hretry : retriesOut cfg round (job.updateLocalProgress env.disk) = false := by
        simpa [htransient] using hgive
      rw [hretry, if_neg Bool.false_ne_true]
      show (interruptibleSleep _ ctrl env _).job.state ≠ .failed
      rw [interruptibleSleep_of_cancel hc]
      exact fun h => nomatch h

/-- **A canceled job fails only by being given up.** -/
theorem continueAt_of_cancel {e : Event} (hc : ctrl.cancel = true) (hf : job.state ≠ .failed)
    (hgive : e.givesUp cfg round job = false) (h : continueAt cfg pos round job ctrl e = some c) :
    c.job.state ≠ .failed := by
  have hcanceled {c : Chunk} (h : c.job.state = .canceled) : c.job.state ≠ .failed := by
    rw [h]
    exact fun h => nomatch h
  cases e with
  | motion moving now env =>
      cases pos <;> simp only [continueAt, Option.some.injEq, reduceCtorEq] at h <;> subst h
      · unfold motionRead
        split
        · have hwait := @waitMotionClear_of_cancel (job.setState .pausedMotion) ctrl env round none hc
          exact hcanceled hwait
        · exact fun h => nomatch h
      · unfold waitReading
        dsimp only
        split
        · exact hf
        split
        · exact hf
        split
        · exact hcanceled (loopTop_of_cancel hc)
        · exact hf
      · exact hf
  | wake env =>
      cases pos <;> simp only [continueAt, Option.some.injEq, reduceCtorEq] at h <;> subst h
      · exact hcanceled (waitMotionClear_of_cancel hc)
      · exact hcanceled (interruptibleSleep_of_cancel hc)
  | started raised =>
      cases raised with
      | some _ => exact nomatch hgive
      | none =>
          cases pos <;> simp only [continueAt, Option.some.injEq, reduceCtorEq] at h
          subst h
          exact hf
  | poll env =>
      cases pos <;> simp only [continueAt, Option.some.injEq, reduceCtorEq] at h
      subst h
      exact hf
  | exited result env =>
      cases result with
      | error _ => exact nomatch hgive
      | ok exit =>
          cases pos <;> simp only [continueAt, Option.some.injEq, reduceCtorEq] at h
          subst h
          exact rsyncExit_of_cancel hc hgive
  | gone raised env =>
      cases raised with
      | some _ => exact nomatch hgive
      | none =>
          cases pos <;> simp only [continueAt, Option.some.injEq, reduceCtorEq] at h
          subst h
          exact hcanceled (loopTop_of_cancel hc)
  | create _ _ | pause _ | resume _ | cancel _ | take _ _ | stop | start => exact nomatch h

end Lhre.LogSync
