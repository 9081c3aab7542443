import Mathlib.Tactic
import Lhre.Theory.Steps
import Lhre.LogSync.Turns

/-!
# `LogSync.Coherence` — the queue, the states and the store agree

The queue, the states of the jobs and the store are changed by five handlers and by the task, one after the other and
without a transaction. What relates them holds in every state of the service, as long as no job is created under the id
of another one: the id is the wall clock and a counter that starts over with the process.

## Contents
- **Lookups.** The states after a `record`, and after a `start`.
- **Coherence.** `Coherent`, `Coherent.edit`.
- **Steps.** `turn_cases`, the coherence of what each handler, a turn and `start` leave, `System.coherent_step`.
- **One job.** `Effect`, `effect_of_step`.
-/

namespace Lhre.LogSync

variable {cfg : Config} {svc : Service} {id : JobId} {job : Job} {ctrl : Control} {saved : Option Job} {e : Event}

/-! ## Lookups -/

theorem stateOf_of_jobs {svc' : Service} (h : svc'.jobs = Dict.set id (job, ctrl) svc.jobs) (k : JobId) :
    svc'.stateOf k = if k = id then some job.state else svc.stateOf k := by
  unfold Service.stateOf
  rw [h, Dict.get?_set]
  split <;> rfl

theorem storedState_set (k : JobId) (store : Dict JobId Job) :
    storedState (Dict.set id job store) k = if k = id then some job.state else storedState store k := by
  unfold storedState
  rw [Dict.get?_set]
  split <;> rfl

theorem stateOf_of_get? (h : Dict.get? svc.jobs id = some (job, ctrl)) : svc.stateOf id = some job.state := by
  rw [Service.stateOf, h]
  rfl

theorem get?_start {store : Dict JobId Job} (h : (Dict.keys store).Nodup) (k : JobId) :
    Dict.get? (Service.start store).jobs k =
      (Dict.get? store k).map fun job => (job.reload, { paused := decide (job.state = .paused) }) := by
  have hperm : store.Perm (listJobs store) := (List.perm_insertionSort _ store).symm
  rw [Dict.get?_perm h hperm]
  exact Dict.get?_map (fun job : Job => (job.reload, ({ paused := decide (job.state = .paused) } : Control))) _ k

/-- The state a job comes back with. -/
def JobState.reload (state : JobState) : JobState := if state.interrupted then .queued else state

theorem Job.reload_state (job : Job) : job.reload.state = job.state.reload := by
  unfold Job.reload JobState.reload
  split <;> rfl

theorem stateOf_start {store : Dict JobId Job} (h : (Dict.keys store).Nodup) (k : JobId) :
    (Service.start store).stateOf k = (storedState store k).map JobState.reload := by
  unfold Service.stateOf storedState
  rw [get?_start h]
  cases Dict.get? store k with
  | none => rfl
  | some job => exact congrArg some job.reload_state

theorem mem_queue_start {store : Dict JobId Job} (h : (Dict.keys store).Nodup) {k : JobId} :
    k ∈ (Service.start store).queue ↔ ∃ state, storedState store k = some state ∧ state.interrupted = true := by
  have hperm : (listJobs store).Perm store := List.perm_insertionSort _ store
  show k ∈ ((listJobs store).filter fun entry => entry.2.state.interrupted).map Prod.fst ↔ _
  constructor
  · intro hk
    obtain ⟨⟨k, job⟩, hmem, rfl⟩ := List.mem_map.mp hk
    obtain ⟨hmem, hint⟩ := List.mem_filter.mp hmem
    refine ⟨job.state, ?_, hint⟩
    rw [storedState, (Dict.mem_iff_get? h).mp (hperm.mem_iff.mp hmem)]
    rfl
  · rintro ⟨state, hstate, hint⟩
    obtain ⟨job, hjob, rfl⟩ := Option.map_eq_some_iff.mp hstate
    refine List.mem_map.mpr ⟨(k, job), List.mem_filter.mpr ⟨?_, hint⟩, rfl⟩
    exact hperm.mem_iff.mpr ((Dict.mem_iff_get? h).mpr hjob)

/-! ## Coherence -/

/-- How the queue, the states and the store of a service hang together. -/
structure Coherent (svc : Service) : Prop where
  keys : (Dict.keys svc.store).Nodup
  /-- Every change of a state is persisted at once. -/
  stored : ∀ id, storedState svc.store id = svc.stateOf id
  queue : svc.queue.Nodup
  /-- A job in the queue is queued, unless it was canceled there. -/
  waiting : ∀ id ∈ svc.queue, svc.stateOf id = some .queued ∨ svc.stateOf id = some .canceled
  queued : ∀ id, svc.stateOf id = some .queued → id ∈ svc.queue ∨ svc.holder = some id
  underway : ∀ id state, svc.stateOf id = some state → state.underway → svc.holder = some id
  /-- The job the task runs is in no queue. It is underway, unless the task waits for its first motion reading. -/
  held : ∀ id round pos, svc.worker = some (id, round, pos) →
    id ∉ svc.queue ∧ ∃ state, svc.stateOf id = some state ∧
      (state.underway ∨ pos = .motionGate ∧ (state = .queued ∨ state = .canceled))

/-- No job is created under the id of another one. -/
def System.Fresh : System → Event → Prop
  | .up svc, .create now _ => svc.stateOf (now, svc.seq + 1) = none
  | _, _ => True

/-- A service that is coherent, or the keys of a store. -/
def System.Coherent : System → Prop
  | .down store => (Dict.keys store).Nodup
  | .up svc => LogSync.Coherent svc

theorem holder_eq_some {k : JobId} : svc.holder = some k ↔ ∃ round pos, svc.worker = some (k, round, pos) := by
  unfold Service.holder
  constructor
  · intro h
    obtain ⟨⟨k, round, pos⟩, hw, rfl⟩ := Option.map_eq_some_iff.mp h
    exact ⟨round, pos, hw⟩
  · rintro ⟨round, pos, hw⟩
    rw [hw]
    rfl

/-- **A change of one job keeps a service coherent**, given what the change makes of the queue and of the task. -/
theorem Coherent.edit {queue : List JobId} {seq : ℕ} {worker : Option (JobId × Round × At)} (h : Coherent svc)
    (hsaved : ∀ copy, saved = some copy → copy.state = job.state)
    (hunsaved : saved = none → svc.stateOf id = some job.state)
    (hnodup : queue.Nodup)
    (hqueue : ∀ k, k ≠ id → (k ∈ queue ↔ k ∈ svc.queue))
    (hworker : ∀ k, k ≠ id → ∀ w, worker = some (k, w) ↔ svc.worker = some (k, w))
    (hin : id ∈ queue → job.state = .queued ∨ job.state = .canceled)
    (hqueued : job.state = .queued → id ∈ queue ∨ worker.map Prod.fst = some id)
    (hunderway : job.state.underway → worker.map Prod.fst = some id)
    (hheld : ∀ round pos, worker = some (id, round, pos) →
      id ∉ queue ∧ (job.state.underway ∨ pos = .motionGate ∧ (job.state = .queued ∨ job.state = .canceled))) :
    Coherent { svc.record id job ctrl saved with queue := queue, seq := seq, worker := worker } := by
  have hstate (k : JobId) :
      ({ svc.record id job ctrl saved with queue := queue, seq := seq, worker := worker } : Service).stateOf k =
        if k = id then some job.state else svc.stateOf k := stateOf_of_jobs rfl k
  have hholder {k : JobId} (hk : k ≠ id) (hs : svc.holder = some k) : worker.map Prod.fst = some k := by
    obtain ⟨round, pos, hw⟩ := holder_eq_some.mp hs
    rw [(hworker k hk (round, pos)).mpr hw]
    rfl
  refine ⟨?_, ?_, hnodup, ?_, ?_, ?_, ?_⟩
  · show (Dict.keys (svc.record id job ctrl saved).store).Nodup
    unfold Service.record
    cases saved with
    | none => exact h.keys
    | some copy => exact Dict.nodup_keys_set h.keys _ _
  · intro k
    rw [hstate]
    show storedState (svc.record id job ctrl saved).store k = _
    unfold Service.record
    cases saved with
    | none =>
        dsimp only
        rw [h.stored k]
        split
        · rename_i hk
          rw [hk]
          exact hunsaved rfl
        · rfl
    | some copy =>
        dsimp only
        rw [storedState_set, h.stored k, hsaved copy rfl]
  · intro k hk
    rw [hstate]
    split
    · rename_i heq
      subst heq
      exact (hin hk).imp (congrArg some) (congrArg some)
    · rename_i hne
      exact h.waiting k ((hqueue k hne).mp hk)
  · intro k hk
    rw [hstate] at hk
    split at hk
    · rename_i heq
      subst heq
      exact hqueued (Option.some.inj hk)
    · rename_i hne
      rcases h.queued k hk with hq | hw
      · exact Or.inl ((hqueue k hne).mpr hq)
      · exact Or.inr (hholder hne hw)
  · intro k state hk hu
    rw [hstate] at hk
    split at hk
    · rename_i heq
      subst heq
      exact hunderway (Option.some.inj hk ▸ hu)
    · rename_i hne
      exact hholder hne (h.underway k state hk hu)
  · intro k round pos hw
    rw [hstate]
    by_cases hk : k = id
    · subst hk
      rw [if_pos rfl]
      obtain ⟨hq, hs⟩ := hheld round pos hw
      exact ⟨hq, job.state, rfl, hs⟩
    · rw [if_neg hk]
      obtain ⟨hq, hs⟩ := h.held k round pos ((hworker k hk (round, pos)).mp hw)
      exact ⟨fun hmem => hq ((hqueue k hk).mp hmem), hs⟩

/-! ## Steps -/

variable {t : Turn}

/-- A turn goes on with the job the task runs, or begins with the first of the queue. -/
theorem turn_cases (h : svc.turn cfg e = some t) :
    (∃ round pos job, svc.worker = some (t.id, round, pos) ∧ t.queue = svc.queue ∧
      Dict.get? svc.jobs t.id = some (job, t.ctrl) ∧ continueAt cfg pos round job t.ctrl e = some t.chunk) ∨
    (∃ env listfile job, e = .take env listfile ∧ svc.worker = none ∧ svc.queue = t.id :: t.queue ∧
      Dict.get? svc.jobs t.id = some (job, t.ctrl) ∧ t.chunk = workerLoop job t.ctrl env listfile) := by
  unfold Service.turn at h
  split at h
  · rename_i k round pos hw
    obtain ⟨⟨job, ctrl⟩, hget, hc⟩ := Option.bind_eq_some_iff.mp h
    obtain ⟨chunk, hchunk, rfl⟩ := Option.map_eq_some_iff.mp hc
    exact Or.inl ⟨round, pos, job, hw, rfl, hget, hchunk⟩
  · rename_i hw
    split at h
    · rename_i env listfile k queue hq
      obtain ⟨⟨job, ctrl⟩, hget, rfl⟩ := Option.map_eq_some_iff.mp h
      exact Or.inr ⟨env, listfile, job, rfl, hw, hq, hget, rfl⟩
    · cases h

/-- What a turn of a coherent service is about. -/
structure Turn.Of (svc : Service) (job : Job) (t : Turn) : Prop where
  get : Dict.get? svc.jobs t.id = some (job, t.ctrl)
  sound : Chunk.Sound job t.ctrl t.chunk
  notMem : t.id ∉ t.queue
  nodup : t.queue.Nodup
  queue : ∀ k, k ≠ t.id → (k ∈ t.queue ↔ k ∈ svc.queue)
  worker : ∀ k w, svc.worker = some (k, w) → k = t.id
  state : job.state.underway ∨ job.state = .queued ∨ job.state = .canceled

theorem Coherent.turn (h : Coherent svc) (ht : svc.turn cfg e = some t) : ∃ job, Turn.Of svc job t := by
  rcases turn_cases ht with ⟨round, pos, job, hw, hq, hget, hc⟩ | ⟨env, listfile, job, rfl, hw, hq, hget, hc⟩
  · obtain ⟨hmem, state, hstate, hpos⟩ := h.held t.id round pos hw
    obtain rfl := Option.some.inj ((stateOf_of_get? hget).symm.trans hstate)
    refine ⟨job, hget, continueAt_sound (hpos.imp_right And.left) hc, hq ▸ hmem, hq ▸ h.queue, ?_, ?_, ?_⟩
    · intro k _
      rw [hq]
    · intro k w hk
      exact (congrArg Prod.fst (Option.some.inj (hw.symm.trans hk))).symm
    · exact hpos.imp_right And.right
  · have hnodup := h.queue
    rw [hq] at hnodup
    obtain ⟨hmem, hrest⟩ := List.nodup_cons.mp hnodup
    refine ⟨job, hget, hc ▸ workerLoop_sound, hmem, hrest, ?_, ?_, ?_⟩
    · intro k hk
      rw [hq, List.mem_cons, or_iff_right hk]
    · intro k w hk
      exact nomatch hw.symm.trans hk
    · right
      have hwait := h.waiting t.id (hq ▸ List.mem_cons_self)
      rw [stateOf_of_get? hget] at hwait
      exact hwait.imp Option.some.inj Option.some.inj

theorem Coherent.apply (h : Coherent svc) {job : Job} (ht : Turn.Of svc job t) : Coherent (svc.apply t) := by
  have hworker (w : Round × At) : t.chunk.next.map (t.id, ·) = some (t.id, w) ↔ t.chunk.next = some w := by
    simp [Option.map_eq_some_iff]
  have hholder {w : Round × At} (hn : t.chunk.next = some w) :
      (t.chunk.next.map (t.id, ·)).map Prod.fst = some t.id := by
    rw [hn]
    rfl
  refine h.edit ht.sound.saved ?_ ht.nodup ht.queue ?_ ?_ ?_ ?_ ?_
  · intro hn
    rw [ht.sound.unsaved hn]
    exact stateOf_of_get? ht.get
  · intro k hk w
    constructor
    · intro hw
      obtain ⟨w', -, heq⟩ := Option.map_eq_some_iff.mp hw
      exact absurd (congrArg Prod.fst heq).symm hk
    · exact fun hw => absurd (ht.worker k w hw) hk
  · exact fun hmem => absurd hmem ht.notMem
  · intro hs
    cases hn : t.chunk.next with
    | some w => exact Or.inr rfl
    | none =>
        have hend := ht.sound.ended hn
        simp [hs, JobState.isTerminal] at hend
  · intro hs
    cases hn : t.chunk.next with
    | some w => rfl
    | none =>
        have hend := ht.sound.ended hn
        cases hstate : t.chunk.job.state <;> simp [hstate, JobState.isTerminal, JobState.underway] at hend hs
  · intro round pos hw
    refine ⟨ht.notMem, ?_⟩
    rcases ht.sound.waits round pos ((hworker _).mp hw) with hu | ⟨heq, hpos⟩
    · exact Or.inl hu
    · rw [heq]
      exact ht.state.imp_right fun hs => ⟨hpos, hs⟩

/-- A change of flags alone. -/
theorem Coherent.flags {ctrl' : Control} (h : Coherent svc) (hget : Dict.get? svc.jobs id = some (job, ctrl)) :
    Coherent (svc.record id job ctrl' none) := by
  have hstate := stateOf_of_get? hget
  refine @Coherent.edit svc id job ctrl' none svc.queue svc.seq svc.worker h ?_ (fun _ => hstate) h.queue
    (fun _ _ => Iff.rfl) (fun _ _ _ => Iff.rfl) ?_ ?_ ?_ ?_
  · exact fun _ hn => nomatch hn
  · intro hmem
    have hwait := h.waiting id hmem
    rw [hstate] at hwait
    exact hwait.imp Option.some.inj Option.some.inj
  · exact fun hs => h.queued id (hstate.trans (congrArg some hs))
  · exact fun hu => h.underway id _ hstate hu
  · intro round pos hw
    obtain ⟨hmem, state, hs, hpos⟩ := h.held id round pos hw
    obtain rfl := Option.some.inj (hstate.symm.trans hs)
    exact ⟨hmem, hpos⟩

theorem Coherent.create {svc' : Service} {now : ℕ} {files : List (String × ℕ)} (h : Coherent svc)
    (hfresh : svc.stateOf (now, svc.seq + 1) = none) (hc : svc.create now files = some svc') : Coherent svc' := by
  have hmem : (now, svc.seq + 1) ∉ svc.queue := by
    intro hmem
    rcases h.waiting _ hmem with hs | hs <;> exact nomatch hfresh.symm.trans hs
  unfold Service.create at hc
  dsimp only at hc
  split at hc
  · exact nomatch hc
  rename_i hheld
  obtain rfl := Option.some.inj hc
  refine h.edit ?_ (fun hn => nomatch hn) ?_ ?_ (fun _ _ _ => Iff.rfl) (fun _ => Or.inl rfl) ?_ (fun hu => nomatch hu) ?_
  · intro copy hcopy
    exact congrArg Job.state (Option.some.inj hcopy).symm
  · exact List.nodup_append.mpr ⟨h.queue, List.nodup_singleton _, fun a ha b hb heq => hmem (by
      rw [← List.mem_singleton.mp hb, ← heq]
      exact ha)⟩
  · intro k hk
    rw [List.mem_append, List.mem_singleton, or_iff_left hk]
  · exact fun _ => Or.inl (List.mem_append_right _ List.mem_cons_self)
  · intro round pos hw
    exact absurd (congrArg (Option.map Prod.fst) hw) hheld

theorem Coherent.pause (h : Coherent svc) (id : JobId) : Coherent (svc.pause id).2 := by
  unfold Service.pause
  split
  · exact h
  · rename_i job ctrl hget
    split
    · exact h
    · exact h.flags hget

/-- What is in the queue or run is neither paused nor at an end. -/
theorem Coherent.apart (h : Coherent svc) (hs : svc.stateOf id = some .paused ∨ svc.stateOf id = some .failed) :
    id ∉ svc.queue ∧ svc.holder ≠ some id := by
  constructor
  · intro hmem
    rcases h.waiting id hmem with hw | hw <;> simp [hw] at hs
  · intro hholder
    obtain ⟨round, pos, hw⟩ := holder_eq_some.mp hholder
    obtain ⟨-, state, hstate, hpos⟩ := h.held id round pos hw
    rw [hstate] at hs
    cases state <;> simp [JobState.underway] at hs hpos

theorem Coherent.resume (h : Coherent svc) (id : JobId) : Coherent (svc.resume id).2 := by
  unfold Service.resume
  split
  · exact h
  · rename_i job ctrl hget
    split
    · dsimp only
      split
      · rename_i hs
        have hapart := @Coherent.apart svc id h (by
          rw [stateOf_of_get? hget]
          simpa using hs)
        refine h.edit ?_ (fun hn => nomatch hn) ?_ ?_ (fun _ _ _ => Iff.rfl) (fun _ => Or.inl rfl) ?_
          (fun hu => nomatch hu) ?_
        · intro copy hcopy
          exact congrArg Job.state (Option.some.inj hcopy).symm
        · exact List.nodup_append.mpr ⟨h.queue, List.nodup_singleton _, fun a ha b hb heq => hapart.1 (by
            rw [← List.mem_singleton.mp hb, ← heq]
            exact ha)⟩
        · intro k hk
          rw [List.mem_append, List.mem_singleton, or_iff_left hk]
        · exact fun _ => Or.inl (List.mem_append_right _ List.mem_cons_self)
        · intro round pos hw
          exact absurd (holder_eq_some.mpr ⟨round, pos, hw⟩) hapart.2
      · exact h.flags hget
    · exact h

theorem Coherent.cancel (h : Coherent svc) (id : JobId) : Coherent (svc.cancel id).2 := by
  unfold Service.cancel
  split
  · exact h
  · rename_i job ctrl hget
    split
    · exact h
    · dsimp only
      split
      · rename_i hs
        refine @Coherent.edit svc id (job.setState .canceled) { ctrl with cancel := true, resume := true }
          (some (job.setState .canceled)) svc.queue svc.seq svc.worker h ?_ (fun hn => nomatch hn)
          h.queue (fun _ _ => Iff.rfl) (fun _ _ _ => Iff.rfl) (fun _ => Or.inr rfl)
          (fun hq => nomatch hq) (fun hu => nomatch hu) ?_
        · intro copy hcopy
          exact congrArg Job.state (Option.some.inj hcopy).symm
        · intro round pos hw
          obtain ⟨hmem, state, hstate, hpos⟩ := h.held id round pos hw
          obtain rfl := Option.some.inj ((stateOf_of_get? hget).symm.trans hstate)
          refine ⟨hmem, Or.inr ⟨?_, Or.inr rfl⟩⟩
          rcases hpos with hu | ⟨hpos, -⟩
          · rcases List.mem_cons.mp hs with hs | hs
            · simp [hs, JobState.underway] at hu
            · simp [List.mem_singleton.mp hs, JobState.underway] at hu
          · exact hpos
      · exact h.flags hget

theorem Coherent.start {store : Dict JobId Job} (h : (Dict.keys store).Nodup) : Coherent (Service.start store) := by
  have hperm : (listJobs store).Perm store := List.perm_insertionSort _ store
  refine ⟨?_, ?_, ?_, ?_, ?_, ?_, ?_⟩
  · have hkeys : Dict.keys (Service.start store).store = Dict.keys store := by
      simp [Dict.keys, Service.start, Function.comp_def]
    rw [hkeys]
    exact h
  · intro k
    rw [stateOf_start h]
    unfold storedState
    rw [show (Service.start store).store = store.map fun entry => (entry.1, entry.2.reload) from rfl, Dict.get?_map]
    cases Dict.get? store k with
    | none => rfl
    | some job => exact congrArg some job.reload_state
  · have hnodup : ((listJobs store).map Prod.fst).Nodup := (hperm.map Prod.fst).nodup_iff.mpr h
    exact hnodup.sublist ((List.filter_sublist (l := listJobs store)).map Prod.fst)
  · intro k hk
    obtain ⟨state, hstate, hint⟩ := (mem_queue_start h).mp hk
    left
    rw [stateOf_start h, hstate]
    exact congrArg some (if_pos hint)
  · intro k hk
    left
    rw [stateOf_start h] at hk
    obtain ⟨state, hstate, hreload⟩ := Option.map_eq_some_iff.mp hk
    refine (mem_queue_start h).mpr ⟨state, hstate, ?_⟩
    cases state <;> first | rfl | cases hreload
  · intro k state hk hu
    rw [stateOf_start h] at hk
    obtain ⟨old, -, rfl⟩ := Option.map_eq_some_iff.mp hk
    cases old <;> cases hu
  · intro _ _ _ hw
    cases hw

/-- **Every step keeps the system coherent**, as long as no job is created under the id of another one. -/
theorem System.coherent_step {s s' : System} (h : s.Coherent) (hfresh : s.Fresh e) (hs : s.step cfg e = some s') :
    s'.Coherent := by
  cases s with
  | down store =>
      cases e with
      | start =>
          obtain rfl := Option.some.inj hs
          exact Coherent.start h
      | _ => exact nomatch hs
  | up svc =>
      have h : LogSync.Coherent svc := h
      have hturn (hs : ((svc.turn cfg e).map fun t => System.up (svc.apply t)) = some s') : s'.Coherent := by
        obtain ⟨t, ht, rfl⟩ := Option.map_eq_some_iff.mp hs
        obtain ⟨job, hof⟩ := h.turn ht
        exact h.apply hof
      cases e with
      | create now files =>
          obtain ⟨svc', hc, rfl⟩ := Option.map_eq_some_iff.mp hs
          exact h.create hfresh hc
      | pause id =>
          obtain rfl := Option.some.inj hs
          exact h.pause id
      | resume id =>
          obtain rfl := Option.some.inj hs
          exact h.resume id
      | cancel id =>
          obtain rfl := Option.some.inj hs
          exact h.cancel id
      | stop =>
          obtain rfl := Option.some.inj hs
          exact h.keys
      | start => exact nomatch hs
      | _ => exact hturn hs

/-! ## One job -/

/-- What a step makes of one job: nothing, or one of the things that are done to it. -/
inductive Effect (cfg : Config) (id : JobId) (svc : Service) (e : Event) (svc' : Service) : Prop
  | nothing (hget : Dict.get? svc'.jobs id = Dict.get? svc.jobs id)
      (hholder : svc'.holder = some id ↔ svc.holder = some id)
  | create (hnew : svc.stateOf id = none)
  | pause (he : e = .pause id) {job : Job} {ctrl : Control} (hget : Dict.get? svc.jobs id = some (job, ctrl))
      (hstate : job.state.isTerminal = false)
      (hsvc : svc' = svc.record id job { ctrl with paused := true, resume := false } none)
  | resume (he : e = .resume id) (hresume : (svc.resume id).1 = true) (hsvc : svc' = (svc.resume id).2)
  | cancel (he : e = .cancel id) {job : Job} {ctrl : Control} (hget : Dict.get? svc.jobs id = some (job, ctrl))
      (hstate : job.state.isTerminal = false) (hsvc : svc' = (svc.cancel id).2)
  | turn {t : Turn} {job : Job} (hturn : svc.turn cfg e = some t) (hof : Turn.Of svc job t) (hid : t.id = id)
      (hsvc : svc' = svc.apply t)

/-- A refused resume changes nothing. -/
theorem resume_refused (h : (svc.resume id).1 = false) : (svc.resume id).2 = svc := by
  unfold Service.resume at h ⊢
  split at h
  · rfl
  · dsimp only at h
    split at h
    · split at h <;> exact nomatch h
    · rename_i hs
      rw [if_neg hs]

theorem resume_other {k : JobId} (hk : k ≠ id) :
    Dict.get? (svc.resume id).2.jobs k = Dict.get? svc.jobs k ∧ (svc.resume id).2.worker = svc.worker := by
  unfold Service.resume
  split
  · exact ⟨rfl, rfl⟩
  · dsimp only
    split
    · split <;> exact ⟨Dict.get?_set_of_ne hk _ _, rfl⟩
    · exact ⟨rfl, rfl⟩

theorem cancel_other {k : JobId} (hk : k ≠ id) :
    Dict.get? (svc.cancel id).2.jobs k = Dict.get? svc.jobs k ∧ (svc.cancel id).2.worker = svc.worker := by
  unfold Service.cancel
  split
  · exact ⟨rfl, rfl⟩
  · dsimp only
    split
    · exact ⟨rfl, rfl⟩
    · split <;> exact ⟨Dict.get?_set_of_ne hk _ _, rfl⟩

/-- A job that has ended is not canceled. -/
theorem cancel_refused (h : ∀ entry, Dict.get? svc.jobs id = some entry → entry.1.state.isTerminal = true) :
    (svc.cancel id).2 = svc := by
  unfold Service.cancel
  split
  · rfl
  · rename_i job ctrl hget
    dsimp only
    rw [if_pos (h _ hget)]

theorem Effect.of_turn (h : Coherent svc) (ht : svc.turn cfg e = some t) (id : JobId) :
    Effect cfg id svc e (svc.apply t) := by
  obtain ⟨job, hof⟩ := h.turn ht
  by_cases hid : t.id = id
  · exact .turn ht hof hid rfl
  · refine .nothing (Dict.get?_set_of_ne (Ne.symm hid) _ _) ?_
    constructor
    · intro hh
      obtain ⟨round, pos, hw⟩ := holder_eq_some.mp hh
      obtain ⟨w, -, heq⟩ := Option.map_eq_some_iff.mp hw
      exact absurd (congrArg Prod.fst heq) hid
    · intro hh
      obtain ⟨round, pos, hw⟩ := holder_eq_some.mp hh
      exact absurd (hof.worker id _ hw).symm hid

theorem Effect.of_create {now : ℕ} {files : List (String × ℕ)} {made : Service}
    (hfresh : (System.up svc).Fresh (.create now files)) (hc : svc.create now files = some made) (id : JobId) :
    Effect cfg id svc (.create now files) made := by
  by_cases hid : id = (now, svc.seq + 1)
  · exact .create (hid ▸ hfresh)
  · unfold Service.create at hc
    dsimp only at hc
    split at hc
    · exact nomatch hc
    · obtain rfl := Option.some.inj hc
      exact .nothing (Dict.get?_set_of_ne hid _ _) Iff.rfl

theorem Effect.of_pause (k id : JobId) : Effect cfg id svc (.pause k) (svc.pause k).2 := by
  unfold Service.pause
  split
  · exact .nothing rfl Iff.rfl
  · rename_i job ctrl hget
    split
    · exact .nothing rfl Iff.rfl
    · rename_i hterm
      by_cases hid : id = k
      · subst hid
        exact .pause rfl hget (Bool.eq_false_iff.mpr hterm) rfl
      · exact .nothing (Dict.get?_set_of_ne hid _ _) Iff.rfl

theorem Effect.of_resume (k id : JobId) : Effect cfg id svc (.resume k) (svc.resume k).2 := by
  by_cases hid : id = k
  · subst hid
    cases haccept : (svc.resume id).1 with
    | true => exact .resume rfl haccept rfl
    | false =>
        rw [resume_refused haccept]
        exact .nothing rfl Iff.rfl
  · obtain ⟨hget, hw⟩ := @resume_other svc k id hid
    refine .nothing hget ?_
    rw [Service.holder, hw]
    rfl

theorem Effect.of_cancel (k id : JobId) : Effect cfg id svc (.cancel k) (svc.cancel k).2 := by
  by_cases hid : id = k
  · subst hid
    by_cases hended : ∀ entry, Dict.get? svc.jobs id = some entry → entry.1.state.isTerminal = true
    · rw [cancel_refused hended]
      exact .nothing rfl Iff.rfl
    · push Not at hended
      obtain ⟨entry, hget, hterm⟩ := hended
      exact .cancel rfl hget (Bool.eq_false_iff.mpr hterm) rfl
  · obtain ⟨hget, hw⟩ := @cancel_other svc k id hid
    refine .nothing hget ?_
    rw [Service.holder, hw]
    rfl

/-- **What a step of the service can make of a job.** -/
theorem effect_of_step {svc' : Service} (h : Coherent svc) (hfresh : (System.up svc).Fresh e)
    (hs : System.step cfg (.up svc) e = some (.up svc')) (id : JobId) : Effect cfg id svc e svc' := by
  have hup {a b : Service} (h : some (System.up a) = some (.up b)) : b = a := by
    injection h with h
    injection h with h
    exact h.symm
  have hmap {α : Type} {o : Option α} {f : α → Service} (h : (o.map fun a => System.up (f a)) = some (.up svc')) :
      ∃ a, o = some a ∧ svc' = f a := by
    obtain ⟨a, ha, heq⟩ := Option.map_eq_some_iff.mp h
    injection heq with heq
    exact ⟨a, ha, heq.symm⟩
  have hturn (hs : ((svc.turn cfg e).map fun t => System.up (svc.apply t)) = some (.up svc')) :
      Effect cfg id svc e svc' := by
    obtain ⟨t, ht, rfl⟩ := hmap hs
    exact .of_turn h ht id
  cases e with
  | create now files =>
      obtain ⟨made, hc, rfl⟩ := hmap hs
      exact .of_create hfresh hc id
  | pause k =>
      obtain rfl := hup hs
      exact .of_pause k id
  | resume k =>
      obtain rfl := hup hs
      exact .of_resume k id
  | cancel k =>
      obtain rfl := hup hs
      exact .of_cancel k id
  | stop => exact nomatch hs
  | start => exact nomatch hs
  | _ => exact hturn hs

end Lhre.LogSync
