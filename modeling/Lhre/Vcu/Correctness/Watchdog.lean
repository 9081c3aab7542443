import Lhre.Vcu.TickFacts

/-!
# `Correctness.Watchdog` — the watchdog is refreshed while both tasks beat

The control task, the telemetry task and the supervisor run in any order. The supervisor keeps, for each of the two tasks,
the count it saw last and the time of the last sign of life: the first tick at which it looked, or one at which the count
had moved. Nothing else is in what it decides, so it refreshes exactly while both signs are younger than the deadlines.

## Contents
- **Runs.** `AppEvent`, `AppRun`, `EventsClocked`.
- **Looks.** `TakesBootloader`, `Looks`, `lastSeen`, `Sign`, `Alive`.
- **What the supervisor knows.** `Known`, `Known.look`, `Known.unseen`, `watch_known`.
- **`watchdog_refreshed`.**
-/

namespace Lhre.Vcu

open Lhal Can Longhorn

/-! ## Runs -/

/-- One event of the app: a control tick, or what another task does. -/
inductive AppEvent
  | control (x : TickInputs)
  | task (e : TaskEvent)

/-- The app after an event. -/
def App.event (env : Env) (a : App) : AppEvent → App
  | .control x => (a.controlTick env x).1
  | .task e => a.taskEvent env e

/-- The app after the first `n` events. -/
def eventState (env : Env) (ρ : ℕ → AppEvent) (n : ℕ) : App := Trace.stateAt (App.event env) (App.boot env) ρ n

/-- The supervisor ticks read the true time `t`, of which the clock has 32 bits. -/
structure EventsClocked (ρ : ℕ → AppEvent) (t : ℕ → ℕ) : Prop where
  mono : Monotone t
  now : ∀ n now, ρ n = .task (.supervisor now) → now = BitVec.ofNat 32 (t n)

/-! ## Looks -/

/-- A task the supervisor watches. -/
inductive Watched
  | control
  | telemetry
deriving DecidableEq

/-- Its beat counter. -/
def Watched.beats : Watched → App → U32
  | .control => App.controlBeats
  | .telemetry => App.telemetryBeats

/-- The count the supervisor saw last. -/
def Watched.seen : Watched → App → U32
  | .control => App.seenControlBeats
  | .telemetry => App.seenTelemetryBeats

/-- The time the supervisor has of its last sign of life. -/
def Watched.progressMs : Watched → App → U32
  | .control => App.controlProgressMs
  | .telemetry => App.telemetryProgressMs

/-- Its deadline. -/
def Watched.deadlineMs : Watched → U32
  | .control => kControlDeadlineMs
  | .telemetry => kTelemetryDeadlineMs

section Looks

variable (env : Env) (ρ : ℕ → AppEvent)

/-- Event `n` is a supervisor tick. -/
def Supervises (n : ℕ) : Prop := ∃ now, ρ n = .task (.supervisor now)

/-- A bootloader request is taken at the supervisor tick `n`. -/
def TakesBootloader (n : ℕ) : Prop :=
  Supervises ρ n ∧ (eventState env ρ n).bootloaderRequest = true ∧ env.hasBoard = true

/-- The supervisor looks at the beat counters at event `n`. -/
def Looks (n : ℕ) : Prop := Supervises ρ n ∧ ¬ TakesBootloader env ρ n

open scoped Classical in
/-- The count the supervisor has seen before event `n`. -/
noncomputable def lastSeen (w : Watched) : ℕ → U32
  | 0 => 0
  | n + 1 => if Looks env ρ n then w.beats (eventState env ρ n) else lastSeen w n

/-- The supervisor looks for the first time. -/
def FirstLook (n : ℕ) : Prop := Looks env ρ n ∧ ∀ j, j < n → ¬ Looks env ρ j

/-- The supervisor sees that the count of a task has moved. -/
def Moved (w : Watched) (n : ℕ) : Prop := Looks env ρ n ∧ w.beats (eventState env ρ n) ≠ lastSeen env ρ w n

/-- A sign of life of a task. -/
def Sign (w : Watched) (n : ℕ) : Prop := Moved env ρ w n ∨ FirstLook env ρ n

/-- At event `n` the count of a task was seen to move, or the first look was, less than its deadline ago. -/
def Alive (t : ℕ → ℕ) (w : Watched) (n : ℕ) : Prop :=
  (∃ m, m ≤ n ∧ Moved env ρ w m ∧ t n < t m + w.deadlineMs.toNat) ∨
    ∃ m, m ≤ n ∧ FirstLook env ρ m ∧ t n < t m + w.deadlineMs.toNat

/-- The last sign of life of a task up to event `n`. -/
def LastSign (w : Watched) (m n : ℕ) : Prop :=
  m ≤ n ∧ Sign env ρ w m ∧ ∀ j, m < j → j ≤ n → ¬ Sign env ρ w j

/-- Every stall up to event `n` is shorter than the span of the clock. -/
def ShortStall (t : ℕ → ℕ) (w : Watched) (n : ℕ) : Prop := ∀ m, LastSign env ρ w m n → t n < t m + 2 ^ 32

/-- What the supervisor tick `n` asks of the hardware. -/
def Refreshes (n : ℕ) : Prop :=
  ∃ now, ρ n = .task (.supervisor now) ∧ ((eventState env ρ n).supervisorTick env now).2.watchdogRefresh = true

end Looks

/-! ## What the supervisor knows -/

/-- `b` has what the supervisor knows from `a`. -/
structure App.SameWatch (a b : App) : Prop where
  started : b.watchdogStarted = a.watchdogStarted
  seenControl : b.seenControlBeats = a.seenControlBeats
  seenTelemetry : b.seenTelemetryBeats = a.seenTelemetryBeats
  control : b.controlProgressMs = a.controlProgressMs
  telemetry : b.telemetryProgressMs = a.telemetryProgressMs

theorem App.SameWatch.trans {a b c : App} (h : a.SameWatch b) (h' : b.SameWatch c) : a.SameWatch c where
  started := h'.started.trans h.started
  seenControl := h'.seenControl.trans h.seenControl
  seenTelemetry := h'.seenTelemetry.trans h.seenTelemetry
  control := h'.control.trans h.control
  telemetry := h'.telemetry.trans h.telemetry

theorem App.SameWatch.watched {a b : App} (h : a.SameWatch b) (w : Watched) :
    b.watchdogStarted = a.watchdogStarted ∧ w.seen b = w.seen a ∧ w.progressMs b = w.progressMs a := by
  cases w with
  | control => exact ⟨h.started, h.seenControl, h.control⟩
  | telemetry => exact ⟨h.started, h.seenTelemetry, h.telemetry⟩

theorem App.updateTorque_watch (env : Env) (b : App) (now dtMs : U32) (fresh : Bool) :
    b.SameWatch (b.updateTorque env now dtMs fresh) := by
  unfold App.updateTorque App.arbitrateTorque
  constructor <;> rfl

theorem App.applyModeRequests_watch (env : Env) (b : App) : b.SameWatch (b.applyModeRequests env) := by
  unfold App.applyModeRequests
  split
  · constructor <;> rfl
  · split <;> constructor <;> rfl

theorem App.stepState_watch (env : Env) (a : App) (x : TickInputs) : a.SameWatch (a.stepState env x) := by
  constructor <;> rfl

/-- **A control tick leaves what the supervisor knows alone.** -/
theorem App.controlTick_watch (env : Env) (a : App) (x : TickInputs) : a.SameWatch (a.controlTick env x).1 := by
  have hcommand : a.SameWatch (a.command env x) := by
    rw [App.command_eq]
    exact ((a.stepState_watch env x).trans (App.applyModeRequests_watch env _)).trans
      (App.updateTorque_watch env (a.moded env x) _ _ _)
  constructor
  · rw [a.controlTick_of_command env x App.watchdogStarted (fun _ _ _ _ _ => rfl), hcommand.started]
  · rw [a.controlTick_of_command env x App.seenControlBeats (fun _ _ _ _ _ => rfl), hcommand.seenControl]
  · rw [a.controlTick_of_command env x App.seenTelemetryBeats (fun _ _ _ _ _ => rfl), hcommand.seenTelemetry]
  · rw [a.controlTick_of_command env x App.controlProgressMs (fun _ _ _ _ _ => rfl), hcommand.control]
  · rw [a.controlTick_of_command env x App.telemetryProgressMs (fun _ _ _ _ _ => rfl), hcommand.telemetry]

section Known

variable {env : Env} {ρ : ℕ → AppEvent}

theorem eventState_succ (n : ℕ) : eventState env ρ (n + 1) = (eventState env ρ n).event env (ρ n) := rfl

/-- A supervisor tick that looks. -/
theorem supervisorTick_look {a : App} (now : U32) (h : ¬ (a.bootloaderRequest = true ∧ env.hasBoard = true))
    (w : Watched) :
    (a.supervisorTick env now).1.watchdogStarted = true ∧ w.seen (a.supervisorTick env now).1 = w.beats a ∧
      w.progressMs (a.supervisorTick env now).1 =
        if w.beats a ≠ w.seen a then now else if a.watchdogStarted then w.progressMs a else now := by
  unfold App.supervisorTick
  rw [if_neg (by simpa using h)]
  cases w with
  | control =>
      refine ⟨rfl, rfl, ?_⟩
      simp only [Watched.progressMs, Watched.beats, Watched.seen, bne_iff_ne]
      congr
  | telemetry =>
      refine ⟨rfl, rfl, ?_⟩
      simp only [Watched.progressMs, Watched.beats, Watched.seen, bne_iff_ne]
      congr

/-- A supervisor tick that takes a bootloader request. -/
theorem supervisorTick_taken {a : App} {now : U32} (h : a.bootloaderRequest = true ∧ env.hasBoard = true)
    (w : Watched) :
    (a.supervisorTick env now).1.watchdogStarted = a.watchdogStarted ∧
      w.seen (a.supervisorTick env now).1 = w.seen a ∧
      w.progressMs (a.supervisorTick env now).1 = w.progressMs a := by
  unfold App.supervisorTick
  rw [if_pos (by simpa using h)]
  cases w <;> exact ⟨rfl, rfl, rfl⟩

/-- An event that is no look leaves what the supervisor knows alone. -/
theorem event_unseen {n : ℕ} (h : ¬ Looks env ρ n) (w : Watched) :
    (eventState env ρ (n + 1)).watchdogStarted = (eventState env ρ n).watchdogStarted ∧
      w.seen (eventState env ρ (n + 1)) = w.seen (eventState env ρ n) ∧
      w.progressMs (eventState env ρ (n + 1)) = w.progressMs (eventState env ρ n) := by
  rw [eventState_succ]
  cases hevent : ρ n with
  | control x => exact (App.controlTick_watch env _ x).watched w
  | task e =>
      cases e with
      | modeCommand mode => cases w <;> exact ⟨rfl, rfl, rfl⟩
      | launchCommand => cases w <;> exact ⟨rfl, rfl, rfl⟩
      | dfuRequest => cases w <;> exact ⟨rfl, rfl, rfl⟩
      | telemetry now => cases w <;> exact ⟨rfl, rfl, rfl⟩
      | supervisor now =>
          have hsupervises : Supervises ρ n := ⟨now, hevent⟩
          have htaken : TakesBootloader env ρ n := by
            by_contra hno
            exact h ⟨hsupervises, hno⟩
          exact supervisorTick_taken htaken.2 w

/-- A look. -/
theorem event_look {n : ℕ} (h : Looks env ρ n) : ∃ now, ρ n = .task (.supervisor now) ∧
    ¬ ((eventState env ρ n).bootloaderRequest = true ∧ env.hasBoard = true) := by
  obtain ⟨⟨now, hnow⟩, hno⟩ := h
  exact ⟨now, hnow, fun htaken => hno ⟨⟨now, hnow⟩, htaken⟩⟩

/-- What the supervisor knows before event `n`: the count of a task it saw last, and the time of its last sign. -/
def Known (env : Env) (ρ : ℕ → AppEvent) (t : ℕ → ℕ) (w : Watched) (n : ℕ) : Prop :=
  w.seen (eventState env ρ n) = lastSeen env ρ w n ∧
    (((eventState env ρ n).watchdogStarted = false ∧ ∀ j, j < n → ¬ Looks env ρ j) ∨
      ((eventState env ρ n).watchdogStarted = true ∧ ∃ m, m < n ∧ Sign env ρ w m ∧
        (∀ j, m < j → j < n → ¬ Sign env ρ w j) ∧
        w.progressMs (eventState env ρ n) = BitVec.ofNat 32 (t m) ∧ ∃ j, j < n ∧ Looks env ρ j))

theorem Sign.looks {w : Watched} {n : ℕ} (h : Sign env ρ w n) : Looks env ρ n := by
  rcases h with hmove | hfirst
  · exact hmove.1
  · exact hfirst.1

/-- At a look it takes the count, and the time if the count has moved or this is its first look. -/
theorem Known.look {t : ℕ → ℕ} (hclock : EventsClocked ρ t) {w : Watched} {n : ℕ} (h : Known env ρ t w n)
    (hlook : Looks env ρ n) : Known env ρ t w (n + 1) := by
  obtain ⟨hseen, hprogress⟩ := h
  obtain ⟨now, hnow, hno⟩ := event_look hlook
  have hnext : eventState env ρ (n + 1) = ((eventState env ρ n).supervisorTick env now).1 := by
    rw [eventState_succ, hnow]
    rfl
  obtain ⟨hstarted', hseen', hprogress'⟩ := supervisorTick_look now hno w
  rw [← hnext] at hstarted' hseen' hprogress'
  refine ⟨?_, Or.inr ⟨hstarted', ?_⟩⟩
  · rw [hseen', lastSeen, if_pos hlook]
  by_cases hmoved : w.beats (eventState env ρ n) ≠ w.seen (eventState env ρ n)
  · rw [if_pos hmoved] at hprogress'
    refine ⟨n, Nat.lt_succ_self n, Or.inl ⟨hlook, hseen ▸ hmoved⟩, ?_, ?_, n, Nat.lt_succ_self n, hlook⟩
    · intro j hj hj'
      omega
    · rw [hprogress', hclock.now n now hnow]
  · rw [if_neg hmoved] at hprogress'
    rcases hprogress with ⟨hstarted, hnone⟩ | ⟨hstarted, m, hm, hsign, hsince, hms, -⟩
    · rw [hstarted] at hprogress'
      refine ⟨n, Nat.lt_succ_self n, Or.inr ⟨hlook, hnone⟩, ?_, ?_, n, Nat.lt_succ_self n, hlook⟩
      · intro j hj hj'
        omega
      · rw [hprogress', hclock.now n now hnow]
        rfl
    · rw [hstarted] at hprogress'
      refine ⟨m, Nat.lt_succ_of_lt hm, hsign, ?_, ?_, n, Nat.lt_succ_self n, hlook⟩
      · intro j hj hj'
        rcases Nat.lt_succ_iff_lt_or_eq.mp hj' with hlt | rfl
        · exact hsince j hj hlt
        · rintro (hmove | hfirst)
          · exact hmoved (hseen ▸ hmove.2)
          · -- the last sign was at a look
            exact hfirst.2 m hm hsign.looks
      · rw [hprogress', if_pos rfl, hms]

/-- At any other event it keeps both. -/
theorem Known.unseen {t : ℕ → ℕ} {w : Watched} {n : ℕ} (h : Known env ρ t w n) (hlook : ¬ Looks env ρ n) :
    Known env ρ t w (n + 1) := by
  obtain ⟨hseen, hprogress⟩ := h
  obtain ⟨hstarted', hseen', hprogress'⟩ := event_unseen hlook w
  refine ⟨?_, ?_⟩
  · rw [hseen', hseen, lastSeen, if_neg hlook]
  · rw [hstarted', hprogress']
    rcases hprogress with ⟨hstarted, hnone⟩ | ⟨hstarted, m, hm, hsign, hsince, hms, j, hj, hlooked⟩
    · left
      refine ⟨hstarted, ?_⟩
      intro j hj
      rcases Nat.lt_succ_iff_lt_or_eq.mp hj with hlt | rfl
      · exact hnone j hlt
      · exact hlook
    · right
      refine ⟨hstarted, m, Nat.lt_succ_of_lt hm, hsign, ?_, hms, j, Nat.lt_succ_of_lt hj, hlooked⟩
      intro i hi hi'
      rcases Nat.lt_succ_iff_lt_or_eq.mp hi' with hlt | rfl
      · exact hsince i hi hlt
      · exact fun hsigned => hlook hsigned.looks

/-- **What the supervisor knows** holds before every event. -/
theorem watch_known {t : ℕ → ℕ} (hclock : EventsClocked ρ t) (w : Watched) (n : ℕ) : Known env ρ t w n := by
  induction n with
  | zero =>
      refine ⟨?_, Or.inl ⟨rfl, fun j hj => absurd hj (Nat.not_lt_zero j)⟩⟩
      cases w <;> rfl
  | succ n ih =>
      by_cases hlook : Looks env ρ n
      · exact ih.look hclock hlook
      · exact ih.unseen hlook

/-- **After a look** the supervisor has the time of the last sign of each task. -/
theorem progress_known {t : ℕ → ℕ} (hclock : EventsClocked ρ t) {n : ℕ} (hlook : Looks env ρ n) (w : Watched) :
    ∃ m, LastSign env ρ w m n ∧ w.progressMs (eventState env ρ (n + 1)) = BitVec.ofNat 32 (t m) := by
  rcases (@watch_known env ρ t hclock w (n + 1)).2 with ⟨-, hnone⟩ | ⟨-, m, hm, hsign, hsince, hms, -⟩
  · exact absurd hlook (hnone n (Nat.lt_succ_self n))
  · refine ⟨m, ⟨Nat.le_of_lt_succ hm, hsign, ?_⟩, hms⟩
    intro j hj hj'
    exact hsince j hj (Nat.lt_succ_of_le hj')

/-- A task is alive while its last sign is younger than its deadline. -/
theorem alive_iff {t : ℕ → ℕ} (hmono : Monotone t) {w : Watched} {m n : ℕ} (hlast : LastSign env ρ w m n) :
    Alive env ρ t w n ↔ t n < t m + w.deadlineMs.toNat := by
  obtain ⟨hm, hsign, hsince⟩ := hlast
  have hearlier : ∀ j, j ≤ n → Sign env ρ w j → t j ≤ t m := by
    intro j hj hsign'
    apply hmono
    by_contra hlt
    exact hsince j (not_le.mp hlt) hj hsign'
  constructor
  · rintro (⟨j, hj, hmove, hage⟩ | ⟨j, hj, hfirst, hage⟩)
    · have hle := hearlier j hj (Or.inl hmove)
      omega
    · have hle := hearlier j hj (Or.inr hfirst)
      omega
  · intro hage
    rcases hsign with hmove | hfirst
    · left
      exact ⟨m, hm, hmove, hage⟩
    · right
      exact ⟨m, hm, hfirst, hage⟩

end Known

/-! ## The claim -/

/-- The health test of a look, in terms of what it leaves behind. -/
theorem watchdogRefresh_eq {env : Env} {a : App} {now : U32}
    (h : ¬ (a.bootloaderRequest = true ∧ env.hasBoard = true)) :
    (a.supervisorTick env now).2.watchdogRefresh = true ↔
      ∀ w : Watched, elapsedMs now (w.progressMs (a.supervisorTick env now).1) w.deadlineMs = false := by
  have hboth : (a.supervisorTick env now).2.watchdogRefresh =
      (!elapsedMs now (Watched.control.progressMs (a.supervisorTick env now).1) kControlDeadlineMs &&
        !elapsedMs now (Watched.telemetry.progressMs (a.supervisorTick env now).1) kTelemetryDeadlineMs) := by
    unfold App.supervisorTick
    rw [if_neg (by simpa using h)]
    rfl
  rw [hboth, Bool.and_eq_true, Bool.not_eq_true', Bool.not_eq_true']
  constructor
  · rintro ⟨hcontrol, htelemetry⟩ w
    cases w with
    | control => exact hcontrol
    | telemetry => exact htelemetry
  · intro hall
    exact ⟨hall .control, hall .telemetry⟩

/-- A supervisor tick that does not refresh writes the safe outputs. -/
theorem safe_of_not_refresh {env : Env} {a : App} {now : U32}
    (h : (a.supervisorTick env now).2.watchdogRefresh ≠ true) :
    (a.supervisorTick env now).1.outputPins = safeOutputs := by
  unfold App.supervisorTick at h ⊢
  split
  · rfl
  · rename_i hlook
    rw [if_neg hlook] at h
    exact if_neg h

/-- **The watchdog is refreshed while both tasks beat.** A supervisor tick refreshes it exactly when it takes no bootloader
    request and each watched task is alive, and writes the safe outputs otherwise; and it does not refresh once one task's
    last sign of life is as old as its deadline, whatever the other one does. -/
theorem watchdog_refreshed (env : Env) (ρ : ℕ → AppEvent) (t : ℕ → ℕ) (hclock : EventsClocked ρ t) (n : ℕ)
    (hsupervises : Supervises ρ n) (hshort : ∀ w, ShortStall env ρ t w n) :
    (Refreshes env ρ n ↔ ¬ TakesBootloader env ρ n ∧ ∀ w, Alive env ρ t w n) ∧
      (¬ Refreshes env ρ n → (eventState env ρ (n + 1)).outputPins = safeOutputs) ∧
      ∀ w m, LastSign env ρ w m n → t m + w.deadlineMs.toNat ≤ t n → ¬ Refreshes env ρ n := by
  obtain ⟨now, hnow⟩ := hsupervises
  have hnext : eventState env ρ (n + 1) = ((eventState env ρ n).supervisorTick env now).1 := by
    rw [eventState_succ, hnow]
    rfl
  have hrefreshes : Refreshes env ρ n ↔ ((eventState env ρ n).supervisorTick env now).2.watchdogRefresh = true := by
    constructor
    · rintro ⟨now', hnow', hrefresh⟩
      rw [hnow, AppEvent.task.injEq, TaskEvent.supervisor.injEq] at hnow'
      rwa [hnow']
    · intro hrefresh
      exact ⟨now, hnow, hrefresh⟩
  have hiff : Refreshes env ρ n ↔ ¬ TakesBootloader env ρ n ∧ ∀ w, Alive env ρ t w n := by
    by_cases htaken : TakesBootloader env ρ n
    · have hno : ((eventState env ρ n).supervisorTick env now).2.watchdogRefresh = false := by
        unfold App.supervisorTick
        rw [if_pos (by simpa using htaken.2)]
      rw [hrefreshes, hno]
      simp [htaken]
    · have hlook : Looks env ρ n := ⟨⟨now, hnow⟩, htaken⟩
      have hrequest : ¬ ((eventState env ρ n).bootloaderRequest = true ∧ env.hasBoard = true) := by
        intro h
        exact htaken ⟨⟨now, hnow⟩, h⟩
      rw [hrefreshes, watchdogRefresh_eq hrequest, and_iff_right htaken]
      apply forall_congr'
      intro w
      obtain ⟨m, hlast, hms⟩ := @progress_known env ρ t hclock n hlook w
      rw [← hnext, hms, hclock.now n now hnow, alive_iff hclock.mono hlast]
      have hage : t n - t m < 2 ^ 32 := by
        have hspan := hshort w m hlast
        omega
      rw [elapsedMs_ofNat (hclock.mono hlast.1) hage, decide_eq_false_iff_not, not_le]
  refine ⟨hiff, ?_, ?_⟩
  · intro hno
    rw [hnext]
    exact safe_of_not_refresh (fun h => hno (hrefreshes.mpr h))
  · intro w m hlast hlate hrefresh
    have halive := (alive_iff hclock.mono hlast).mp ((hiff.mp hrefresh).2 w)
    omega

/-! ## Two tasks that beat, and two that do not -/

/-- A control tick at a car at rest. -/
def restTick : AppEvent := .control { now := 0 }

/-- Both tasks beat before the supervisor looks. -/
def beatingRun : ℕ → AppEvent
  | 0 => restTick
  | 1 => .task (.telemetry 0)
  | 2 => .task (.supervisor 10)
  | _ => restTick

/-- The times of a run of a few events, the last of which lasts. -/
def timesOf (l : List ℕ) (last : ℕ) (n : ℕ) : ℕ := l.getD n last

/-- A board without a floating-point unit will do for a car at rest. -/
def quietEnv : Env := { pow := fun x _ => x }

theorem beatingRun_eventsClocked : EventsClocked beatingRun (timesOf [0, 0, 10] 10) where
  mono := by
    refine monotone_nat_of_le_succ ?_
    intro n
    match n with
    | 0 => decide
    | 1 => decide
    | 2 => decide
    | n + 3 => exact le_rfl
  now := by
    intro n now hnow
    match n with
    | 0 => simp [beatingRun, restTick] at hnow
    | 1 => simp [beatingRun] at hnow
    | 2 =>
        simp only [beatingRun, AppEvent.task.injEq, TaskEvent.supervisor.injEq] at hnow
        rw [← hnow]
        rfl
    | n + 3 => simp [beatingRun, restTick] at hnow

/-- The first look refreshes. -/
theorem watchdog_refreshed_first : Refreshes quietEnv beatingRun 2 := by
  have hsupervises : Supervises beatingRun 2 := ⟨10, rfl⟩
  have hlook : Looks quietEnv beatingRun 2 := by
    refine ⟨hsupervises, ?_⟩
    rintro ⟨-, hrequest, -⟩
    exact absurd hrequest (by decide)
  have hfirst : FirstLook quietEnv beatingRun 2 := by
    refine ⟨hlook, ?_⟩
    rintro j hj ⟨⟨now, hnow⟩, -⟩
    match j with
    | 0 => simp [beatingRun, restTick] at hnow
    | 1 => simp [beatingRun] at hnow
  have hspan : ∀ w : Watched, timesOf [0, 0, 10] 10 2 < timesOf [0, 0, 10] 10 2 + w.deadlineMs.toNat := by
    intro w
    cases w <;> decide
  have hshort : ∀ w, ShortStall quietEnv beatingRun (timesOf [0, 0, 10] 10) w 2 := by
    intro w m _
    have hten : timesOf [0, 0, 10] 10 2 = 10 := rfl
    omega
  refine (watchdog_refreshed quietEnv beatingRun _ beatingRun_eventsClocked 2 hsupervises hshort).1.mpr ⟨hlook.2, ?_⟩
  intro w
  right
  exact ⟨2, le_rfl, hfirst, hspan w⟩

/-- The control task never beats, and the clock comes round while the supervisor waits for it. -/
def stalledRun : ℕ → AppEvent
  | 0 => .task (.supervisor 0)
  | 1 => .task (.supervisor 0x40000000)
  | 2 => .task (.supervisor 0x80000000)
  | 3 => .task (.supervisor 0xC0000000)
  | 4 => .task (.telemetry 0)
  | 5 => .task (.supervisor 0)
  | _ => restTick

/-- The times of the stalled run. -/
def stalledTimes : ℕ → ℕ :=
  timesOf [0, 0x40000000, 0x80000000, 0xC0000000, 0x100000000, 0x100000000] 0x100000000

theorem stalledRun_eventsClocked : EventsClocked stalledRun stalledTimes where
  mono := by
    refine monotone_nat_of_le_succ ?_
    intro n
    match n with
    | 0 => decide
    | 1 => decide
    | 2 => decide
    | 3 => decide
    | 4 => decide
    | 5 => decide
    | n + 6 => exact le_rfl
  now := by
    intro n now hnow
    match n with
    | 0 =>
        simp only [stalledRun, AppEvent.task.injEq, TaskEvent.supervisor.injEq] at hnow
        rw [← hnow]
        rfl
    | 1 =>
        simp only [stalledRun, AppEvent.task.injEq, TaskEvent.supervisor.injEq] at hnow
        rw [← hnow]
        decide
    | 2 =>
        simp only [stalledRun, AppEvent.task.injEq, TaskEvent.supervisor.injEq] at hnow
        rw [← hnow]
        decide
    | 3 =>
        simp only [stalledRun, AppEvent.task.injEq, TaskEvent.supervisor.injEq] at hnow
        rw [← hnow]
        decide
    | 4 => simp [stalledRun] at hnow
    | 5 =>
        simp only [stalledRun, AppEvent.task.injEq, TaskEvent.supervisor.injEq] at hnow
        rw [← hnow]
        decide
    | n + 6 => simp [stalledRun, restTick] at hnow

/-- No gap between two events is as long as half a turn of the clock. -/
def SmallGaps (t : ℕ → ℕ) : Prop := ∀ n, t (n + 1) < t n + 2 ^ 31

/-- The watchdog is refreshed exactly while both tasks are alive, however long one has been stalled. -/
def AlwaysJudged : Prop :=
  ∀ env ρ t, EventsClocked ρ t → SmallGaps t → ∀ n, Supervises ρ n →
    (Refreshes env ρ n ↔ ¬ TakesBootloader env ρ n ∧ ∀ w, Alive env ρ t w n)

/-- A stall of one turn of the clock is not seen. -/
theorem not_always_judged : ¬ AlwaysJudged := by
  intro h
  have hgaps : SmallGaps stalledTimes := by
    intro n
    match n with
    | 0 => norm_num [stalledTimes, timesOf]
    | 1 => norm_num [stalledTimes, timesOf]
    | 2 => norm_num [stalledTimes, timesOf]
    | 3 => norm_num [stalledTimes, timesOf]
    | 4 => norm_num [stalledTimes, timesOf]
    | 5 => norm_num [stalledTimes, timesOf]
    | n + 6 => norm_num [stalledTimes, timesOf]
  have hiff := h quietEnv stalledRun stalledTimes stalledRun_eventsClocked hgaps 5 ⟨0, rfl⟩
  have hrefreshes : Refreshes quietEnv stalledRun 5 := ⟨0, rfl, by decide⟩
  have halive := (hiff.mp hrefreshes).2 .control
  have hnow : stalledTimes 5 = 0x100000000 := rfl
  have hdeadline : Watched.control.deadlineMs.toNat = 30 := rfl
  rw [Alive, hnow, hdeadline] at halive
  -- the count of the control task is zero throughout
  have hbeats : ∀ m, m ≤ 5 → Watched.control.beats (eventState quietEnv stalledRun m) = 0 := by
    intro m hm
    interval_cases m <;> decide
  have hseen : ∀ m, m ≤ 5 → lastSeen quietEnv stalledRun .control m = 0 := by
    intro m hm
    induction m with
    | zero => rfl
    | succ m ih =>
        rw [lastSeen]
        split
        · exact hbeats m (by omega)
        · exact ih (by omega)
  rcases halive with ⟨m, hm, hmoved, -⟩ | ⟨m, hm, hfirst, hage⟩
  · apply hmoved.2
    rw [hbeats m hm, hseen m hm]
  · have hzero : m = 0 := by
      by_contra hne
      refine hfirst.2 0 (Nat.pos_of_ne_zero hne) ⟨⟨0, rfl⟩, ?_⟩
      rintro ⟨-, hrequest, -⟩
      exact absurd hrequest (by decide)
    subst hzero
    have hstart : stalledTimes 0 = 0 := rfl
    omega

end Lhre.Vcu
