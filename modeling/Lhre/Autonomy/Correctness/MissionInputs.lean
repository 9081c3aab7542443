import Lhre.Autonomy.MissionManager
import Lhre.Theory.Trace

/-!
# `Autonomy.Correctness.MissionInputs` — mission inputs act in the state they are meant for

The callbacks note a go and a completed lap in any state, and the ticks of READY and DRIVING act on the notes. A note that
outlives its state starts or completes a run it was not meant for: only a reset is ignored where it means nothing.

## Contents
- **The law.** `Edge`, `MissionLaw`; its condition is `Timely`.
- **One step.** `callback_keeps`, `tick_cases`.
- **Every run.** Edges, emergencies and resets.
- **Timely runs.** `GoFresh`, `LapFresh`, and `inputs_act_in_state`.
- **A go from before READY.** `not_inputs_act_in_state`.
-/

namespace Lhre.Autonomy

open Trace

/-! ## The law -/

/-- The transitions of the mission. -/
inductive Edge : MissionState → MissionState → Prop
  | ready : Edge .off .ready
  | driving : Edge .ready .driving
  | readyEmergency : Edge .ready .emergency
  | drivingEmergency : Edge .driving .emergency
  | finished : Edge .driving .finished
  | off : Edge .emergency .off

variable {F : Type} (ops : Doubles F) (cfg : MissionConfig) (ρ : ℕ → ℚ × MissionEvent F)

/-- The node after the first `n` events. -/
def missionAt (n : ℕ) : MissionManager F := stateAt (MissionManager.step ops cfg) (MissionManager.init ops) ρ n

/-- The state is the same at all positions from `m` to `n`. -/
def Throughout (state : MissionState) (m n : ℕ) : Prop :=
  ∀ k, m ≤ k → k ≤ n → (missionAt ops cfg ρ k).state = state

/-- Mission inputs act only in the state they were meant for. -/
structure MissionLaw : Prop where
  edges : ∀ n, (missionAt ops cfg ρ (n + 1)).state = (missionAt ops cfg ρ n).state ∨
    Edge (missionAt ops cfg ρ n).state (missionAt ops cfg ρ (n + 1)).state
  emergency : ∀ m n, m < n → (ρ m).2 = .emergency true →
    (missionAt ops cfg ρ m).state = .ready ∨ (missionAt ops cfg ρ m).state = .driving →
    (ρ n).2 = .tick → (∀ k, m < k → k < n → (ρ k).2 ≠ .tick) →
    ((missionAt ops cfg ρ n).tick ops cfg (ρ n).1).2.status = .emergency
  reset : ∀ n, (missionAt ops cfg ρ n).state = .emergency → (missionAt ops cfg ρ (n + 1)).state ≠ .emergency →
    ∃ m < n, (ρ m).2 = .reset true ∧ Throughout ops cfg ρ .emergency m n
  go : ∀ n, (missionAt ops cfg ρ n).state ≠ .driving → (missionAt ops cfg ρ (n + 1)).state = .driving →
    (∃ m < n, (ρ m).2 = .go true ∧ Throughout ops cfg ρ .ready m n) ∨
      (cfg.autoGo = true ∧ ∃ m < n, (missionAt ops cfg ρ m).state ≠ .ready ∧ Throughout ops cfg ρ .ready (m + 1) n ∧
        cfg.readyHoldSec ≤ (ρ n).1 - (ρ m).1)
  lap : cfg.mission = .autocross → ∀ n, (missionAt ops cfg ρ n).complete = false →
    (missionAt ops cfg ρ (n + 1)).complete = true →
    ∃ m < n, (ρ m).2 = .lapComplete true ∧ Throughout ops cfg ρ .driving m n

/-- A step that leaves no note behind: a go is received in READY, or when the mission is over; no tick of READY finds an
    emergency besides a go; and in an autocross no completed lap is received before DRIVING. -/
def Timely (cfg : MissionConfig) (s : MissionManager F) (e : ℚ × MissionEvent F) : Prop :=
  match e.2 with
  | .go true => s.state = .ready ∨ s.state = .finished
  | .lapComplete true => cfg.mission = .autocross → s.state ≠ .off ∧ s.state ≠ .ready
  | .tick => s.state = .ready → s.emergencyReceived = true → s.goReceived = false
  | _ => True

/-! ## One step -/

section Step

variable {ops cfg} {s : MissionManager F} {e : ℚ × MissionEvent F}

/-- What a callback keeps, and what it can note. -/
structure Noted (s t : MissionManager F) (e : MissionEvent F) : Prop where
  state : t.state = s.state
  complete : t.complete = s.complete
  readyEnterTime : t.readyEnterTime = s.readyEnterTime
  go : t.goReceived = true → s.goReceived = true ∨ e = .go true
  emergency : t.emergencyReceived = true ↔ s.emergencyReceived = true ∨ e = .emergency true
  reset : t.resetReceived = true → s.resetReceived = true ∨ e = .reset true ∧ s.state = .emergency
  lap : t.lapComplete = true → s.lapComplete = true ∨ e = .lapComplete true

theorem callback_keeps (h : e.2 ≠ .tick) : Noted s (s.step ops cfg e) e.2 := by
  obtain ⟨now, e⟩ := e
  cases e with
  | go data => cases data <;> constructor <;> simp [MissionManager.step, MissionManager.goCb]
  | emergency data => cases data <;> constructor <;> simp [MissionManager.step, MissionManager.emergencyCb]
  | reset data =>
      by_cases hs : s.state = .emergency <;> cases data <;> constructor <;>
        simp [MissionManager.step, MissionManager.resetCb, hs]
  | centerline poses => constructor <;> simp [MissionManager.step, MissionManager.centerlineCb]
  | odom m => constructor <;> simp [MissionManager.step, MissionManager.odomCb]
  | lapComplete data => cases data <;> constructor <;> simp [MissionManager.step, MissionManager.lapCompleteCb]
  | heartbeat =>
      show Noted s (if cfg.requireSafetyHeartbeat = true then s.heartbeatCb now else s) .heartbeat
      unfold MissionManager.heartbeatCb
      split
      · split
        · constructor <;> simp
        · split <;> constructor <;> simp
      · constructor <;> simp
  | tick => exact absurd rfl h

/-- The notes that a tick leaves as they are. -/
structure SameNotes (s t : MissionManager F) : Prop where
  go : t.goReceived = s.goReceived
  reset : t.resetReceived = s.resetReceived
  lap : t.lapComplete = s.lapComplete

/-- What a tick does. -/
inductive Ticked (ops : Doubles F) (cfg : MissionConfig) (now : ℚ) (s t : MissionManager F) : Prop
  | waits (hs : s.state = .off) (ht : t.state = .off) (hnotes : SameNotes s t) (hcomplete : t.complete = s.complete)
      (henter : t.readyEnterTime = s.readyEnterTime)
  | arms (hs : s.state = .off) (ht : t.state = .ready) (hnotes : SameNotes s t) (hcomplete : t.complete = s.complete)
      (henter : t.readyEnterTime = some now)
  | stops (hs : s.state = .ready ∨ s.state = .driving) (hemergency : s.emergencyReceived = true)
      (ht : t.state = .emergency) (hnotes : SameNotes s t) (hcomplete : t.complete = s.complete)
  | goes (hs : s.state = .ready) (hemergency : s.emergencyReceived = false) (hgo : s.goReceived = true)
      (ht : t.state = .driving) (hconsumed : t.goReceived = false) (hlap : t.lapComplete = s.lapComplete)
      (hreset : t.resetReceived = s.resetReceived) (hcomplete : t.complete = s.complete)
  | holds (hs : s.state = .ready) (hemergency : s.emergencyReceived = false) (hgo : s.goReceived = false)
      (ht : t.state = .ready) (hnotes : SameNotes s t) (hcomplete : t.complete = s.complete)
      (henter : t.readyEnterTime = s.readyEnterTime)
  | departs (hs : s.state = .ready) (hemergency : s.emergencyReceived = false) (hgo : s.goReceived = false)
      (ht : t.state = .driving) (hnotes : SameNotes s t) (hcomplete : t.complete = s.complete) (entered : ℚ)
      (hentered : s.readyEnterTime = some entered) (hauto : cfg.autoGo = true)
      (hheld : cfg.readyHoldSec ≤ now - entered)
  | drives (hs : s.state = .driving) (hemergency : s.emergencyReceived = false)
      (ht : t.state = .driving ∨ t.state = .finished) (hnotes : SameNotes s t)
      (hcomplete : cfg.mission = .autocross → t.complete = (s.complete || s.lapComplete))
  | resets (hs : s.state = .emergency) (hreset : s.resetReceived = true) (ht : t.state = .off)
      (hgo : t.goReceived = s.goReceived) (hdone : t.resetReceived = false) (hlap : t.lapComplete = false)
      (hcomplete : t.complete = false)
  | rests (hs : s.state = .emergency ∨ s.state = .finished) (ht : t = s)

/-- **The transitions of a tick.** -/
theorem tick_cases (now : ℚ) : Ticked ops cfg now s (s.tick ops cfg now).1 := by
  show Ticked ops cfg now s (s.transition ops cfg now)
  unfold MissionManager.transition
  cases hs : s.state with
  | off =>
      dsimp only
      unfold MissionManager.tickOff
      dsimp only
      split
      · exact .waits hs hs ⟨rfl, rfl, rfl⟩ rfl rfl
      · split
        · exact .waits hs hs ⟨rfl, rfl, rfl⟩ rfl rfl
        · exact .arms hs rfl ⟨rfl, rfl, rfl⟩ rfl rfl
  | ready =>
      dsimp only
      unfold MissionManager.tickReady
      split
      · rename_i hemergency
        exact .stops (Or.inl hs) hemergency rfl ⟨rfl, rfl, rfl⟩ rfl
      · rename_i hemergency
        rw [Bool.not_eq_true] at hemergency
        split
        · rename_i hgo
          exact .goes hs hemergency hgo rfl rfl rfl rfl rfl
        · rename_i hgo
          rw [Bool.not_eq_true] at hgo
          split
          · exact .holds hs hemergency hgo hs ⟨rfl, rfl, rfl⟩ rfl rfl
          · rename_i entered hentered
            split
            · rename_i hheld
              exact .departs hs hemergency hgo rfl ⟨rfl, rfl, rfl⟩ rfl entered hentered hheld.1 hheld.2
            · exact .holds hs hemergency hgo hs ⟨rfl, rfl, rfl⟩ rfl rfl
  | driving =>
      dsimp only
      unfold MissionManager.tickDriving
      split
      · rename_i hemergency
        exact .stops (Or.inr hs) hemergency rfl ⟨rfl, rfl, rfl⟩ rfl
      · rename_i hemergency
        rw [Bool.not_eq_true] at hemergency
        dsimp only
        have hlap (hcross : cfg.mission = .autocross) (now : ℚ) (t : MissionManager F) :
            t.checkMissionComplete ops cfg now = t.lapComplete := by
          unfold MissionManager.checkMissionComplete
          rw [hcross]
        split
        · refine .drives hs hemergency (Or.inr rfl) ⟨rfl, rfl, rfl⟩ fun hcross => ?_
          rw [hlap hcross]
        · refine .drives hs hemergency (Or.inl hs) ⟨rfl, rfl, rfl⟩ fun hcross => ?_
          rw [hlap hcross]
  | emergency =>
      dsimp only
      unfold MissionManager.tickEmergency
      split
      · rename_i hreset
        exact .resets hs hreset rfl rfl rfl rfl rfl
      · exact .rests (Or.inl hs) rfl
  | finished => exact .rests (Or.inr hs) rfl

end Step

/-! ## Every run -/

section Run

variable {ops cfg ρ}

theorem missionAt_succ (n : ℕ) :
    missionAt ops cfg ρ (n + 1) = (missionAt ops cfg ρ n).step ops cfg (ρ n) := rfl

/-- A step is a callback or a tick. -/
theorem step_cases (n : ℕ) :
    ((ρ n).2 ≠ .tick ∧ Noted (missionAt ops cfg ρ n) (missionAt ops cfg ρ (n + 1)) (ρ n).2) ∨
      ((ρ n).2 = .tick ∧ Ticked ops cfg (ρ n).1 (missionAt ops cfg ρ n) (missionAt ops cfg ρ (n + 1))) := by
  by_cases h : (ρ n).2 = .tick
  · right
    refine ⟨h, ?_⟩
    have hstep : missionAt ops cfg ρ (n + 1) = ((missionAt ops cfg ρ n).tick ops cfg (ρ n).1).1 := by
      rw [missionAt_succ, MissionManager.step, h]
    rw [hstep]
    exact tick_cases (ρ n).1
  · exact Or.inl ⟨h, callback_keeps h⟩

/-- A message was received in a state that has lasted since. -/
def Since (ops : Doubles F) (cfg : MissionConfig) (ρ : ℕ → ℚ × MissionEvent F) (e : MissionEvent F)
    (state : MissionState) (n : ℕ) : Prop :=
  ∃ m < n, (ρ m).2 = e ∧ Throughout ops cfg ρ state m n

variable {e : MissionEvent F} {state : MissionState} {n : ℕ}

theorem Throughout.succ {m : ℕ} (h : Throughout ops cfg ρ state m n)
    (hs : (missionAt ops cfg ρ (n + 1)).state = state) : Throughout ops cfg ρ state m (n + 1) := by
  intro k hk hkn
  rcases Nat.le_succ_iff.mp hkn with hkn | rfl
  · exact h k hk hkn
  · exact hs

theorem Since.succ (h : Since ops cfg ρ e state n) (hs : (missionAt ops cfg ρ (n + 1)).state = state) :
    Since ops cfg ρ e state (n + 1) := by
  obtain ⟨m, hm, he, hthrough⟩ := h
  exact ⟨m, Nat.lt_succ_of_lt hm, he, hthrough.succ hs⟩

theorem Since.start (he : (ρ n).2 = e) (hs : (missionAt ops cfg ρ n).state = state)
    (hs' : (missionAt ops cfg ρ (n + 1)).state = state) : Since ops cfg ρ e state (n + 1) := by
  refine ⟨n, Nat.lt_succ_self n, he, ?_⟩
  intro k hk hkn
  rcases Nat.le_succ_iff.mp hkn with hkn | rfl
  · rw [Nat.le_antisymm hkn hk]
    exact hs
  · exact hs'

/-- The message came while the state lasted, so the node is still in it. -/
theorem Since.now (h : Since ops cfg ρ e state n) : (missionAt ops cfg ρ n).state = state := by
  obtain ⟨m, hm, -, hthrough⟩ := h
  exact hthrough n hm.le le_rfl

/-- **The state moves along the edges.** -/
theorem edge (n : ℕ) : (missionAt ops cfg ρ (n + 1)).state = (missionAt ops cfg ρ n).state ∨
    Edge (missionAt ops cfg ρ n).state (missionAt ops cfg ρ (n + 1)).state := by
  rcases step_cases n with ⟨-, hnoted⟩ | ⟨-, hticked⟩
  · exact Or.inl hnoted.state
  · cases hticked with
    | waits hs ht => exact Or.inl (ht.trans hs.symm)
    | arms hs ht =>
        right
        rw [hs, ht]
        exact .ready
    | stops hs _ ht =>
        right
        rcases hs with hs | hs <;> rw [hs, ht]
        · exact .readyEmergency
        · exact .drivingEmergency
    | goes hs _ _ ht =>
        right
        rw [hs, ht]
        exact .driving
    | holds hs _ _ ht => exact Or.inl (ht.trans hs.symm)
    | departs hs _ _ ht =>
        right
        rw [hs, ht]
        exact .driving
    | drives hs _ ht =>
        rcases ht with ht | ht
        · exact Or.inl (ht.trans hs.symm)
        · right
          rw [hs, ht]
          exact .finished
    | resets hs _ ht =>
        right
        rw [hs, ht]
        exact .off
    | rests _ ht => exact Or.inl (congrArg MissionManager.state ht)

/-- **An emergency** received in READY or DRIVING is the next status. -/
theorem emergency_published {m : ℕ} (hmn : m < n) (he : (ρ m).2 = .emergency true)
    (hs : (missionAt ops cfg ρ m).state = .ready ∨ (missionAt ops cfg ρ m).state = .driving)
    (htick : (ρ n).2 = .tick) (hno : ∀ k, m < k → k < n → (ρ k).2 ≠ .tick) :
    ((missionAt ops cfg ρ n).tick ops cfg (ρ n).1).2.status = .emergency := by
  -- until the tick the state stays, and the emergency stays noted
  have hheld : ((missionAt ops cfg ρ n).state = .ready ∨ (missionAt ops cfg ρ n).state = .driving) ∧
      (missionAt ops cfg ρ n).emergencyReceived = true := by
    refine holds_until (P := fun k => ((missionAt ops cfg ρ k).state = .ready ∨
      (missionAt ops cfg ρ k).state = .driving) ∧ (missionAt ops cfg ρ k).emergencyReceived = true)
      (R := fun k => (ρ k).2 = .tick) ?_ (Nat.succ_le_of_lt hmn) ?_ fun k hk hkn => hno k hk hkn
    · rintro k ⟨hs, hflag⟩ hk
      have hnoted := @callback_keeps F ops cfg (missionAt ops cfg ρ k) (ρ k) hk
      exact ⟨by rw [missionAt_succ, hnoted.state]; exact hs, hnoted.emergency.mpr (Or.inl hflag)⟩
    · have hk : (ρ m).2 ≠ .tick := by
        rw [he]
        exact nofun
      have hnoted := @callback_keeps F ops cfg (missionAt ops cfg ρ m) (ρ m) hk
      exact ⟨by rw [missionAt_succ, hnoted.state]; exact hs, hnoted.emergency.mpr (Or.inr he)⟩
  obtain ⟨hs, hflag⟩ := hheld
  show ((missionAt ops cfg ρ n).tick ops cfg (ρ n).1).1.state = .emergency
  cases @tick_cases F ops cfg (missionAt ops cfg ρ n) (ρ n).1 with
  | waits hoff => simp [hoff] at hs
  | arms hoff => simp [hoff] at hs
  | stops _ _ ht => exact ht
  | goes _ hemergency => exact nomatch hflag.symm.trans hemergency
  | holds _ hemergency => exact nomatch hflag.symm.trans hemergency
  | departs _ hemergency => exact nomatch hflag.symm.trans hemergency
  | drives _ hemergency => exact nomatch hflag.symm.trans hemergency
  | resets hemergency => simp [hemergency] at hs
  | rests hrest => rcases hrest with hrest | hrest <;> simp [hrest] at hs

/-- **A noted reset** was received in this EMERGENCY. -/
theorem reset_since (n : ℕ) (h : (missionAt ops cfg ρ n).resetReceived = true) :
    Since ops cfg ρ (.reset true) .emergency n := by
  induction n with
  | zero => exact nomatch h
  | succ n ih =>
      rcases step_cases n with ⟨-, hnoted⟩ | ⟨-, hticked⟩
      · rcases hnoted.reset h with hold | ⟨he, hs⟩
        · exact (ih hold).succ (hnoted.state.trans (ih hold).now)
        · exact .start he hs (hnoted.state.trans hs)
      · have hout (hs : (missionAt ops cfg ρ n).state ≠ .emergency)
            (hsame : (missionAt ops cfg ρ (n + 1)).resetReceived = (missionAt ops cfg ρ n).resetReceived) :
            Since ops cfg ρ (.reset true) .emergency (n + 1) :=
          absurd (ih (hsame ▸ h)).now hs
        cases hticked with
        | waits hs _ hnotes => exact hout (by rw [hs]; decide) hnotes.reset
        | arms hs _ hnotes => exact hout (by rw [hs]; decide) hnotes.reset
        | stops hs _ _ hnotes => exact hout (by rcases hs with hs | hs <;> rw [hs] <;> decide) hnotes.reset
        | goes hs _ _ _ _ _ hreset => exact hout (by rw [hs]; decide) hreset
        | holds hs _ _ _ hnotes => exact hout (by rw [hs]; decide) hnotes.reset
        | departs hs _ _ _ hnotes => exact hout (by rw [hs]; decide) hnotes.reset
        | drives hs _ _ hnotes => exact hout (by rw [hs]; decide) hnotes.reset
        | resets _ _ _ _ hdone => exact nomatch h.symm.trans hdone
        | rests _ ht =>
            have hold := ih (ht ▸ h)
            exact hold.succ (by rw [ht]; exact hold.now)

/-- **READY** was entered at the time it says, and has lasted since. -/
theorem ready_since (n : ℕ) (h : (missionAt ops cfg ρ n).state = .ready) :
    ∃ m < n, (missionAt ops cfg ρ m).state ≠ .ready ∧ Throughout ops cfg ρ .ready (m + 1) n ∧
      (missionAt ops cfg ρ n).readyEnterTime = some (ρ m).1 := by
  induction n with
  | zero => exact nomatch h
  | succ n ih =>
      have hlasts (hs : (missionAt ops cfg ρ n).state = .ready)
          (hsame : (missionAt ops cfg ρ (n + 1)).readyEnterTime = (missionAt ops cfg ρ n).readyEnterTime) :
          ∃ m < n + 1, (missionAt ops cfg ρ m).state ≠ .ready ∧ Throughout ops cfg ρ .ready (m + 1) (n + 1) ∧
            (missionAt ops cfg ρ (n + 1)).readyEnterTime = some (ρ m).1 := by
        obtain ⟨m, hm, hbefore, hthrough, henter⟩ := ih hs
        exact ⟨m, Nat.lt_succ_of_lt hm, hbefore, hthrough.succ h, hsame.trans henter⟩
      rcases step_cases n with ⟨-, hnoted⟩ | ⟨-, hticked⟩
      · exact hlasts (hnoted.state.symm.trans h) hnoted.readyEnterTime
      · cases hticked with
        | waits _ ht => exact nomatch h.symm.trans ht
        | arms hs _ _ _ henter =>
            refine ⟨n, Nat.lt_succ_self n, by rw [hs]; decide, ?_, henter⟩
            intro k hk hkn
            rw [Nat.le_antisymm hkn hk]
            exact h
        | stops _ _ ht => exact nomatch h.symm.trans ht
        | goes _ _ _ ht => exact nomatch h.symm.trans ht
        | holds hs _ _ _ _ _ henter => exact hlasts hs henter
        | departs _ _ _ ht => exact nomatch h.symm.trans ht
        | drives _ _ ht => rcases ht with ht | ht <;> exact nomatch h.symm.trans ht
        | resets _ _ ht => exact nomatch h.symm.trans ht
        | rests _ ht =>
            rw [ht] at h
            exact hlasts h (congrArg MissionManager.readyEnterTime ht)

/-! ## Timely runs -/

/-- **A noted go** was received in this READY, or the mission is over. -/
theorem go_since (hok : ∀ n, Timely cfg (missionAt ops cfg ρ n) (ρ n)) (n : ℕ)
    (h : (missionAt ops cfg ρ n).goReceived = true) :
    Since ops cfg ρ (.go true) .ready n ∨ (missionAt ops cfg ρ n).state = .finished := by
  induction n with
  | zero => exact nomatch h
  | succ n ih =>
      have htimely := hok n
      rcases step_cases n with ⟨-, hnoted⟩ | ⟨htick, hticked⟩
      · rcases hnoted.go h with hold | he
        · rcases ih hold with hsince | hover
          · exact Or.inl (hsince.succ (hnoted.state.trans hsince.now))
          · exact Or.inr (hnoted.state.trans hover)
        · simp only [Timely, he] at htimely
          rcases htimely with hs | hs
          · exact Or.inl (.start he hs (hnoted.state.trans hs))
          · exact Or.inr (hnoted.state.trans hs)
      · simp only [Timely, htick] at htimely
        -- outside READY and FINISHED nothing is noted
        have hout (hready : (missionAt ops cfg ρ n).state ≠ .ready) (hover : (missionAt ops cfg ρ n).state ≠ .finished)
            (hsame : (missionAt ops cfg ρ (n + 1)).goReceived = (missionAt ops cfg ρ n).goReceived) :
            Since ops cfg ρ (.go true) .ready (n + 1) ∨ (missionAt ops cfg ρ (n + 1)).state = .finished := by
          rcases ih (hsame ▸ h) with hsince | hs
          · exact absurd hsince.now hready
          · exact absurd hs hover
        cases hticked with
        | waits hs _ hnotes => exact hout (by rw [hs]; decide) (by rw [hs]; decide) hnotes.go
        | arms hs _ hnotes => exact hout (by rw [hs]; decide) (by rw [hs]; decide) hnotes.go
        | stops hs hemergency _ hnotes =>
            rcases hs with hs | hs
            · exact nomatch h.symm.trans (hnotes.go.trans (htimely hs hemergency))
            · exact hout (by rw [hs]; decide) (by rw [hs]; decide) hnotes.go
        | goes _ _ _ _ hconsumed => exact nomatch h.symm.trans hconsumed
        | holds _ _ hgo _ hnotes => exact nomatch h.symm.trans (hnotes.go.trans hgo)
        | departs _ _ hgo _ hnotes => exact nomatch h.symm.trans (hnotes.go.trans hgo)
        | drives hs _ _ hnotes => exact hout (by rw [hs]; decide) (by rw [hs]; decide) hnotes.go
        | resets hs _ _ hgo => exact hout (by rw [hs]; decide) (by rw [hs]; decide) hgo
        | rests hs ht =>
            rw [ht] at h ⊢
            rcases hs with hs | hs
            · rcases ih h with hsince | hover
              · exact nomatch hsince.now.symm.trans hs
              · exact Or.inr hover
            · exact Or.inr hs

/-- **A noted lap** of an autocross was completed in this DRIVING, or the drive is over. -/
theorem lap_since (hok : ∀ n, Timely cfg (missionAt ops cfg ρ n) (ρ n)) (hcross : cfg.mission = .autocross) (n : ℕ)
    (h : (missionAt ops cfg ρ n).lapComplete = true) :
    Since ops cfg ρ (.lapComplete true) .driving n ∨ (missionAt ops cfg ρ n).state = .emergency ∨
      (missionAt ops cfg ρ n).state = .finished := by
  induction n with
  | zero => exact nomatch h
  | succ n ih =>
      have htimely := hok n
      rcases step_cases n with ⟨-, hnoted⟩ | ⟨-, hticked⟩
      · rcases hnoted.lap h with hold | he
        · rcases ih hold with hsince | hover
          · exact Or.inl (hsince.succ (hnoted.state.trans hsince.now))
          · exact Or.inr (by rw [hnoted.state]; exact hover)
        · simp only [Timely, he] at htimely
          obtain ⟨hoff, hready⟩ := htimely hcross
          cases hs : (missionAt ops cfg ρ n).state with
          | off => exact absurd hs hoff
          | ready => exact absurd hs hready
          | driving => exact Or.inl (.start he hs (hnoted.state.trans hs))
          | finished => exact Or.inr (Or.inr (hnoted.state.trans hs))
          | emergency => exact Or.inr (Or.inl (hnoted.state.trans hs))
      · have hbefore (hs : (missionAt ops cfg ρ n).state = .off ∨ (missionAt ops cfg ρ n).state = .ready)
            (hsame : (missionAt ops cfg ρ (n + 1)).lapComplete = (missionAt ops cfg ρ n).lapComplete) : False := by
          rcases ih (hsame ▸ h) with hsince | hover
          · rcases hs with hs | hs <;> exact nomatch hsince.now.symm.trans hs
          · rcases hs with hs | hs <;> rw [hs] at hover <;> simp at hover
        cases hticked with
        | waits hs _ hnotes => exact (hbefore (Or.inl hs) hnotes.lap).elim
        | arms hs _ hnotes => exact (hbefore (Or.inl hs) hnotes.lap).elim
        | stops _ _ ht => exact Or.inr (Or.inl ht)
        | goes hs _ _ _ _ hlap => exact (hbefore (Or.inr hs) hlap).elim
        | holds hs _ _ _ hnotes => exact (hbefore (Or.inr hs) hnotes.lap).elim
        | departs hs _ _ _ hnotes => exact (hbefore (Or.inr hs) hnotes.lap).elim
        | drives hs _ ht hnotes =>
            rcases ht with ht | ht
            · rcases ih (hnotes.lap ▸ h) with hsince | hover
              · exact Or.inl (hsince.succ ht)
              · rw [hs] at hover
                simp at hover
            · exact Or.inr (Or.inr ht)
        | resets _ _ _ _ _ hlap => exact nomatch h.symm.trans hlap
        | rests hs ht =>
            rw [ht] at h ⊢
            exact Or.inr hs

end Run

/-- **Mission inputs act in the state they are meant for**, in every run whose steps leave no note behind. -/
theorem inputs_act_in_state (hok : ∀ n, Timely cfg (missionAt ops cfg ρ n) (ρ n)) : MissionLaw ops cfg ρ where
  edges := edge
  emergency := fun _ _ hmn he hs htick hno => emergency_published hmn he hs htick hno
  reset := by
    intro n hs hleft
    rcases step_cases n with ⟨-, hnoted⟩ | ⟨-, hticked⟩
    · exact absurd (hnoted.state.trans hs) hleft
    · cases hticked with
      | resets _ hreset => exact reset_since n hreset
      | rests _ ht => exact absurd (ht ▸ hs) hleft
      | stops _ _ ht => exact absurd ht hleft
      | waits hother => exact nomatch hs.symm.trans hother
      | arms hother => exact nomatch hs.symm.trans hother
      | goes hother => exact nomatch hs.symm.trans hother
      | holds hother => exact nomatch hs.symm.trans hother
      | departs hother => exact nomatch hs.symm.trans hother
      | drives hother => exact nomatch hs.symm.trans hother
  go := by
    intro n hbefore hafter
    rcases step_cases n with ⟨-, hnoted⟩ | ⟨-, hticked⟩
    · exact absurd (hnoted.state.symm.trans hafter) hbefore
    · cases hticked with
      | goes hs _ hgo =>
          left
          rcases go_since hok n hgo with hsince | hover
          · exact hsince
          · exact nomatch hs.symm.trans hover
      | departs hs _ _ _ _ _ entered hentered hauto hheld =>
          right
          obtain ⟨m, hm, hout, hthrough, henter⟩ := ready_since n hs
          obtain rfl := Option.some.inj (hentered.symm.trans henter)
          exact ⟨hauto, m, hm, hout, hthrough, hheld⟩
      | drives hs => exact absurd hs hbefore
      | rests _ ht => exact absurd (ht ▸ hafter) hbefore
      | waits _ ht => exact nomatch hafter.symm.trans ht
      | arms _ ht => exact nomatch hafter.symm.trans ht
      | stops _ _ ht => exact nomatch hafter.symm.trans ht
      | holds _ _ _ ht => exact nomatch hafter.symm.trans ht
      | resets _ _ ht => exact nomatch hafter.symm.trans ht
  lap := by
    intro hcross n hbefore hafter
    have hsame (h : (missionAt ops cfg ρ (n + 1)).complete = (missionAt ops cfg ρ n).complete) : False :=
      nomatch (hafter.symm.trans h).trans hbefore
    rcases step_cases n with ⟨-, hnoted⟩ | ⟨-, hticked⟩
    · exact (hsame hnoted.complete).elim
    · cases hticked with
      | drives hs _ _ _ hcomplete =>
          have hdone := hcomplete hcross
          rw [hafter, hbefore, Bool.false_or] at hdone
          rcases lap_since hok hcross n hdone.symm with hsince | hover
          · exact hsince
          · rw [hs] at hover
            simp at hover
      | waits _ _ _ hcomplete => exact (hsame hcomplete).elim
      | arms _ _ _ hcomplete => exact (hsame hcomplete).elim
      | stops _ _ _ _ hcomplete => exact (hsame hcomplete).elim
      | goes _ _ _ _ _ _ _ hcomplete => exact (hsame hcomplete).elim
      | holds _ _ _ _ _ hcomplete => exact (hsame hcomplete).elim
      | departs _ _ _ _ _ hcomplete => exact (hsame hcomplete).elim
      | resets _ _ _ _ _ _ hcomplete => exact nomatch hafter.symm.trans hcomplete
      | rests _ ht => exact (hsame (congrArg MissionManager.complete ht)).elim

/-! ## A go from before READY -/

/-- The arithmetic of rationals, for a car that heads along the first axis. -/
def rationals : Doubles ℚ where
  ofRat q := q
  add := (· + ·)
  sub := (· - ·)
  mul := (· * ·)
  hypot x y := max |x| |y|
  atan2 _ _ := 0
  cos _ := 1
  sin _ := 0
  lt x y := decide (x < y)
  le x y := decide (x ≤ y)

/-- A go in READY, and a lap in DRIVING. -/
def cleanRun : ℕ → ℚ × MissionEvent ℚ :=
  ofList [(0, .centerline 5), (1, .tick), (2, .go true), (3, .tick), (4, .lapComplete true), (5, .tick)] (6, .centerline 5)

theorem inputs_act_in_state_clean : MissionLaw rationals {} cleanRun := by
  refine inputs_act_in_state rationals {} cleanRun fun n => ?_
  by_cases h : n < 6
  · interval_cases n
    · trivial
    · exact fun hs => nomatch hs
    · exact Or.inl rfl
    · exact fun _ hemergency => nomatch hemergency
    · exact fun _ => ⟨by decide, by decide⟩
    · exact fun hs => nomatch hs
  · have hrest : cleanRun n = (6, .centerline 5) := ofList_of_le (not_lt.mp h)
    rw [hrest]
    trivial

/-- **A go that comes while the node is OFF** starts the run as soon as READY is reached. -/
theorem not_inputs_act_in_state : ¬ ∀ ρ : ℕ → ℚ × MissionEvent ℚ, (∀ n, (ρ n).1 ≤ (ρ (n + 1)).1) →
    MissionLaw rationals { autoGo := false } ρ := by
  intro hall
  let ρ : ℕ → ℚ × MissionEvent ℚ := ofList [(0, .go true), (0, .centerline 5), (0, .tick), (0, .tick)] (0, .centerline 5)
  have hclock : ∀ n, (ρ n).1 = 0 := by
    intro n
    by_cases h : n < 4
    · interval_cases n <;> rfl
    · have hrest : ρ n = (0, .centerline 5) := ofList_of_le (not_lt.mp h)
      rw [hrest]
  have hlaw := hall ρ fun n => by rw [hclock, hclock]
  rcases hlaw.go 3 (by decide) rfl with ⟨m, hm, he, hthrough⟩ | ⟨hauto, -⟩
  · interval_cases m
    · exact nomatch hthrough 0 le_rfl (by decide)
    · exact nomatch he
    · exact nomatch he
  · exact nomatch hauto

end Lhre.Autonomy
