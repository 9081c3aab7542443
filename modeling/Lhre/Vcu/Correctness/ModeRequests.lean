import Lhre.Vcu.TickFacts
import Lhre.Vcu.Correctness.DriveEntry

/-!
# `Correctness.ModeRequests` — the parameter set follows the last request, outside DRIVE

Event modes are requested by the shell between two control ticks and by frames the tick drains. A tick that ends outside
DRIVE leaves the set of the mode requested last, a tick that ends in DRIVE keeps the set it found and remembers the
request. A mode without a name selects the default set, so it counts as a request as well.

## Contents
- **Requests.** `busRequest`, `shellRequest`, `tickRequest`, `lastRequest`.
- **The slot.** `modeCommand_drained`: what a drained batch leaves of the mode command.
- **Runs.** `Requested`, the invariant, with its step and its run.
- **`mode_follows_request`.**
-/

namespace Lhre.Vcu

open Lhal Can Longhorn

/-! ## Requests -/

/-- The mode the last command among the frames of a tick asks for. -/
def busRequest (x : TickInputs) : Option ℕ :=
  (lastAccepted VcuModeCommand x.criticalFrames).map fun f => (Message.fromFrame f : VcuModeCommand).eventMode.toNat

/-- The mode of a shell command. -/
def TaskEvent.mode : TaskEvent → Option ℕ
  | .modeCommand mode => some mode.val
  | _ => none

/-- The mode the shell asked for last between two control ticks. -/
def shellRequest (tasks : List TaskEvent) : Option ℕ := (tasks.filterMap TaskEvent.mode).getLast?

/-- The request of a tick; the shell's wins. -/
def tickRequest (τ : Tick) : Option ℕ := (shellRequest τ.tasks).or (busRequest τ.inputs)

/-- The last request of the first `n` ticks. -/
def lastRequest (ρ : ℕ → Tick) : ℕ → Option ℕ
  | 0 => none
  | n + 1 => (tickRequest (ρ n)).or (lastRequest ρ n)

/-- The set a request selects; the one of the boot where there was none. -/
def requestedSet (env : Env) : Option ℕ → ParamsRef
  | none => (App.boot env).params
  | some raw => .preset (eventModeOfRaw raw)

/-- No tick drains frames until the counters of the slots come round. -/
def Countable (ρ : ℕ → Tick) : Prop := ∀ n, (ρ n).inputs.criticalFrames.length < 2 ^ 32

/-! ## The slot -/

/-- A slot counts the frames it takes. -/
theorem drain_count {M : Type} [Message M] (s : RxSlot M) (frames : List CanFrame) (now : U32) :
    (s.drain frames now).count = s.count + BitVec.ofNat 32 (frames.filter (accepts M)).length := by
  induction frames generalizing s with
  | nil =>
      rw [RxSlot.drain_nil, List.filter_nil, List.length_nil]
      simp
  | cons f frames ih =>
      rw [RxSlot.drain_cons, ih]
      cases hf : accepts M f with
      | true =>
          rw [RxSlot.tryDecode_of_accepts hf, List.filter_cons_of_pos hf, List.length_cons, BitVec.ofNat_add,
            BitVec.add_assoc, BitVec.add_comm (1 : U32)]
          rfl
      | false => rw [RxSlot.tryDecode_of_not hf, List.filter_cons_of_neg (by simp [hf])]

/-- **What a drained batch leaves of the mode command**: a new count exactly when there was a request, which is then in
    the slot. -/
theorem modeCommand_drained (rx : VehicleRx) (x : TickInputs) (hcount : x.criticalFrames.length < 2 ^ 32) :
    (if (rx.drain x.criticalFrames x.now).vcuModeCommand.count != rx.vcuModeCommand.count then
      some (rx.drain x.criticalFrames x.now).vcuModeCommand.msg.eventMode.toNat else none) = busRequest x := by
  rw [VehicleRx.drain_eq]
  dsimp only
  rw [drain_count]
  have hlen : (x.criticalFrames.filter (accepts VcuModeCommand)).length < 2 ^ 32 :=
    lt_of_le_of_lt (List.length_filter_le _ _) hcount
  unfold busRequest
  rcases rx.vcuModeCommand.drain_spec x.criticalFrames x.now with ⟨hnone, -⟩ | ⟨f, hlast, hmsg, -⟩
  · have hempty : x.criticalFrames.filter (accepts VcuModeCommand) = [] := by
      unfold lastAccepted at hnone
      exact List.getLast?_eq_none_iff.mp hnone
    rw [hnone, hempty]
    simp
  · have hpos : 0 < (x.criticalFrames.filter (accepts VcuModeCommand)).length := by
      rw [List.length_pos_iff]
      rintro hempty
      rw [lastAccepted, hempty] at hlast
      exact absurd hlast (by simp)
    -- less than 2^32 frames in a tick: the count of 32 bits does not come back to where it was
    have hne : rx.vcuModeCommand.count + BitVec.ofNat 32 (x.criticalFrames.filter (accepts VcuModeCommand)).length ≠
        rx.vcuModeCommand.count := by
      intro heq
      have htoNat := congrArg BitVec.toNat heq
      rw [BitVec.toNat_add, BitVec.toNat_ofNat] at htoNat
      have hbound := rx.vcuModeCommand.count.isLt
      omega
    rw [hlast, hmsg, if_pos (by simpa using hne)]
    rfl

/-! ## The other tasks -/

/-- An event of another task leaves the pending mode and the handled commands alone, and a shell command its request. -/
theorem App.taskEvent_requests (env : Env) (b : App) (e : TaskEvent) :
    (b.taskEvent env e).pendingMode = b.pendingMode ∧
      (b.taskEvent env e).handledModeCommands = b.handledModeCommands ∧
      (b.taskEvent env e).shellModeRequest = e.mode.or b.shellModeRequest := by
  cases e with
  | modeCommand mode => exact ⟨rfl, rfl, rfl⟩
  | launchCommand => exact ⟨rfl, rfl, rfl⟩
  | dfuRequest => exact ⟨rfl, rfl, rfl⟩
  | supervisor now =>
      unfold App.taskEvent App.supervisorTick
      dsimp only
      split <;> exact ⟨rfl, rfl, rfl⟩
  | telemetry now => exact ⟨rfl, rfl, rfl⟩

/-- The last request of some shell commands, where one may be pending. -/
theorem shellRequest_cons (e : TaskEvent) (rest : List TaskEvent) (pending : Option ℕ) :
    (shellRequest rest).or (e.mode.or pending) = (shellRequest (e :: rest)).or pending := by
  unfold shellRequest
  cases hmode : e.mode with
  | none => rw [List.filterMap_cons_none hmode, Option.none_or]
  | some raw =>
      rw [List.filterMap_cons_some hmode, List.getLast?_cons, Option.some_or]
      cases (rest.filterMap TaskEvent.mode).getLast? <;> rfl

/-- **The other tasks** leave the requests the control task knows of alone; a tick finds the shell's last one. -/
theorem App.beforeTick_requests (env : Env) (a : App) (τ : Tick) :
    (a.beforeTick env τ).pendingMode = a.pendingMode ∧
      (a.beforeTick env τ).handledModeCommands = a.handledModeCommands ∧
      (a.beforeTick env τ).shellModeRequest = (shellRequest τ.tasks).or a.shellModeRequest := by
  unfold App.beforeTick
  induction τ.tasks generalizing a with
  | nil => exact ⟨rfl, rfl, rfl⟩
  | cons e rest ih =>
      obtain ⟨hpending, hhandled, hshell⟩ := a.taskEvent_requests env e
      obtain ⟨hpending', hhandled', hshell'⟩ := ih (a.taskEvent env e)
      refine ⟨hpending'.trans hpending, hhandled'.trans hhandled, ?_⟩
      rw [hshell, shellRequest_cons] at hshell'
      exact hshell'

/-! ## Ticks -/

section Tick

variable (env : Env) (a : App) (x : TickInputs)

/-- The torque stage leaves the requests and the set in use alone. -/
theorem App.updateTorque_mode (b : App) (now dtMs : U32) (fresh : Bool) :
    (b.updateTorque env now dtMs fresh).params = b.params ∧
      (b.updateTorque env now dtMs fresh).pendingMode = b.pendingMode ∧
      (b.updateTorque env now dtMs fresh).handledModeCommands = b.handledModeCommands ∧
      (b.updateTorque env now dtMs fresh).shellModeRequest = b.shellModeRequest := by
  unfold App.updateTorque App.arbitrateTorque
  exact ⟨rfl, rfl, rfl, rfl⟩

/-- What the mode requests leave is there after the tick. -/
theorem App.controlTick_mode : (a.controlTick env x).1.params = (a.moded env x).params ∧
    (a.controlTick env x).1.pendingMode = (a.moded env x).pendingMode ∧
    (a.controlTick env x).1.handledModeCommands = (a.moded env x).handledModeCommands ∧
    (a.controlTick env x).1.shellModeRequest = (a.moded env x).shellModeRequest := by
  rw [a.controlTick_of_command env x App.params (fun _ _ _ _ _ => rfl),
    a.controlTick_of_command env x App.pendingMode (fun _ _ _ _ _ => rfl),
    a.controlTick_of_command env x App.handledModeCommands (fun _ _ _ _ _ => rfl),
    a.controlTick_of_command env x App.shellModeRequest (fun _ _ _ _ _ => rfl), App.command_eq]
  exact App.updateTorque_mode env (a.moded env x) _ _ _

/-- The mode a tick has pending once it has looked at the bus and the shell. -/
theorem App.stepState_requestedMode (hhandled : a.handledModeCommands = a.rx.vcuModeCommand.count)
    (hcount : x.criticalFrames.length < 2 ^ 32) :
    (a.stepState env x).requestedMode = (a.shellModeRequest.or (busRequest x)).or a.pendingMode := by
  have hrx : (a.stepState env x).rx = a.rx.drain x.criticalFrames x.now := rfl
  have hshell : (a.stepState env x).shellModeRequest = a.shellModeRequest := rfl
  have hdone : (a.stepState env x).handledModeCommands = a.handledModeCommands := rfl
  have hpending : (a.stepState env x).pendingMode = a.pendingMode := rfl
  have hbus := modeCommand_drained a.rx x hcount
  unfold App.requestedMode
  rw [hrx, hshell, hdone, hpending, hhandled, ← hbus]
  generalize (a.rx.drain x.criticalFrames x.now).vcuModeCommand = slot
  cases a.shellModeRequest with
  | some raw => rfl
  | none =>
      rw [Option.none_or]
      cases slot.count != a.rx.vcuModeCommand.count <;> rfl

/-- The request that is asked for or pending is applied outside DRIVE, and kept in DRIVE. -/
theorem App.applyModeRequests_mode (b : App) :
    (b.applyModeRequests env).handledModeCommands = b.rx.vcuModeCommand.count ∧
      (b.applyModeRequests env).shellModeRequest = none ∧
      match b.requestedMode with
      | none => (b.applyModeRequests env).pendingMode = none ∧ (b.applyModeRequests env).params = b.params
      | some raw =>
          if b.sm.state = .drive then
            (b.applyModeRequests env).pendingMode = some raw ∧ (b.applyModeRequests env).params = b.params
          else (b.applyModeRequests env).pendingMode = none ∧
            (b.applyModeRequests env).params = .preset (eventModeOfRaw raw) := by
  unfold App.applyModeRequests
  cases b.requestedMode with
  | none => exact ⟨rfl, rfl, rfl, rfl⟩
  | some raw =>
      dsimp only
      by_cases hdrive : b.sm.state = .drive
      · rw [if_pos hdrive, if_pos hdrive]
        exact ⟨rfl, rfl, rfl, rfl⟩
      · rw [if_neg hdrive, if_neg hdrive]
        exact ⟨rfl, rfl, rfl, rfl⟩

/-- **What a tick makes of the requests.** -/
theorem App.moded_mode (hhandled : a.handledModeCommands = a.rx.vcuModeCommand.count)
    (hcount : x.criticalFrames.length < 2 ^ 32) :
    (a.moded env x).handledModeCommands = (a.rx.drain x.criticalFrames x.now).vcuModeCommand.count ∧
      (a.moded env x).shellModeRequest = none ∧
      match (a.shellModeRequest.or (busRequest x)).or a.pendingMode with
      | none => (a.moded env x).pendingMode = none ∧ (a.moded env x).params = a.params
      | some raw =>
          if (a.controlTick env x).1.sm.state = .drive then
            (a.moded env x).pendingMode = some raw ∧ (a.moded env x).params = a.params
          else (a.moded env x).pendingMode = none ∧ (a.moded env x).params = .preset (eventModeOfRaw raw) := by
  have hmode := (a.stepState env x).applyModeRequests_mode env
  have hparams : (a.stepState env x).params = a.params := rfl
  rw [a.stepState_requestedMode env x hhandled hcount, hparams] at hmode
  rw [App.controlTick_sm]
  exact hmode

end Tick

/-! ## Runs -/

section Runs

variable {env : Env} {ρ : ℕ → Tick}

/-- **The requests before a tick** are handled: the last one is in use, or pending. -/
structure Requested (env : Env) (a : App) (last : Option ℕ) : Prop where
  handled : a.handledModeCommands = a.rx.vcuModeCommand.count
  shell : a.shellModeRequest = none
  applied : a.pendingMode = none → a.params = requestedSet env last
  pending : ∀ raw, a.pendingMode = some raw → last = some raw

theorem Requested.boot : Requested env (App.boot env) none where
  handled := rfl
  shell := rfl
  applied := fun _ => rfl
  pending := fun raw h => absurd h (by simp [App.boot])

/-- A request that is to be applied is the last one made. -/
theorem Requested.last_eq {a : App} {last : Option ℕ} (h : Requested env a last) {new : Option ℕ} {raw : ℕ}
    (hreq : new.or a.pendingMode = some raw) : new.or last = some raw := by
  cases new with
  | some new =>
      rw [Option.some_or] at hreq
      rw [Option.some_or, hreq]
  | none =>
      rw [Option.none_or] at hreq
      rw [Option.none_or, h.pending raw hreq]

/-- **One tick** handles its request; outside DRIVE it applies the last one. -/
theorem Requested.tick {a : App} {last : Option ℕ} (h : Requested env a last) (τ : Tick)
    (hcount : τ.inputs.criticalFrames.length < 2 ^ 32) :
    Requested env (a.tick env τ) ((tickRequest τ).or last) ∧
      ((a.tick env τ).sm.state = .drive → (a.tick env τ).params = a.params) ∧
      ((a.tick env τ).sm.state ≠ .drive → (a.tick env τ).params = requestedSet env ((tickRequest τ).or last)) := by
  obtain ⟨hpending, hhandled, hshell⟩ := a.beforeTick_requests env τ
  have hsame := App.beforeTick_same env a τ
  rw [h.shell, Option.or_none] at hshell
  obtain ⟨hparams', hpending', hhandled', hshell'⟩ := App.controlTick_mode env (a.beforeTick env τ) τ.inputs
  obtain ⟨hdone, hnoshell, hmode⟩ := App.moded_mode env (a.beforeTick env τ) τ.inputs
    (by rw [hhandled, h.handled, hsame.rx]) hcount
  rw [hshell, hpending] at hmode
  have hrx : (a.tick env τ).rx = (a.beforeTick env τ).rx.drain τ.inputs.criticalFrames τ.inputs.now :=
    App.controlTick_rx env _ _
  have hasked : (shellRequest τ.tasks).or (busRequest τ.inputs) = tickRequest τ := rfl
  rw [hasked] at hmode
  unfold App.tick at hrx ⊢
  have hcounted : ((a.beforeTick env τ).controlTick env τ.inputs).1.handledModeCommands =
      ((a.beforeTick env τ).controlTick env τ.inputs).1.rx.vcuModeCommand.count := by
    rw [hhandled', hdone, hrx]
  have hquiet := hshell'.trans hnoshell
  -- no request at all, one that waits for the end of the drive, and one that is applied now
  cases hreq : (tickRequest τ).or a.pendingMode with
  | none =>
      rw [hreq] at hmode
      obtain ⟨hnopending, hkept⟩ := hmode
      obtain ⟨hnone, hidle⟩ := Option.or_eq_none_iff.mp hreq
      rw [hnone, Option.none_or]
      have hset : ((a.beforeTick env τ).controlTick env τ.inputs).1.params = requestedSet env last := by
        rw [hparams', hkept, hsame.params, h.applied hidle]
      refine ⟨⟨?_, ?_, ?_, ?_⟩, ?_, ?_⟩
      · exact hcounted
      · exact hquiet
      · intro _
        exact hset
      · intro raw hraw
        rw [hpending', hnopending] at hraw
        exact absurd hraw (by simp)
      · intro _
        rw [hparams', hkept, hsame.params]
      · intro _
        exact hset
  | some raw =>
      rw [hreq] at hmode
      rw [h.last_eq hreq]
      by_cases hdrive : ((a.beforeTick env τ).controlTick env τ.inputs).1.sm.state = .drive
      · dsimp only at hmode
        rw [if_pos hdrive] at hmode
        refine ⟨⟨?_, ?_, ?_, ?_⟩, ?_, ?_⟩
        · exact hcounted
        · exact hquiet
        · intro hnone
          rw [hpending', hmode.1] at hnone
          exact absurd hnone (by simp)
        · intro raw' hraw
          rw [hpending', hmode.1] at hraw
          exact hraw
        · intro _
          rw [hparams', hmode.2, hsame.params]
        · intro hout
          exact absurd hdrive hout
      · dsimp only at hmode
        rw [if_neg hdrive] at hmode
        have hset : ((a.beforeTick env τ).controlTick env τ.inputs).1.params = requestedSet env (some raw) := by
          rw [hparams', hmode.2]
          rfl
        refine ⟨⟨?_, ?_, ?_, ?_⟩, ?_, ?_⟩
        · exact hcounted
        · exact hquiet
        · intro _
          exact hset
        · intro raw' hraw
          rw [hpending', hmode.1] at hraw
          exact absurd hraw (by simp)
        · intro hin
          exact absurd hin hdrive
        · intro _
          exact hset

/-- The requests are handled throughout a run. -/
theorem requested_run (hcount : Countable ρ) (n : ℕ) : Requested env (runState env ρ n) (lastRequest ρ n) := by
  induction n with
  | zero => exact Requested.boot
  | succ n ih => exact (ih.tick (ρ n) (hcount n)).1

/-- **A DRIVE tick leaves the set in use as it was.** -/
theorem params_kept (hcount : Countable ρ) {n : ℕ} (h : (after env ρ n).sm.state = .drive) :
    (after env ρ n).params = (runState env ρ n).params :=
  ((requested_run hcount n).tick (ρ n) (hcount n)).2.1 h

/-- The set in use is one set for as long as the car stays in DRIVE. -/
theorem params_held (hcount : Countable ρ) {m n : ℕ} (hmn : m ≤ n)
    (hdrive : ∀ k, m ≤ k → k ≤ n → (after env ρ k).sm.state = .drive) :
    (after env ρ n).params = (runState env ρ m).params := by
  refine Trace.frame (f := fun k => (runState env ρ k).params) (Nat.le_succ_of_le hmn) ?_
  intro k hmk hk
  exact params_kept hcount (hdrive k hmk (Nat.le_of_lt_succ hk))

end Runs

/-! ## The claim -/

/-- The torque of a tick is computed and limited with a set: the torque stage finds it in use, and the arbitration clamps
    to its limits. -/
structure TorqueUnder (env : Env) (a : App) (x : TickInputs) (set : ParamsRef) : Prop where
  used : (a.moded env x).params = set
  computed : (a.controlTick env x).1.torqueCommand = ((a.moded env x).updateTorque env x.now (a.dtMs x.now)
    ((a.moded env x).rx.inverterFresh x.now)).torqueCommand
  limited : ∃ regen bse2Psi positive, (a.controlTick env x).1.torqueCommand =
    arbitrate (set.deref env) (a.controlTick env x).1.torqueAllowed regen bse2Psi positive

theorem torqueUnder (env : Env) (a : App) (x : TickInputs) : TorqueUnder env a x (a.controlTick env x).1.params where
  used := (App.controlTick_mode env a x).1.symm
  computed := by
    rw [a.controlTick_of_command env x App.torqueCommand (fun _ _ _ _ _ => rfl), App.command_eq]
  limited := App.controlTick_torqueCommand env a x

/-- **The parameter set follows the last request, outside DRIVE.** A tick that ends in DRIVE keeps the set in use; a tick
    that ends outside leaves that of the last request; and the torque of a DRIVE tick is computed and limited with the set
    in use as DRIVE was entered. -/
theorem mode_follows_request (env : Env) (ρ : ℕ → Tick) (hcount : Countable ρ) (n : ℕ) :
    ((after env ρ n).sm.state = .drive → (after env ρ n).params = (runState env ρ n).params) ∧
      ((after env ρ n).sm.state ≠ .drive → (after env ρ n).params = requestedSet env (lastRequest ρ (n + 1))) ∧
      ∀ m, m ≤ n → (∀ k, m ≤ k → k ≤ n → (after env ρ k).sm.state = .drive) →
        TorqueUnder env (before env ρ n) (ρ n).inputs (runState env ρ m).params := by
  refine ⟨?_, ?_, ?_⟩
  · exact params_kept hcount
  · exact ((requested_run hcount n).tick (ρ n) (hcount n)).2.2
  · intro m hmn hdrive
    rw [← params_held hcount hmn hdrive]
    exact torqueUnder env (before env ρ n) (ρ n).inputs

/-! ## Requests for a skidpad -/

/-- A frame that asks for a mode. -/
def modeFrame (mode : U8) : CanFrame := { id := 41, len := 8, data := payload [mode] }

/-- Two frames that ask for modes, in the first two ticks of a car at rest. -/
def modeRun (first second : U8) : ℕ → Tick
  | 0 => { inputs := { now := 0, criticalFrames := [modeFrame first] } }
  | 1 => { inputs := { now := 10, criticalFrames := [modeFrame second] } }
  | _ => { inputs := { now := 20 } }

/-- A board without a floating-point unit will do for a car at rest. -/
def restEnv : Env := { pow := fun x _ => x }

theorem modeRun_countable (first second : U8) : Countable (modeRun first second) := by
  intro n
  match n with
  | 0 => exact (by decide : 1 < 2 ^ 32)
  | 1 => exact (by decide : 1 < 2 ^ 32)
  | n + 2 => exact (by decide : 0 < 2 ^ 32)

/-- The skidpad set is in use after the second request. -/
theorem mode_follows_request_skidpad : (after restEnv (modeRun 1 2) 1).params = .preset .skidpad :=
  (mode_follows_request restEnv (modeRun 1 2) (modeRun_countable 1 2) 1).2.1 (by decide)

/-- The last request of the first `n` ticks that names a mode. -/
def lastNamed (ρ : ℕ → Tick) : ℕ → Option ℕ
  | 0 => none
  | n + 1 =>
      let commands := (ρ n).inputs.criticalFrames.filter (accepts VcuModeCommand)
      let named := (commands.map fun f => (Message.fromFrame f : VcuModeCommand).eventMode.toNat).filter (· ≤ 4)
      ((shellRequest (ρ n).tasks).or named.getLast?).or (lastNamed ρ n)

/-- Only a request that names a mode changes the set. -/
def FollowsNamed (env : Env) (ρ : ℕ → Tick) : Prop :=
  ∀ n raw, (after env ρ n).sm.state ≠ .drive → lastNamed ρ (n + 1) = some raw →
    (after env ρ n).params = .preset (eventModeOfRaw raw)

/-- A request for mode 7 takes the skidpad set out of use. -/
theorem not_follows_named : ¬ ∀ env ρ, Countable ρ → FollowsNamed env ρ := by
  intro h
  have hcount := modeRun_countable 2 7
  have hpark : (after restEnv (modeRun 2 7) 1).sm.state ≠ .drive := by decide
  have hnamed := h restEnv (modeRun 2 7) hcount 1 2 hpark (by decide)
  have hset : (after restEnv (modeRun 2 7) 1).params = requestedSet restEnv (lastRequest (modeRun 2 7) 2) :=
    ((requested_run hcount 1).tick (modeRun 2 7 1) (hcount 1)).2.2 hpark
  rw [hnamed] at hset
  have hseven : lastRequest (modeRun 2 7) 2 = some 7 := by decide
  rw [hseven] at hset
  exact absurd hset (by decide)

end Lhre.Vcu
