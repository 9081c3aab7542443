import Lhre.Autonomy.SafetyRuns

/-!
# `Autonomy.Correctness.SafetyVerdicts` — what the safety node decides, from the messages it received

Each check of the node fails for a reason in the messages received so far; the verdict is the first failing check, and the
heartbeat and the emergency follow from the verdicts alone.

## Contents
- **Failing checks.** `Arrived`, `Fresh`, `SteersWrong`; `Fails` is what each fault means, `Fault.rank` the documented order.
- **Flags.** `flags_succ`: what one event does to each flag; `diverged_iff`, `cmdInvalid_iff`, `outside_iff`.
- **Times.** `stale_iff`.
- **Steering.** `steerFault_iff`.
- **The verdict.** `fails_iff`, `verdict_first`.
- **The latch.** `latched_iff_trips`, `tripped_iff_first`, `counter_eq`.
-/

namespace Lhre.Autonomy

open Trace

variable (cfg : SafetyConfig) (fn : SafetyMath) (start : ℚ) (ρ : ℕ → ℚ × SafetyEvent)

/-! ## Failing checks -/

/-- A message of a kind arrived within a timeout of a position, or the node started within it. -/
def Arrived (kind : ℕ → Prop) (timeout : ℚ) (n : ℕ) : Prop :=
  (ρ n).1 - start ≤ timeout ∨ ∃ k, k < n ∧ kind k ∧ (ρ n).1 - (ρ k).1 ≤ timeout

/-- A message is the latest of its kind, or arrived since the previous check. -/
def Fresh (kind : ℕ → Prop) (k n : ℕ) : Prop :=
  k < n ∧ ((∀ j, k < j → j < n → ¬ kind j) ∨ ∀ j, k < j → j < n → ¬ IsTick ρ j)

/-- The odometry received is not finite, over speed or too uncertain. -/
def BadOdom (k : ℕ) : Prop := ∃ msg, (ρ k).2 = .odom msg ∧ ∀ s, msg.finite = some s → s.diverged cfg fn = true

/-- The command received is not finite. -/
def BadCommand (k : ℕ) : Prop := (ρ k).2 = .command none

/-- The sample received is outside the fence in force. -/
def OutsideFence (k : ℕ) : Prop :=
  ∃ s o, sampleAt ρ k = some s ∧ fenceAt ρ k = some o ∧ s.outside cfg fn o = true

/-- The sample received turns as the command does not. -/
def Mismatch (k : ℕ) : Prop := ∃ s, sampleAt ρ k = some s ∧ s.mismatch cfg fn (commandAt ρ k) = true

/-- The mismatch lasted for `steer_window_s` up to the latest finite sample. -/
def SteersWrong (n : ℕ) : Prop :=
  ∃ k, k < n ∧ IsSample ρ k ∧ (∀ i, k < i → i < n → ¬ IsSample ρ i) ∧
    ∃ j, j ≤ k ∧ IsSample ρ j ∧ (∀ i, j ≤ i → i ≤ k → IsSample ρ i → Mismatch cfg fn ρ i) ∧
      cfg.steerWindowS ≤ (ρ k).1 - (ρ j).1

/-- When the check behind each fault fails. -/
def Fails (n : ℕ) : Fault → Prop
  | .none => False
  | .odomStale => ¬ Arrived start ρ (IsOdom ρ) cfg.odomTimeoutS n
  | .ekfDiverged => ∃ k, Fresh ρ (IsOdom ρ) k n ∧ BadOdom cfg fn ρ k
  | .cmdStale => ¬ Arrived start ρ (IsCommand ρ) cfg.cmdTimeoutS n
  | .cmdInvalid => ∃ k, Fresh ρ (IsCommand ρ) k n ∧ BadCommand ρ k
  | .lidarStale => cfg.monitorLidar = true ∧ ¬ Arrived start ρ (IsLidar ρ) cfg.lidarTimeoutS n
  | .geofence =>
      ∃ k, Fresh ρ (IsSample ρ) k n ∧ OutsideFence cfg fn ρ k ∧ ∀ j, k < j → j < n → ¬ Arms ρ j
  | .steerTracking => SteersWrong cfg fn ρ n

/-- The documented priority. -/
def Fault.rank : Fault → ℕ
  | .odomStale => 0
  | .ekfDiverged => 1
  | .cmdStale => 2
  | .cmdInvalid => 3
  | .lidarStale => 4
  | .geofence => 5
  | .steerTracking => 6
  | .none => 7

/-- The monitor after the first `n` events. -/
def monitorAt (n : ℕ) : SafetyMonitor := (nodeAt cfg fn start ρ n).monitor

/-- The verdict of `check` at a position. -/
def verdictAt (n : ℕ) : Fault := ((monitorAt cfg fn start ρ n).check cfg (ρ n).1).1

/-- What the tick at a position publishes. -/
def outputAt (n : ℕ) : SafetyOutput := ((nodeAt cfg fn start ρ n).tick cfg (ρ n).1).2

section Flags

variable {cfg fn start ρ}

/-- What an event does to the monitor. -/
theorem monitor_cases (n : ℕ) :
    (IsTick ρ n ∧ monitorAt cfg fn start ρ (n + 1) =
        if isArmed (heardAt ρ n) && !armedAt ρ n then
          ((monitorAt cfg fn start ρ n).check cfg (ρ n).1).2.anchorGeofence
        else ((monitorAt cfg fn start ρ n).check cfg (ρ n).1).2) ∨
    (∃ msg, (ρ n).2 = .odom msg ∧
      monitorAt cfg fn start ρ (n + 1) = (monitorAt cfg fn start ρ n).onOdom cfg fn (ρ n).1 msg) ∨
    (∃ angle, (ρ n).2 = .command angle ∧
      monitorAt cfg fn start ρ (n + 1) = (monitorAt cfg fn start ρ n).onCommand (ρ n).1 angle) ∨
    ((IsLidar ρ n ∧ cfg.monitorLidar = true) ∧
      monitorAt cfg fn start ρ (n + 1) = (monitorAt cfg fn start ρ n).onLidar (ρ n).1) ∨
    ((¬ IsTick ρ n ∧ ¬ IsOdom ρ n ∧ ¬ IsCommand ρ n ∧ ¬ (IsLidar ρ n ∧ cfg.monitorLidar = true)) ∧
      monitorAt cfg fn start ρ (n + 1) = monitorAt cfg fn start ρ n) := by
  have hrem := @remembers cfg fn start ρ n
  unfold monitorAt
  rw [nodeAt_succ, SafetyNode.step]
  unfold IsTick IsOdom IsCommand IsLidar
  cases he : (ρ n).2 with
  | tick =>
      left
      refine ⟨rfl, ?_⟩
      dsimp only
      rw [tick_monitor, hrem.missionState, hrem.armed]
  | odom msg => exact Or.inr (Or.inl ⟨msg, rfl, rfl⟩)
  | command angle => exact Or.inr (Or.inr (Or.inl ⟨angle, rfl, rfl⟩))
  | lidar =>
      by_cases hlidar : cfg.monitorLidar = true
      · exact Or.inr (Or.inr (Or.inr (Or.inl ⟨⟨rfl, hlidar⟩, by simp [hlidar]⟩)))
      · exact Or.inr (Or.inr (Or.inr (Or.inr ⟨by simp [hlidar], by simp [hlidar]⟩)))
  | status missionState => exact Or.inr (Or.inr (Or.inr (Or.inr ⟨by simp, rfl⟩)))
  | reset data => exact Or.inr (Or.inr (Or.inr (Or.inr ⟨by simp, by dsimp only; split <;> rfl⟩)))

theorem badOdom_iff {n : ℕ} {msg : OdomMsg} (h : (ρ n).2 = .odom msg) :
    BadOdom cfg fn ρ n ↔ ∀ s, msg.finite = some s → s.diverged cfg fn = true := by
  unfold BadOdom
  rw [h]
  constructor
  · rintro ⟨msg', hmsg, hbad⟩
    cases hmsg
    exact hbad
  · exact fun hbad => ⟨msg, rfl, hbad⟩

theorem BadOdom.isOdom {n : ℕ} (h : BadOdom cfg fn ρ n) : IsOdom ρ n := by
  obtain ⟨msg, hmsg, -⟩ := h
  exact ⟨msg, hmsg⟩

theorem OutsideFence.isSample {n : ℕ} (h : OutsideFence cfg fn ρ n) : IsSample ρ n := by
  obtain ⟨s, -, hs, -⟩ := h
  exact ⟨s, hs⟩

/-- A fence that was never set leaves nothing outside it. -/
theorem outside_of_no_origin (n : ℕ) :
    (monitorAt cfg fn start ρ n).origin = none → (monitorAt cfg fn start ρ n).outside = false := by
  induction n with
  | zero => exact fun _ => rfl
  | succ n ih =>
      rcases @monitor_cases cfg fn start ρ n with
        ⟨-, heq⟩ | ⟨msg, -, heq⟩ | ⟨angle, -, heq⟩ | ⟨-, heq⟩ | ⟨-, heq⟩
      · rw [heq]
        split
        · exact fun _ => rfl
        · exact ih
      · rw [heq, SafetyMonitor.onOdom]
        split
        · exact ih
        · rw [onSample_eq]
          intro hnone
          have hnone' : (monitorAt cfg fn start ρ n).origin = none := hnone
          simpa [hnone'] using ih hnone'
      · rw [heq]
        exact ih
      · rw [heq]
        exact ih
      · rw [heq]
        exact ih

/-- What one event does to each flag: which events set it, and which forget it. -/
structure FlagsStep (n : ℕ) : Prop where
  diverged : (monitorAt cfg fn start ρ (n + 1)).diverged = true ↔
    BadOdom cfg fn ρ n ∨ ((monitorAt cfg fn start ρ n).diverged = true ∧ ¬ IsOdom ρ n)
  divergedSeen : (monitorAt cfg fn start ρ (n + 1)).divergedSeen = true ↔
    BadOdom cfg fn ρ n ∨ ((monitorAt cfg fn start ρ n).divergedSeen = true ∧ ¬ IsTick ρ n)
  cmdInvalid : (monitorAt cfg fn start ρ (n + 1)).cmdInvalid = true ↔
    BadCommand ρ n ∨ ((monitorAt cfg fn start ρ n).cmdInvalid = true ∧ ¬ IsCommand ρ n)
  cmdInvalidSeen : (monitorAt cfg fn start ρ (n + 1)).cmdInvalidSeen = true ↔
    BadCommand ρ n ∨ ((monitorAt cfg fn start ρ n).cmdInvalidSeen = true ∧ ¬ IsTick ρ n)
  outside : (monitorAt cfg fn start ρ (n + 1)).outside = true ↔
    OutsideFence cfg fn ρ n ∨ ((monitorAt cfg fn start ρ n).outside = true ∧ ¬ (IsSample ρ n ∨ Arms ρ n))
  outsideSeen : (monitorAt cfg fn start ρ (n + 1)).outsideSeen = true ↔
    OutsideFence cfg fn ρ n ∨ ((monitorAt cfg fn start ρ n).outsideSeen = true ∧ ¬ IsTick ρ n)

theorem flagsStep_tick {n : ℕ} (h : IsTick ρ n)
    (heq : monitorAt cfg fn start ρ (n + 1) =
      if isArmed (heardAt ρ n) && !armedAt ρ n then ((monitorAt cfg fn start ρ n).check cfg (ρ n).1).2.anchorGeofence
      else ((monitorAt cfg fn start ρ n).check cfg (ρ n).1).2) :
    @FlagsStep cfg fn start ρ n := by
  have he : (ρ n).2 = .tick := h
  have hbad : ¬ BadOdom cfg fn ρ n := by simp [BadOdom, he]
  have hcommand : ¬ BadCommand ρ n := by simp [BadCommand, he]
  have hout : ¬ OutsideFence cfg fn ρ n := by simp [OutsideFence, sampleAt, he]
  have harms : Arms ρ n ↔ (isArmed (heardAt ρ n) && !armedAt ρ n) = true := by simp [Arms, h]
  cases hb : isArmed (heardAt ρ n) && !armedAt ρ n with
  | true =>
      rw [hb, if_pos rfl] at heq
      constructor <;> rw [heq] <;>
        simp [SafetyMonitor.anchorGeofence, SafetyMonitor.check, hbad, hcommand, hout, IsOdom, IsCommand, he, harms, hb, h]
  | false =>
      rw [hb, if_neg (by simp)] at heq
      constructor <;> rw [heq] <;>
        simp [SafetyMonitor.check, hbad, hcommand, hout, IsOdom, IsCommand, IsSample, sampleAt, he, harms, hb, h]

theorem flagsStep_odom {n : ℕ} {msg : OdomMsg} (h : (ρ n).2 = .odom msg)
    (heq : monitorAt cfg fn start ρ (n + 1) = (monitorAt cfg fn start ρ n).onOdom cfg fn (ρ n).1 msg) :
    @FlagsStep cfg fn start ρ n := by
  have hcommand : ¬ BadCommand ρ n := by simp [BadCommand, h]
  have harms : ¬ Arms ρ n := by simp [Arms, IsTick, h]
  have hbad := @badOdom_iff cfg fn ρ n _ h
  have hodom : IsOdom ρ n := ⟨msg, h⟩
  have horigin : (monitorAt cfg fn start ρ n).origin = fenceAt ρ n := (remembers n).origin
  have hclear := @outside_of_no_origin cfg fn start ρ n
  unfold SafetyMonitor.onOdom at heq
  cases hs : msg.finite with
  | none =>
      rw [hs] at heq
      constructor <;> rw [heq] <;>
        simp [hbad, hs, hcommand, OutsideFence, IsSample, sampleAt, h, IsTick, IsCommand, harms]
  | some s =>
      rw [hs] at heq
      dsimp only at heq
      rw [onSample_eq] at heq
      have hout : OutsideFence cfg fn ρ n ↔ ∃ o, fenceAt ρ n = some o ∧ s.outside cfg fn o = true := by
        simp [OutsideFence, sampleAt, h, hs]
      have hsample : IsSample ρ n := ⟨s, by rw [sampleAt_odom h, hs]⟩
      cases hfence : fenceAt ρ n with
      | none =>
          have hfalse := hclear (horigin.trans hfence)
          constructor <;> rw [heq] <;>
            simp [hbad, hs, hcommand, hout, hsample, hfence, horigin, hodom, hfalse, h, IsTick, IsCommand, or_comm]
      | some o =>
          constructor <;> rw [heq] <;>
            simp [hbad, hs, hcommand, hout, hsample, hfence, horigin, hodom, h, IsTick, IsCommand, or_comm]

theorem flagsStep_command {n : ℕ} {angle : Option ℚ} (h : (ρ n).2 = .command angle)
    (heq : monitorAt cfg fn start ρ (n + 1) = (monitorAt cfg fn start ρ n).onCommand (ρ n).1 angle) :
    @FlagsStep cfg fn start ρ n := by
  constructor <;> rw [heq] <;>
    simp [SafetyMonitor.onCommand, BadOdom, BadCommand, OutsideFence, IsSample, sampleAt, IsOdom, IsCommand, IsTick, Arms,
      h, or_comm]

theorem flagsStep_same {n : ℕ} (htick : ¬ IsTick ρ n) (hodom : ¬ IsOdom ρ n) (hcommand : ¬ IsCommand ρ n)
    {lastLidar : Option ℚ}
    (heq : monitorAt cfg fn start ρ (n + 1) = { monitorAt cfg fn start ρ n with lastLidar := lastLidar }) :
    @FlagsStep cfg fn start ρ n := by
  have hbad : ¬ BadOdom cfg fn ρ n := fun h => hodom h.isOdom
  have hinvalid : ¬ BadCommand ρ n := fun h => hcommand ⟨none, h⟩
  have hsample : ¬ IsSample ρ n := fun h => hodom h.isOdom
  have hout : ¬ OutsideFence cfg fn ρ n := fun h => hsample h.isSample
  have harms : ¬ Arms ρ n := fun h => htick h.1
  constructor <;> rw [heq] <;> simp [hbad, hinvalid, hsample, hout, harms, htick, hodom, hcommand]

/-- **What one event does to each flag.** -/
theorem flagsStep (n : ℕ) : @FlagsStep cfg fn start ρ n := by
  rcases @monitor_cases cfg fn start ρ n with
    ⟨htick, heq⟩ | ⟨msg, he, heq⟩ | ⟨angle, he, heq⟩ | ⟨⟨hlidar, -⟩, heq⟩ | ⟨⟨htick, hodom, hcommand, -⟩, heq⟩
  · exact flagsStep_tick htick heq
  · exact flagsStep_odom he heq
  · exact flagsStep_command he heq
  · have he : (ρ n).2 = .lidar := hlidar
    exact flagsStep_same (by simp [IsTick, he]) (by simp [IsOdom, he]) (by simp [IsCommand, he]) heq
  · exact flagsStep_same htick hodom hcommand heq

/-- A pair of flags, one that the latest message of a kind decides and one held until the check, remembers the fresh
    messages. -/
theorem fresh_iff {kind S : ℕ → Prop} (latest seen : ℕ → Bool) (h₀ : latest 0 = false) (h₀' : seen 0 = false)
    (hlatest : ∀ n, latest (n + 1) = true ↔ S n ∨ (latest n = true ∧ ¬ kind n))
    (hseen : ∀ n, seen (n + 1) = true ↔ S n ∨ (seen n = true ∧ ¬ IsTick ρ n)) (n : ℕ) :
    (latest n || seen n) = true ↔ ∃ k, Fresh ρ kind k n ∧ S k := by
  have hl := latched_iff (P := fun n => latest n = true) (by simp [h₀]) hlatest n
  have hs := latched_iff (P := fun n => seen n = true) (by simp [h₀']) hseen n
  rw [Bool.or_eq_true, hl, hs]
  constructor
  · rintro (⟨k, hk, hSk, hno⟩ | ⟨k, hk, hSk, hno⟩)
    · exact ⟨k, ⟨hk, Or.inl hno⟩, hSk⟩
    · exact ⟨k, ⟨hk, Or.inr hno⟩, hSk⟩
  · rintro ⟨k, ⟨hk, hno | hno⟩, hSk⟩
    · exact Or.inl ⟨k, hk, hSk, hno⟩
    · exact Or.inr ⟨k, hk, hSk, hno⟩

theorem diverged_iff (n : ℕ) :
    ((monitorAt cfg fn start ρ n).diverged || (monitorAt cfg fn start ρ n).divergedSeen) = true ↔
      ∃ k, Fresh ρ (IsOdom ρ) k n ∧ BadOdom cfg fn ρ k :=
  fresh_iff (fun n => (monitorAt cfg fn start ρ n).diverged) (fun n => (monitorAt cfg fn start ρ n).divergedSeen) rfl rfl
    (fun n => (flagsStep n).diverged) (fun n => (flagsStep n).divergedSeen) n

theorem cmdInvalid_iff (n : ℕ) :
    ((monitorAt cfg fn start ρ n).cmdInvalid || (monitorAt cfg fn start ρ n).cmdInvalidSeen) = true ↔
      ∃ k, Fresh ρ (IsCommand ρ) k n ∧ BadCommand ρ k :=
  fresh_iff (fun n => (monitorAt cfg fn start ρ n).cmdInvalid) (fun n => (monitorAt cfg fn start ρ n).cmdInvalidSeen) rfl
    rfl (fun n => (flagsStep n).cmdInvalid) (fun n => (flagsStep n).cmdInvalidSeen) n

theorem outside_iff (n : ℕ) :
    ((monitorAt cfg fn start ρ n).outside || (monitorAt cfg fn start ρ n).outsideSeen) = true ↔
      ∃ k, Fresh ρ (IsSample ρ) k n ∧ OutsideFence cfg fn ρ k ∧ ∀ j, k < j → j < n → ¬ Arms ρ j := by
  have hl := latched_iff (P := fun n => (monitorAt cfg fn start ρ n).outside = true)
    (by simp [monitorAt, nodeAt, SafetyNode.init])
    (fun n => (flagsStep n).outside) n
  have hs := latched_iff (P := fun n => (monitorAt cfg fn start ρ n).outsideSeen = true)
    (by simp [monitorAt, nodeAt, SafetyNode.init]) (fun n => (flagsStep n).outsideSeen) n
  rw [Bool.or_eq_true, hl, hs]
  constructor
  · rintro (⟨k, hk, hout, hno⟩ | ⟨k, hk, hout, hno⟩)
    · exact ⟨k, ⟨hk, Or.inl fun j hj hjn h => hno j hj hjn (Or.inl h)⟩, hout, fun j hj hjn h => hno j hj hjn (Or.inr h)⟩
    · exact ⟨k, ⟨hk, Or.inr hno⟩, hout, fun j hj hjn h => hno j hj hjn h.1⟩
  · rintro ⟨k, ⟨hk, hno | hno⟩, hout, harms⟩
    · exact Or.inl ⟨k, hk, hout, fun j hj hjn h => h.elim (hno j hj hjn) (harms j hj hjn)⟩
    · exact Or.inr ⟨k, hk, hout, hno⟩

end Flags

/-! ## Times -/

section Times

variable {cfg fn start ρ}

/-- **Stale means that nothing arrived in time.** The latest message of a kind is the youngest, since the clock never goes
    back. -/
theorem stale_iff (hclock : Clocked start ρ) {kind : ℕ → Prop} (last : ℕ → Option ℚ) (h₀ : last 0 = none)
    (hset : ∀ k, kind k → last (k + 1) = some (ρ k).1) (hframe : ∀ k, ¬ kind k → last (k + 1) = last k)
    {m : SafetyMonitor} (hstart : m.start = start) (timeout : ℚ) (n : ℕ) :
    m.stale (last n) (ρ n).1 timeout = true ↔ ¬ Arrived start ρ kind timeout n := by
  unfold SafetyMonitor.stale Arrived
  rw [hstart]
  rcases latest (v := fun k => (ρ k).1) h₀ hset hframe n with ⟨hnone, hno⟩ | ⟨m, hmn, hm, hlast, hno⟩
  · have hage : 0 ≤ (ρ n).1 - start := sub_nonneg.mpr (hclock.start_le n)
    rw [hnone]
    simp only [Option.getD_none, decide_eq_true_eq]
    constructor
    · rintro (hneg | hlate)
      · exact absurd hage (not_le.mpr hneg)
      · rintro (hin | ⟨k, hk, hkind, -⟩)
        · exact absurd hin (not_le.mpr hlate)
        · exact hno k hk hkind
    · intro hnot
      right
      exact not_le.mp fun hin => hnot (Or.inl hin)
  · have hage : 0 ≤ (ρ n).1 - (ρ m).1 := sub_nonneg.mpr (hclock.le hmn.le)
    rw [hlast]
    simp only [Option.getD_some, decide_eq_true_eq]
    constructor
    · rintro (hneg | hlate)
      · exact absurd hage (not_le.mpr hneg)
      · rintro (hin | ⟨k, hk, hkind, hin⟩)
        · have := hclock.start_le m
          linarith
        · have hkm : k ≤ m := not_lt.mp fun hmk => hno k hmk hk hkind
          have := hclock.le hkm
          linarith
    · intro hnot
      right
      exact not_le.mp fun hin => hnot (Or.inr ⟨m, hmn, hm, hin⟩)

/-- When each kind of message was received last. -/
structure TimesStep (n : ℕ) : Prop where
  odom : IsOdom ρ n → (monitorAt cfg fn start ρ (n + 1)).lastOdom = some (ρ n).1
  odom_frame : ¬ IsOdom ρ n → (monitorAt cfg fn start ρ (n + 1)).lastOdom = (monitorAt cfg fn start ρ n).lastOdom
  command : IsCommand ρ n → (monitorAt cfg fn start ρ (n + 1)).lastCmd = some (ρ n).1
  command_frame : ¬ IsCommand ρ n → (monitorAt cfg fn start ρ (n + 1)).lastCmd = (monitorAt cfg fn start ρ n).lastCmd
  lidar : cfg.monitorLidar = true → IsLidar ρ n → (monitorAt cfg fn start ρ (n + 1)).lastLidar = some (ρ n).1
  lidar_frame : ¬ IsLidar ρ n → (monitorAt cfg fn start ρ (n + 1)).lastLidar = (monitorAt cfg fn start ρ n).lastLidar

theorem timesStep (n : ℕ) : @TimesStep cfg fn start ρ n := by
  rcases @monitor_cases cfg fn start ρ n with
    ⟨htick, heq⟩ | ⟨msg, he, heq⟩ | ⟨angle, he, heq⟩ | ⟨⟨hlidar, -⟩, heq⟩ | ⟨⟨htick, hodom, hcommand, hlidar⟩, heq⟩
  · have he : (ρ n).2 = .tick := htick
    constructor <;> rw [heq] <;> simp only [IsOdom, IsCommand, IsLidar, he] <;>
      first | (split <;> simp [SafetyMonitor.anchorGeofence, SafetyMonitor.check]) | simp
  · have hlast : (monitorAt cfg fn start ρ (n + 1)).lastOdom = some (ρ n).1 ∧
        (monitorAt cfg fn start ρ (n + 1)).lastCmd = (monitorAt cfg fn start ρ n).lastCmd ∧
        (monitorAt cfg fn start ρ (n + 1)).lastLidar = (monitorAt cfg fn start ρ n).lastLidar := by
      rw [heq, SafetyMonitor.onOdom]
      split
      · exact ⟨rfl, rfl, rfl⟩
      · rw [onSample_eq]
        exact ⟨rfl, rfl, rfl⟩
    constructor <;> simp [hlast, IsOdom, IsCommand, IsLidar, he]
  · constructor <;> rw [heq] <;> simp [SafetyMonitor.onCommand, IsOdom, IsCommand, IsLidar, he]
  · have he : (ρ n).2 = .lidar := hlidar
    constructor <;> rw [heq] <;> simp [SafetyMonitor.onLidar, IsOdom, IsCommand, IsLidar, he]
  · constructor <;> rw [heq]
    · exact fun h => absurd h hodom
    · exact fun _ => rfl
    · exact fun h => absurd h hcommand
    · exact fun _ => rfl
    · exact fun hmonitor h => absurd ⟨h, hmonitor⟩ hlidar
    · exact fun _ => rfl

end Times

/-! ## Steering -/

section Steering

variable {cfg fn start ρ}

theorem mismatch_iff {k : ℕ} {s : Sample} (h : sampleAt ρ k = some s) :
    Mismatch cfg fn ρ k ↔ s.mismatch cfg fn (commandAt ρ k) = true := by simp [Mismatch, h]

/-- The steering fields change with finite samples only. -/
theorem steering_frame {n : ℕ} (h : ¬ IsSample ρ n) :
    (monitorAt cfg fn start ρ (n + 1)).mismatchSince = (monitorAt cfg fn start ρ n).mismatchSince ∧
      (monitorAt cfg fn start ρ (n + 1)).steerFault = (monitorAt cfg fn start ρ n).steerFault := by
  rcases @monitor_cases cfg fn start ρ n with
    ⟨-, heq⟩ | ⟨msg, he, heq⟩ | ⟨angle, -, heq⟩ | ⟨-, heq⟩ | ⟨-, heq⟩
  · rw [heq]
    split <;> exact ⟨rfl, rfl⟩
  · have hs : msg.finite = none := by
      rw [← sampleAt_odom he]
      exact Option.eq_none_iff_forall_ne_some.mpr fun s hs => h ⟨s, hs⟩
    rw [heq, SafetyMonitor.onOdom, hs]
    exact ⟨rfl, rfl⟩
  · rw [heq]
    exact ⟨rfl, rfl⟩
  · rw [heq]
    exact ⟨rfl, rfl⟩
  · rw [heq]
    exact ⟨rfl, rfl⟩

/-- Since when the yaw rate is wrong after a sample, from the command in force. -/
theorem steering_sample {n : ℕ} {s : Sample} (h : sampleAt ρ n = some s) :
    (monitorAt cfg fn start ρ (n + 1)).mismatchSince =
        (if s.mismatch cfg fn (commandAt ρ n) then
          some (((monitorAt cfg fn start ρ n).mismatchSince.map (min · (ρ n).1)).getD (ρ n).1) else none) ∧
      (monitorAt cfg fn start ρ (n + 1)).steerFault =
        (((monitorAt cfg fn start ρ (n + 1)).mismatchSince.map
          fun since => decide (cfg.steerWindowS ≤ (ρ n).1 - since)).getD false) := by
  have hcmd : (monitorAt cfg fn start ρ n).steerCmd = commandAt ρ n := (remembers n).steerCmd
  rcases @monitor_cases cfg fn start ρ n with
    ⟨htick, -⟩ | ⟨msg, he, heq⟩ | ⟨angle, he, -⟩ | ⟨⟨hlidar, -⟩, -⟩ | ⟨⟨-, hodom, -, -⟩, -⟩
  · have he : (ρ n).2 = .tick := htick
    rw [sampleAt, he] at h
    cases h
  · rw [sampleAt_odom he] at h
    rw [heq, SafetyMonitor.onOdom, h]
    dsimp only
    rw [onSample_eq, ← hcmd]
    exact ⟨rfl, rfl⟩
  · rw [sampleAt, he] at h
    cases h
  · have he : (ρ n).2 = .lidar := hlidar
    rw [sampleAt, he] at h
    cases h
  · exact absurd (IsSample.isOdom ⟨s, h⟩) hodom

/-- The stretch of wrong samples that ends with the latest one: it starts at `j`, and goes no further back. -/
structure WrongStretch (n j k : ℕ) : Prop where
  le : j ≤ k
  lt : k < n
  sample : IsSample ρ k
  first : IsSample ρ j
  latest : ∀ i, k < i → i < n → ¬ IsSample ρ i
  wrong : ∀ i, j ≤ i → i ≤ k → IsSample ρ i → Mismatch cfg fn ρ i
  maximal : ∀ j', j' < j → IsSample ρ j' → ∃ i, j' ≤ i ∧ i < j ∧ IsSample ρ i ∧ ¬ Mismatch cfg fn ρ i

/-- **What the steering fields remember.** Either the latest sample was right, or the stretch of wrong ones that ends with
    it is timed from its start. -/
theorem steering_remembers (hclock : Clocked start ρ) (n : ℕ) :
    ((monitorAt cfg fn start ρ n).mismatchSince = none ∧ (monitorAt cfg fn start ρ n).steerFault = false ∧
      ∀ k, k < n → IsSample ρ k → (∀ i, k < i → i < n → ¬ IsSample ρ i) → ¬ Mismatch cfg fn ρ k) ∨
    ∃ j k, @WrongStretch cfg fn ρ n j k ∧
      (monitorAt cfg fn start ρ n).mismatchSince = some (ρ j).1 ∧
      (monitorAt cfg fn start ρ n).steerFault = decide (cfg.steerWindowS ≤ (ρ k).1 - (ρ j).1) := by
  induction n with
  | zero => exact Or.inl ⟨rfl, rfl, fun k hk => absurd hk (Nat.not_lt_zero k)⟩
  | succ n ih =>
      by_cases hsample : IsSample ρ n
      · obtain ⟨s, hs⟩ := hsample
        obtain ⟨hsince, hfault⟩ := @steering_sample cfg fn start ρ n s hs
        rw [hsince] at hfault
        by_cases hwrong : s.mismatch cfg fn (commandAt ρ n) = true
        · right
          rw [if_pos hwrong] at hsince hfault
          rcases ih with ⟨hnone, -, hright⟩ | ⟨j, k, hstretch, hj, -⟩
          · -- The sample before was right, or there was none: the stretch starts here.
            rw [hnone] at hsince hfault
            refine ⟨n, n, ?_, hsince, hfault⟩
            refine ⟨le_rfl, Nat.lt_succ_self n, ⟨s, hs⟩, ⟨s, hs⟩, fun i hi hin => by omega, ?_, ?_⟩
            · intro i hi hin _
              obtain rfl : i = n := le_antisymm hin hi
              exact (mismatch_iff hs).mpr hwrong
            · intro j' hj' hj's
              rcases last_event (IsSample ρ) n with hno | ⟨k, hk, hks, hlatest⟩
              · exact absurd hj's (hno j' hj')
              · have hjk : j' ≤ k := not_lt.mp fun hlt => hlatest j' hlt hj' hj's
                exact ⟨k, hjk, hk, hks, hright k hk hks hlatest⟩
          · -- The sample before was wrong as well: the stretch goes on.
            have hearlier : min (ρ j).1 (ρ n).1 = (ρ j).1 := min_eq_left (hclock.le (hstretch.le.trans hstretch.lt.le))
            rw [hj] at hsince hfault
            simp only [Option.map_some, Option.getD_some, hearlier] at hsince hfault
            refine ⟨j, n, ?_, hsince, hfault⟩
            refine ⟨hstretch.le.trans hstretch.lt.le, Nat.lt_succ_self n, ⟨s, hs⟩, hstretch.first,
              fun i hi hin => by omega, ?_, hstretch.maximal⟩
            intro i hi hin his
            rcases Nat.lt_or_eq_of_le hin with hlt | rfl
            · by_cases hik : i ≤ k
              · exact hstretch.wrong i hi hik his
              · exact absurd his (hstretch.latest i (not_le.mp hik) hlt)
            · exact (mismatch_iff hs).mpr hwrong
        · left
          rw [if_neg hwrong] at hsince hfault
          refine ⟨hsince, hfault, ?_⟩
          intro k hk hks hlatest hmis
          rcases Nat.lt_or_eq_of_le (Nat.le_of_lt_succ hk) with hlt | rfl
          · exact hlatest n hlt (Nat.lt_succ_self n) ⟨s, hs⟩
          · exact hwrong ((mismatch_iff hs).mp hmis)
      · obtain ⟨hsince, hfault⟩ := @steering_frame cfg fn start ρ n hsample
        rw [hsince, hfault]
        rcases ih with ⟨hnone, hfalse, hright⟩ | ⟨j, k, hstretch, hj, hk⟩
        · left
          refine ⟨hnone, hfalse, ?_⟩
          intro k hk hks hlatest
          have hkn : k < n := lt_of_le_of_ne (Nat.le_of_lt_succ hk) fun heq => hsample (heq ▸ hks)
          exact hright k hkn hks fun i hi hin => hlatest i hi (Nat.lt_succ_of_lt hin)
        · right
          refine ⟨j, k, ⟨hstretch.le, Nat.lt_succ_of_lt hstretch.lt, hstretch.sample, hstretch.first, ?_, hstretch.wrong,
            hstretch.maximal⟩, hj, hk⟩
          intro i hi hin his
          rcases Nat.lt_or_eq_of_le (Nat.le_of_lt_succ hin) with hlt | rfl
          · exact hstretch.latest i hi hlt his
          · exact hsample his

/-- **The steering fault** says that the mismatch lasted for the window. -/
theorem steerFault_iff (hclock : Clocked start ρ) (n : ℕ) :
    (monitorAt cfg fn start ρ n).steerFault = true ↔ SteersWrong cfg fn ρ n := by
  rcases @steering_remembers cfg fn start ρ hclock n with ⟨-, hfalse, hright⟩ | ⟨j, k, hstretch, -, hfault⟩
  · rw [hfalse]
    constructor
    · exact fun h => nomatch h
    · rintro ⟨k, hk, hks, hlatest, j, hjk, -, hwrong, -⟩
      exact absurd (hwrong k hjk le_rfl hks) (hright k hk hks hlatest)
  · rw [hfault, decide_eq_true_eq]
    constructor
    · exact fun h => ⟨k, hstretch.lt, hstretch.sample, hstretch.latest, j, hstretch.le, hstretch.first, hstretch.wrong, h⟩
    · rintro ⟨k', hk', hks', hlatest', j', hjk', hjs', hwrong', hlong⟩
      -- There is one latest sample, and no stretch of wrong ones reaches further back than the longest.
      obtain rfl : k' = k := by
        rcases Nat.lt_trichotomy k' k with hlt | heq | hlt
        · exact absurd hstretch.sample (hlatest' k hlt hstretch.lt)
        · exact heq
        · exact absurd hks' (hstretch.latest k' hlt hk')
      have hjj' : j ≤ j' := by
        refine not_lt.mp fun hlt => ?_
        obtain ⟨i, hji, hij, his, hright⟩ := hstretch.maximal j' hlt hjs'
        exact hright (hwrong' i hji (hij.le.trans hstretch.le) his)
      have := hclock.le hjj'
      linarith

end Steering

/-! ## The verdict -/

section Verdict

variable {cfg fn start ρ}

theorem Fault.rank_injective {f g : Fault} (h : f.rank = g.rank) : f = g := by
  cases f <;> cases g <;> first | rfl | exact absurd h (by decide)

/-- The verdict is a failing check, and none of a higher priority fails. -/
theorem verdict_spec (hclock : Clocked start ρ) (n : ℕ) :
    (verdictAt cfg fn start ρ n ≠ .none → Fails cfg fn start ρ n (verdictAt cfg fn start ρ n)) ∧
      ∀ g, g.rank < (verdictAt cfg fn start ρ n).rank → ¬ Fails cfg fn start ρ n g := by
  have hstart : (monitorAt cfg fn start ρ n).start = start := (remembers n).start
  have hodom : _ ↔ Fails cfg fn start ρ n .odomStale :=
    stale_iff hclock (fun n => (monitorAt cfg fn start ρ n).lastOdom) rfl (fun k h => (timesStep k).odom h)
      (fun k h => (timesStep k).odom_frame h) hstart cfg.odomTimeoutS n
  have hcommand : _ ↔ Fails cfg fn start ρ n .cmdStale :=
    stale_iff hclock (fun n => (monitorAt cfg fn start ρ n).lastCmd) rfl (fun k h => (timesStep k).command h)
      (fun k h => (timesStep k).command_frame h) hstart cfg.cmdTimeoutS n
  have hlidar : (cfg.monitorLidar &&
      (monitorAt cfg fn start ρ n).stale (monitorAt cfg fn start ρ n).lastLidar (ρ n).1 cfg.lidarTimeoutS) = true ↔
      Fails cfg fn start ρ n .lidarStale := by
    rw [Bool.and_eq_true]
    exact and_congr_right fun hmonitor =>
      stale_iff hclock (fun n => (monitorAt cfg fn start ρ n).lastLidar) rfl (fun k h => (timesStep k).lidar hmonitor h)
        (fun k h => (timesStep k).lidar_frame h) hstart cfg.lidarTimeoutS n
  have hdiverged : _ ↔ Fails cfg fn start ρ n .ekfDiverged := @diverged_iff cfg fn start ρ n
  have hinvalid : _ ↔ Fails cfg fn start ρ n .cmdInvalid := @cmdInvalid_iff cfg fn start ρ n
  have houtside : _ ↔ Fails cfg fn start ρ n .geofence := @outside_iff cfg fn start ρ n
  have hsteer : _ ↔ Fails cfg fn start ρ n .steerTracking := steerFault_iff hclock n
  unfold verdictAt SafetyMonitor.check
  dsimp only
  -- One case for each fault, in the order of the code; the checks before it have passed.
  repeat' split
  all_goals
    refine ⟨?_, ?_⟩
    · intro hne
      first
        | exact hodom.mp ‹_›
        | exact hdiverged.mp ‹_›
        | exact hcommand.mp ‹_›
        | exact hinvalid.mp ‹_›
        | exact hlidar.mp ‹_›
        | exact houtside.mp ‹_›
        | exact hsteer.mp ‹_›
        | exact absurd rfl hne
    · intro g hg hfails
      cases g <;> first
        | exact absurd hg (by decide)
        | exact absurd (hodom.mpr hfails) ‹_›
        | exact absurd (hdiverged.mpr hfails) ‹_›
        | exact absurd (hcommand.mpr hfails) ‹_›
        | exact absurd (hinvalid.mpr hfails) ‹_›
        | exact absurd (hlidar.mpr hfails) ‹_›
        | exact absurd (houtside.mpr hfails) ‹_›
        | exact absurd (hsteer.mpr hfails) ‹_›

/-- **No fault is found exactly when no check fails.** -/
theorem verdict_none_iff (hclock : Clocked start ρ) (n : ℕ) :
    verdictAt cfg fn start ρ n = .none ↔ ∀ f, ¬ Fails cfg fn start ρ n f := by
  obtain ⟨hfails, hbefore⟩ := @verdict_spec cfg fn start ρ hclock n
  constructor
  · intro hnone f
    by_cases hf : f = .none
    · rw [hf]
      exact fun h => h
    · refine hbefore f ?_
      rw [hnone]
      cases f <;> first | exact absurd rfl hf | decide
  · intro hpass
    by_contra hne
    exact hpass _ (hfails hne)

/-- **The verdict is the first failing check.** -/
theorem verdict_first (hclock : Clocked start ρ) (n : ℕ) {f : Fault} (hf : f ≠ .none) :
    verdictAt cfg fn start ρ n = f ↔
      Fails cfg fn start ρ n f ∧ ∀ g : Fault, g.rank < f.rank → ¬ Fails cfg fn start ρ n g := by
  obtain ⟨hfails, hbefore⟩ := @verdict_spec cfg fn start ρ hclock n
  constructor
  · rintro rfl
    exact ⟨hfails hf, hbefore⟩
  · rintro ⟨hf', hfirst⟩
    have hne : verdictAt cfg fn start ρ n ≠ .none := fun hnone => (verdict_none_iff hclock n).mp hnone f hf'
    apply Fault.rank_injective
    rcases Nat.lt_trichotomy (verdictAt cfg fn start ρ n).rank f.rank with hlt | heq | hlt
    · exact absurd (hfails hne) (hfirst _ hlt)
    · exact heq
    · exact absurd hf' (hbefore f hlt)

end Verdict

/-! ## The latch -/

/-- The tick at a position finds a fault while the mission is armed. -/
def Trips (n : ℕ) : Prop :=
  IsTick ρ n ∧ isArmed (heardAt ρ n) = true ∧ verdictAt cfg fn start ρ n ≠ .none

/-- The fault latched after the first `n` events. -/
def trippedAt (n : ℕ) : Fault := (nodeAt cfg fn start ρ n).latch.tripped

/-- A fault tripped before a position and was not reset since. -/
def Latched (n : ℕ) : Prop := ∃ m, m < n ∧ Trips cfg fn start ρ m ∧ ∀ r, m < r → r < n → ¬ IsReset ρ r

/-- The tick at a position publishes a heartbeat with a value. -/
def BeatsAt (n v : ℕ) : Prop := IsTick ρ n ∧ (outputAt cfg fn start ρ n).heartbeat = some v

section Latch

variable {cfg fn start ρ}

/-- What an event does to the latch. -/
theorem latch_cases (n : ℕ) :
    (IsTick ρ n ∧ (nodeAt cfg fn start ρ (n + 1)).latch =
      ((nodeAt cfg fn start ρ n).latch.step (verdictAt cfg fn start ρ n) (heardAt ρ n)).1) ∨
    (IsReset ρ n ∧ (nodeAt cfg fn start ρ (n + 1)).latch = { (nodeAt cfg fn start ρ n).latch with tripped := .none }) ∨
    ((¬ IsTick ρ n ∧ ¬ IsReset ρ n) ∧ (nodeAt cfg fn start ρ (n + 1)).latch = (nodeAt cfg fn start ρ n).latch) := by
  rw [nodeAt_succ, SafetyNode.step]
  unfold IsTick IsReset
  cases he : (ρ n).2 with
  | tick =>
      left
      refine ⟨rfl, ?_⟩
      rw [← (@remembers cfg fn start ρ n).missionState]
      rfl
  | odom msg => exact Or.inr (Or.inr ⟨by simp, rfl⟩)
  | command angle => exact Or.inr (Or.inr ⟨by simp, rfl⟩)
  | lidar => exact Or.inr (Or.inr ⟨by simp, by dsimp only; split <;> rfl⟩)
  | status missionState => exact Or.inr (Or.inr ⟨by simp, rfl⟩)
  | reset data =>
      cases data with
      | true => exact Or.inr (Or.inl ⟨rfl, rfl⟩)
      | false => exact Or.inr (Or.inr ⟨by simp, rfl⟩)

theorem latch_step_tripped (l : SafetyLatch) (fault : Fault) (missionState : String) :
    (l.step fault missionState).1.tripped =
      if isArmed missionState = true ∧ fault ≠ .none ∧ l.tripped = .none then fault else l.tripped := by
  show (if decide _ = true then _ else _) = _
  simp only [decide_eq_true_eq]

/-- The latch beats with no fault and nothing latched. -/
theorem latch_step_beats (l : SafetyLatch) (fault : Fault) (missionState : String) :
    (l.step fault missionState).2.heartbeat =
        (if (l.step fault missionState).1.tripped = .none ∧ fault = .none then some (l.counter + 1) else none) ∧
      (l.step fault missionState).1.counter =
        if (l.step fault missionState).1.tripped = .none ∧ fault = .none then l.counter + 1 else l.counter := by
  have hheartbeat : (l.step fault missionState).2.heartbeat =
      if decide ((l.step fault missionState).1.tripped = .none ∧ fault = .none) = true then
        some (l.step fault missionState).1.counter else none := rfl
  have hcounter : (l.step fault missionState).1.counter =
      if decide ((l.step fault missionState).1.tripped = .none ∧ fault = .none) = true then l.counter + 1
      else l.counter := rfl
  by_cases h : (l.step fault missionState).1.tripped = .none ∧ fault = .none
  · rw [hheartbeat, hcounter, if_pos (decide_eq_true h), if_pos (decide_eq_true h), if_pos h, if_pos h]
    exact ⟨rfl, rfl⟩
  · have hnot : ¬ decide ((l.step fault missionState).1.tripped = .none ∧ fault = .none) = true := by
      rw [decide_eq_true_eq]
      exact h
    rw [hheartbeat, hcounter, if_neg hnot, if_neg hnot, if_neg h, if_neg h]
    exact ⟨rfl, rfl⟩

/-- A tick latches a fault, a reset clears it. -/
theorem tripped_succ (n : ℕ) {f : Fault} (hf : f ≠ .none) :
    trippedAt cfg fn start ρ (n + 1) = f ↔
      (Trips cfg fn start ρ n ∧ trippedAt cfg fn start ρ n = .none ∧ verdictAt cfg fn start ρ n = f) ∨
        (trippedAt cfg fn start ρ n = f ∧ ¬ IsReset ρ n) := by
  unfold trippedAt
  rcases @latch_cases cfg fn start ρ n with
    ⟨htick, heq⟩ | ⟨hreset, heq⟩ | ⟨⟨htick, hreset⟩, heq⟩
  · have hreset : ¬ IsReset ρ n := by
      have he : (ρ n).2 = .tick := htick
      simp [IsReset, he]
    rw [heq, latch_step_tripped]
    unfold Trips
    split
    · rename_i h
      constructor
      · exact fun hv => Or.inl ⟨⟨htick, h.1, h.2.1⟩, h.2.2, hv⟩
      · rintro (⟨-, -, hv⟩ | ⟨hl, -⟩)
        · exact hv
        · exact absurd (hl.symm.trans h.2.2) hf
    · rename_i h
      constructor
      · exact fun hl => Or.inr ⟨hl, hreset⟩
      · rintro (⟨⟨-, harmed, hv⟩, hl, -⟩ | ⟨hl, -⟩)
        · exact absurd ⟨harmed, hv, hl⟩ h
        · exact hl
  · have htick : ¬ Trips cfg fn start ρ n := by
      have he : (ρ n).2 = .reset true := hreset
      simp [Trips, IsTick, he]
    rw [heq]
    simp [htick, hreset, hf.symm]
  · have htrips : ¬ Trips cfg fn start ρ n := fun h => htick h.1
    rw [heq]
    simp [htrips, hreset]

/-- **Something is latched exactly when a fault tripped and was not reset.** -/
theorem latched_iff_trips (n : ℕ) : trippedAt cfg fn start ρ n ≠ .none ↔ Latched cfg fn start ρ n := by
  refine latched_iff (P := fun n => trippedAt cfg fn start ρ n ≠ .none) (fun h => h rfl) ?_ n
  intro k
  constructor
  · intro h
    rcases (tripped_succ k h).mp rfl with ⟨htrips, -, -⟩ | ⟨hl, hreset⟩
    · exact Or.inl htrips
    · exact Or.inr ⟨hl ▸ h, hreset⟩
  · rintro (htrips | ⟨hl, hreset⟩)
    · by_cases hnone : trippedAt cfg fn start ρ k = .none
      · rw [(tripped_succ k htrips.2.2).mpr (Or.inl ⟨htrips, hnone, rfl⟩)]
        exact htrips.2.2
      · have hreset : ¬ IsReset ρ k := by
          have he : (ρ k).2 = .tick := htrips.1
          simp [IsReset, he]
        rw [(tripped_succ k hnone).mpr (Or.inr ⟨rfl, hreset⟩)]
        exact hnone
    · rw [(tripped_succ k hl).mpr (Or.inr ⟨rfl, hreset⟩)]
      exact hl

/-- **What is latched is the first fault since the reset.** -/
theorem tripped_iff_first (n : ℕ) {f : Fault} (hf : f ≠ .none) :
    trippedAt cfg fn start ρ n = f ↔
      ∃ m, m < n ∧ Trips cfg fn start ρ m ∧ verdictAt cfg fn start ρ m = f ∧ ¬ Latched cfg fn start ρ m ∧
        ∀ r, m < r → r < n → ¬ IsReset ρ r := by
  rw [latched_iff (P := fun n => trippedAt cfg fn start ρ n = f) hf.symm (fun k => tripped_succ k hf) n]
  constructor
  · rintro ⟨m, hm, ⟨htrips, hnone, hv⟩, hno⟩
    exact ⟨m, hm, htrips, hv, fun hl => (latched_iff_trips m).mpr hl hnone, hno⟩
  · rintro ⟨m, hm, htrips, hv, hl, hno⟩
    exact ⟨m, hm, ⟨htrips, not_not.mp fun h => hl ((latched_iff_trips m).mp h), hv⟩, hno⟩

/-- What a tick publishes, from the latch after it. -/
theorem outputAt_tick {n : ℕ} (h : IsTick ρ n) :
    (outputAt cfg fn start ρ n).emergency = decide (trippedAt cfg fn start ρ (n + 1) ≠ .none) ∧
      (outputAt cfg fn start ρ n).heartbeat =
        if trippedAt cfg fn start ρ (n + 1) = .none ∧ verdictAt cfg fn start ρ n = .none then
          some ((nodeAt cfg fn start ρ n).latch.counter + 1) else none := by
  have he : (ρ n).2 = .tick := h
  have hlatch : trippedAt cfg fn start ρ (n + 1) =
      ((nodeAt cfg fn start ρ n).latch.step (verdictAt cfg fn start ρ n) (nodeAt cfg fn start ρ n).missionState).1.tripped := by
    rw [trippedAt, nodeAt_succ, SafetyNode.step, he]
    rfl
  rw [hlatch]
  exact ⟨rfl, (latch_step_beats _ _ _).1⟩

/-- A tick trips, or leaves the latch as it was. -/
theorem tripped_tick {n : ℕ} (h : IsTick ρ n) :
    trippedAt cfg fn start ρ (n + 1) ≠ .none ↔ Trips cfg fn start ρ n ∨ Latched cfg fn start ρ n := by
  have hreset : ¬ IsReset ρ n := by
    have he : (ρ n).2 = .tick := h
    simp [IsReset, he]
  rw [latched_iff_trips]
  constructor
  · rintro ⟨m, hm, htrips, hno⟩
    rcases Nat.lt_or_eq_of_le (Nat.le_of_lt_succ hm) with hlt | rfl
    · exact Or.inr ⟨m, hlt, htrips, fun r hr hrn => hno r hr (Nat.lt_succ_of_lt hrn)⟩
    · exact Or.inl htrips
  · rintro (htrips | ⟨m, hm, htrips, hno⟩)
    · exact ⟨n, Nat.lt_succ_self n, htrips, fun r hr hrn => by omega⟩
    · refine ⟨m, Nat.lt_succ_of_lt hm, htrips, fun r hr hrn => ?_⟩
      rcases Nat.lt_or_eq_of_le (Nat.le_of_lt_succ hrn) with hlt | rfl
      · exact hno r hr hlt
      · exact hreset

/-- **When the heartbeat is published:** with no fault and nothing latched, and then it counts on. -/
theorem beatsAt_iff {n v : ℕ} :
    BeatsAt cfg fn start ρ n v ↔
      IsTick ρ n ∧ verdictAt cfg fn start ρ n = .none ∧ ¬ Latched cfg fn start ρ n ∧
        v = (nodeAt cfg fn start ρ n).latch.counter + 1 := by
  unfold BeatsAt
  refine and_congr_right fun htick => ?_
  rw [(outputAt_tick htick).2]
  have htripped := @tripped_tick cfg fn start ρ n htick
  split
  · rename_i h
    have hnot : ¬ Latched cfg fn start ρ n := fun hl => htripped.mpr (Or.inr hl) h.1
    simp [h.2, hnot, eq_comm]
  · rename_i h
    constructor
    · exact fun hv => absurd hv (by simp)
    · rintro ⟨hv, hl, -⟩
      refine absurd ⟨not_not.mp fun hne => ?_, hv⟩ h
      exact (htripped.mp hne).elim (fun ht => ht.2.2 hv) hl

/-- The counter moves with the heartbeat only. -/
theorem counter_succ (n : ℕ) :
    (∀ v, BeatsAt cfg fn start ρ n v → (nodeAt cfg fn start ρ (n + 1)).latch.counter = v) ∧
      ((¬ ∃ v, BeatsAt cfg fn start ρ n v) →
        (nodeAt cfg fn start ρ (n + 1)).latch.counter = (nodeAt cfg fn start ρ n).latch.counter) := by
  rcases @latch_cases cfg fn start ρ n with
    ⟨htick, heq⟩ | ⟨hreset, heq⟩ | ⟨⟨htick, -⟩, heq⟩
  · have htripped : trippedAt cfg fn start ρ (n + 1) =
        ((nodeAt cfg fn start ρ n).latch.step (verdictAt cfg fn start ρ n) (heardAt ρ n)).1.tripped := by
      rw [trippedAt, heq]
    have hcounter : (nodeAt cfg fn start ρ (n + 1)).latch.counter =
        if trippedAt cfg fn start ρ (n + 1) = .none ∧ verdictAt cfg fn start ρ n = .none then
          (nodeAt cfg fn start ρ n).latch.counter + 1 else (nodeAt cfg fn start ρ n).latch.counter := by
      rw [heq, htripped]
      exact (latch_step_beats _ _ _).2
    have hbeat := (@outputAt_tick cfg fn start ρ n htick).2
    rw [hcounter]
    refine ⟨fun v hv => ?_, fun hno => ?_⟩
    · have hv' := hbeat.symm.trans hv.2
      split at hv'
      · rename_i h
        rw [if_pos h]
        exact Option.some.inj hv'
      · exact nomatch hv'
    · split
      · rename_i h
        rw [if_pos h] at hbeat
        exact absurd ⟨_, htick, hbeat⟩ hno
      · rfl
  · have hnot : ¬ ∃ v, BeatsAt cfg fn start ρ n v := by
      have he : (ρ n).2 = .reset true := hreset
      simp [BeatsAt, IsTick, he]
    rw [heq]
    exact ⟨fun v hv => absurd ⟨v, hv⟩ hnot, fun _ => rfl⟩
  · rw [heq]
    exact ⟨fun v hv => absurd hv.1 htick, fun _ => rfl⟩

/-- **Each heartbeat is the one before it plus one,** and the first is one. -/
theorem beats_count {n v : ℕ} (h : BeatsAt cfg fn start ρ n v) :
    (v = 1 ∧ ∀ m, m < n → ¬ ∃ u, BeatsAt cfg fn start ρ m u) ∨
      ∃ m u, m < n ∧ BeatsAt cfg fn start ρ m u ∧ v = u + 1 ∧ ∀ i, m < i → i < n → ¬ ∃ u, BeatsAt cfg fn start ρ i u := by
  obtain ⟨-, -, -, hv⟩ := beatsAt_iff.mp h
  have hframe := fun k => (@counter_succ cfg fn start ρ k).2
  rcases last_event (fun m => ∃ u, BeatsAt cfg fn start ρ m u) n with hno | ⟨m, hm, ⟨u, hu⟩, hno⟩
  · left
    refine ⟨?_, hno⟩
    have hzero : (nodeAt cfg fn start ρ n).latch.counter = (nodeAt cfg fn start ρ 0).latch.counter :=
      frame (f := fun k => (nodeAt cfg fn start ρ k).latch.counter) (Nat.zero_le n) fun k _ hk => hframe k (hno k hk)
    rw [hv, hzero]
    rfl
  · right
    refine ⟨m, u, hm, hu, ?_, hno⟩
    have hsame : (nodeAt cfg fn start ρ n).latch.counter = (nodeAt cfg fn start ρ (m + 1)).latch.counter :=
      frame (f := fun k => (nodeAt cfg fn start ρ k).latch.counter) hm fun k hk hkn => hframe k (hno k hk hkn)
    rw [hv, hsame, (counter_succ m).1 u hu]

end Latch

/-- What the safety node decides over a run. -/
structure SafetyLaw : Prop where
  /-- At a tick no fault is found exactly when no check fails. -/
  healthy : ∀ n, IsTick ρ n → (verdictAt cfg fn start ρ n = .none ↔ ∀ f, ¬ Fails cfg fn start ρ n f)
  /-- A fault found is the first failing check in the order of priority. -/
  first : ∀ n, IsTick ρ n → ∀ f : Fault, f ≠ .none →
    (verdictAt cfg fn start ρ n = f ↔
      Fails cfg fn start ρ n f ∧ ∀ g : Fault, g.rank < f.rank → ¬ Fails cfg fn start ρ n g)
  /-- No good message hides a bad one from the check after it. -/
  held : ∀ k n, k < n → IsTick ρ n → (∀ j, k < j → j < n → ¬ IsTick ρ j) →
    BadOdom cfg fn ρ k ∨ BadCommand ρ k ∨ OutsideFence cfg fn ρ k → verdictAt cfg fn start ρ n ≠ .none
  /-- The first fault of an armed tick since the last reset is latched. -/
  latched : ∀ n, ∀ f : Fault, f ≠ .none →
    (trippedAt cfg fn start ρ n = f ↔
      ∃ m, m < n ∧ Trips cfg fn start ρ m ∧ verdictAt cfg fn start ρ m = f ∧ ¬ Latched cfg fn start ρ m ∧
        ∀ r, m < r → r < n → ¬ IsReset ρ r)
  /-- The emergency is published from the tick that trips on, until a reset. -/
  emergency : ∀ n, IsTick ρ n →
    ((outputAt cfg fn start ρ n).emergency = true ↔ Trips cfg fn start ρ n ∨ Latched cfg fn start ρ n)
  /-- The heartbeat is published exactly with no fault and nothing latched. -/
  heartbeat : ∀ n, IsTick ρ n →
    ((∃ v, (outputAt cfg fn start ρ n).heartbeat = some v) ↔
      verdictAt cfg fn start ρ n = .none ∧ ¬ Latched cfg fn start ρ n)
  /-- Each heartbeat is the previous value plus one, from zero. -/
  counts : ∀ n v, BeatsAt cfg fn start ρ n v →
    (v = 1 ∧ ∀ m, m < n → ¬ ∃ u, BeatsAt cfg fn start ρ m u) ∨
      ∃ m u, m < n ∧ BeatsAt cfg fn start ρ m u ∧ v = u + 1 ∧ ∀ i, m < i → i < n → ¬ ∃ u, BeatsAt cfg fn start ρ i u

variable {start ρ}

/-- **The verdicts, the latch and the heartbeat are what the messages say,** on any clock that never goes back. -/
theorem safety_decides (hclock : Clocked start ρ) : SafetyLaw cfg fn start ρ where
  healthy n _ := verdict_none_iff hclock n
  first n _ f hf := verdict_first hclock n hf
  held k n hk _ hno hbad := by
    intro hnone
    have hpass := (verdict_none_iff hclock n).mp hnone
    rcases hbad with hodom | hcommand | hout
    · exact hpass .ekfDiverged ⟨k, ⟨hk, Or.inr hno⟩, hodom⟩
    · exact hpass .cmdInvalid ⟨k, ⟨hk, Or.inr hno⟩, hcommand⟩
    · exact hpass .geofence ⟨k, ⟨hk, Or.inr hno⟩, hout, fun j hj hjn harms => hno j hj hjn harms.1⟩
  latched n f hf := tripped_iff_first n hf
  emergency n htick := by
    rw [(outputAt_tick htick).1, decide_eq_true_eq]
    exact tripped_tick htick
  heartbeat n htick := by
    constructor
    · rintro ⟨v, hv⟩
      obtain ⟨-, hnone, hl, -⟩ := beatsAt_iff.mp ⟨htick, hv⟩
      exact ⟨hnone, hl⟩
    · rintro ⟨hnone, hl⟩
      exact ⟨_, (beatsAt_iff.mpr ⟨htick, hnone, hl, rfl⟩).2⟩
  counts _ _ h := beats_count h

/-- Functions that are those of `math` where one argument of `hypot` is zero, and at zero. -/
def nearZero : SafetyMath where
  hypot x y := |x| + |y|
  sqrt x := x
  tan x := x

/-- A car at rest, with a message of each kind between two ticks. -/
def restingRun (n : ℕ) : ℚ × SafetyEvent :=
  (n / 100,
    match n % 4 with
    | 0 => .odom ⟨some 0, some 0, some 0, some 0, some 0, some 0, some 0⟩
    | 1 => .command (some 0)
    | 2 => .lidar
    | _ => .tick)

theorem safety_decides_at_rest : SafetyLaw { wheelbaseM := 3 / 2, maxSpeedMps := 20 } nearZero 0 restingRun := by
  refine safety_decides _ _ ⟨le_of_eq (by simp [restingRun]), fun n => ?_⟩
  show (n : ℚ) / 100 ≤ ((n + 1 : ℕ) : ℚ) / 100
  gcongr
  exact Nat.le_succ n

end Lhre.Autonomy
