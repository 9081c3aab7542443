import Lhre.Bevo.Dashd

/-!
# `Bevo.Correctness.LapCount` — one lap counts once

Each driven lap is reported twice, by a crossing of the gate and by a trigger of trackside. A crossing always closes a
lap; a trigger closes one only when it is ahead of the count. So a lap counts once exactly when its crossing is handled
first: a trigger that comes first closes the lap, and the crossing closes another one.

## Contents
- **Events.** `Quiet`, `Source.Reports`; what each kind of event does to the count.
- **Laps.** `DrivenLap`, `Driven`.
- **One lap.** `CountsOnce`, `lap_once_iff`.
- **All laps.** `lap_counts_once`, and a lap whose trigger comes first.
-/

namespace Lhre.Bevo

/-! ## Events -/

/-- The event closes no lap and sets no count: a frame that stays on one side of the gate, or another message. -/
def Quiet (s : DashState) : DashEvent → Prop
  | .frame frame => s.crosses frame = false
  | .message _ (.lapTrigger _) => False
  | .message _ (.lapCount _) => False
  | .message _ .lapReset => False
  | .message _ _ => True

/-- Quiet events, from a state on. -/
def QuietRun (f32 : ℚ → ℚ) : DashState → List DashEvent → Prop
  | _, [] => True
  | s, e :: es => Quiet s e ∧ QuietRun f32 (s.step f32 e).1 es

/-- Who reports a lap. -/
inductive Source
  | gps
  | trackside
deriving Repr, DecidableEq

def Source.other : Source → Source
  | .gps => .trackside
  | .trackside => .gps

/-- The event is the report of lap `n` by a source. -/
def Source.Reports (n : ℕ) (s : DashState) : Source → DashEvent → Prop
  | .gps, .frame frame => s.crosses frame = true
  | .trackside, .message _ (.lapTrigger payload) => payload = n
  | _, _ => False

section Events

variable {f32 : ℚ → ℚ} {s : DashState} {e : DashEvent} {n : ℕ}

theorem integrate_lapCount (frame : CandFrame) : (s.integrate frame).lapCount = s.lapCount := by
  unfold DashState.integrate
  cases s.lastEnergyUpdate with
  | none => rfl
  | some prev =>
      dsimp only
      split
      · cases frame.power <;> rfl
      · rfl

theorem crosses_fix {frame : CandFrame} (h : s.crosses frame = true) : ∃ cur, frame.fix = some cur := by
  unfold DashState.crosses at h
  cases hfix : frame.fix with
  | none => simp [hfix] at h
  | some cur => exact ⟨cur, rfl⟩

/-- A quiet event leaves the count alone and closes no lap. -/
theorem quiet_step (f32 : ℚ → ℚ) (h : Quiet s e) : (s.step f32 e).1.lapCount = s.lapCount ∧ (s.step f32 e).2 = 0 := by
  cases e with
  | frame frame =>
      have hcross : s.crosses frame = false := h
      show (s.onFrame frame).1.lapCount = _ ∧ (s.onFrame frame).2 = 0
      unfold DashState.onFrame
      rw [hcross]
      cases frame.fix with
      | none => exact ⟨integrate_lapCount frame, rfl⟩
      | some cur => exact ⟨integrate_lapCount frame, rfl⟩
  | message now m =>
      cases m with
      | sfGate _ => exact ⟨rfl, rfl⟩
      | targetPower _ => exact ⟨rfl, rfl⟩
      | lapTrigger _ => exact absurd h id
      | lapCount _ => exact absurd h id
      | lapReset => exact absurd h id
      | other => exact ⟨rfl, rfl⟩

/-- A crossing closes the next lap. -/
theorem crossing_step (f32 : ℚ → ℚ) (h : Source.gps.Reports n s e) :
    (s.step f32 e).1.lapCount = s.lapCount + 1 ∧ (s.step f32 e).2 = 1 := by
  cases e with
  | message now m => exact absurd h id
  | frame frame =>
      have hcross : s.crosses frame = true := h
      obtain ⟨cur, hfix⟩ := crosses_fix hcross
      show (s.onFrame frame).1.lapCount = _ ∧ (s.onFrame frame).2 = 1
      unfold DashState.onFrame
      rw [hcross, hfix]
      refine ⟨?_, rfl⟩
      show (s.integrate frame).lapCount + 1 = s.lapCount + 1
      rw [integrate_lapCount]

/-- A trigger is adopted when it is ahead of the count, and closes a lap when it is one ahead. -/
theorem trigger_step (f32 : ℚ → ℚ) (h : Source.trackside.Reports n s e) :
    (s.step f32 e).1.lapCount = max s.lapCount (countOf (f32 n)) ∧
      (s.step f32 e).2 = if countOf (f32 n) = s.lapCount + 1 then 1 else 0 := by
  cases e with
  | frame frame => exact absurd h id
  | message now m =>
      cases m with
      | lapTrigger payload =>
          have hpayload : payload = n := h
          subst hpayload
          show (s.onMessage f32 now (.lapTrigger n)).1.lapCount = _ ∧ (s.onMessage f32 now (.lapTrigger n)).2 = _
          simp only [DashState.onMessage]
          by_cases hjump : countOf (f32 n) > s.lapCount + 1
          · have hmax : max s.lapCount (countOf (f32 n)) = countOf (f32 n) := max_eq_right (by omega)
            rw [if_pos hjump, if_neg (by omega)]
            exact ⟨hmax.symm, rfl⟩
          · rw [if_neg hjump]
            by_cases hnext : countOf (f32 n) > s.lapCount
            · have hmax : max s.lapCount (countOf (f32 n)) = countOf (f32 n) := max_eq_right (by omega)
              rw [if_pos hnext, if_pos (by omega)]
              exact ⟨hmax.symm, rfl⟩
            · have hmax : max s.lapCount (countOf (f32 n)) = s.lapCount := max_eq_left (by omega)
              rw [if_neg hnext, if_neg (by omega)]
              exact ⟨hmax.symm, rfl⟩
      | sfGate _ => exact absurd h id
      | targetPower _ => exact absurd h id
      | lapCount _ => exact absurd h id
      | lapReset => exact absurd h id
      | other => exact absurd h id

/-- A trigger leaves the gate and the last fix alone. -/
theorem trigger_crosses (now payload : ℚ) (frame : CandFrame) :
    (s.onMessage f32 now (.lapTrigger payload)).1.crosses frame = s.crosses frame := by
  simp only [DashState.onMessage]
  split
  · rfl
  · split <;> rfl

/-- Quiet events leave the count alone and close no lap. -/
theorem quiet_run {es : List DashEvent} (h : QuietRun f32 s es) :
    (s.run f32 es).lapCount = s.lapCount ∧ s.closings f32 es = 0 := by
  induction es generalizing s with
  | nil => exact ⟨rfl, rfl⟩
  | cons e es ih =>
      obtain ⟨hcount, hclosings⟩ := quiet_step f32 h.1
      obtain ⟨hcount', hclosings'⟩ := ih h.2
      refine ⟨?_, ?_⟩
      · rw [DashState.run_cons, hcount', hcount]
      · rw [DashState.closings, hclosings, hclosings']

end Events

/-! ## Laps -/

/-- A lap as it is reported: by a source first, and then by the other one. -/
structure DrivenLap where
  source : Source
  before : List DashEvent := []
  first : DashEvent
  between : List DashEvent := []
  second : DashEvent

def DrivenLap.events (lap : DrivenLap) : List DashEvent :=
  lap.before ++ ([lap.first] ++ (lap.between ++ [lap.second]))

/-- From a state on, the lap is reported as lap `n`, once by each source, with no other lap event. -/
structure DrivenLap.Reported (f32 : ℚ → ℚ) (n : ℕ) (s : DashState) (lap : DrivenLap) : Prop where
  before : QuietRun f32 s lap.before
  first : lap.source.Reports n (s.run f32 lap.before) lap.first
  between : QuietRun f32 ((s.run f32 lap.before).run f32 [lap.first]) lap.between
  second : lap.source.other.Reports n (((s.run f32 lap.before).run f32 [lap.first]).run f32 lap.between) lap.second

/-- The state before lap `n + 1`. -/
def lapState (f32 : ℚ → ℚ) (s : DashState) (laps : List DrivenLap) (n : ℕ) : DashState :=
  s.run f32 ((laps.take n).flatMap DrivenLap.events)

/-- The laps are reported as `1`, `2`, … -/
def Driven (f32 : ℚ → ℚ) (s : DashState) (laps : List DrivenLap) : Prop :=
  ∀ (n : ℕ) (lap : DrivenLap), laps[n]? = some lap → lap.Reported f32 (n + 1) (lapState f32 s laps n)

/-- After each lap the count is its number, and each lap ran `complete_lap` once. -/
def EachOnce (f32 : ℚ → ℚ) (s : DashState) (laps : List DrivenLap) : Prop :=
  ∀ (n : ℕ) (lap : DrivenLap), laps[n]? = some lap → (lapState f32 s laps (n + 1)).lapCount = n + 1 ∧
    (lapState f32 s laps n).closings f32 lap.events = 1

/-- A lap counts once: its crossing is handled first, and its number does not round up as `f32`. A number that rounds
    down is a trigger that is ignored, whenever it comes. -/
def CountsOnce (f32 : ℚ → ℚ) (n : ℕ) : Source → Prop
  | .gps => countOf (f32 n) ≤ n
  | .trackside => countOf (f32 n) < n

section Laps

variable {f32 : ℚ → ℚ} {s : DashState}

theorem lapState_succ {laps : List DrivenLap} {n : ℕ} {lap : DrivenLap} (h : laps[n]? = some lap) :
    lapState f32 s laps (n + 1) = (lapState f32 s laps n).run f32 lap.events := by
  unfold lapState
  rw [List.take_add_one, h, List.flatMap_append, DashState.run_append]
  simp

/-- **One lap.** From a count that is right, the lap leaves it right and closes once exactly when it counts once. -/
theorem lap_once_iff {n : ℕ} {lap : DrivenLap} (hlap : lap.Reported f32 (n + 1) s) (hcount : s.lapCount = n) :
    ((s.run f32 lap.events).lapCount = n + 1 ∧ s.closings f32 lap.events = 1) ↔
      CountsOnce f32 (n + 1) lap.source := by
  obtain ⟨hbefore, hfirst, hbetween, hsecond⟩ := hlap
  obtain ⟨hcount₀, hclosed₀⟩ := quiet_run hbefore
  obtain ⟨hcount₂, hclosed₂⟩ := quiet_run hbetween
  unfold DrivenLap.events
  simp only [DashState.run_append, DashState.closings_append, hclosed₀, hclosed₂, Nat.zero_add]
  rw [hcount] at hcount₀
  cases hsource : lap.source with
  | gps =>
      rw [hsource] at hfirst hsecond
      obtain ⟨hcount₁, hclosed₁⟩ := crossing_step f32 hfirst
      obtain ⟨hcount₃, hclosed₃⟩ := trigger_step f32 hsecond
      simp only [DashState.run_cons, DashState.run_nil, DashState.closings, Nat.add_zero] at *
      simp only [hclosed₁, hclosed₃, hcount₃, hcount₂, hcount₁, hcount₀, CountsOnce]
      constructor
      · rintro ⟨hmax, -⟩
        have hle := le_max_right (n + 1) (countOf (f32 ((n + 1 : ℕ) : ℚ)))
        omega
      · intro hle
        refine ⟨max_eq_left hle, ?_⟩
        rw [if_neg (by omega)]
  | trackside =>
      rw [hsource] at hfirst hsecond
      obtain ⟨hcount₁, hclosed₁⟩ := trigger_step f32 hfirst
      obtain ⟨hcount₃, hclosed₃⟩ := crossing_step f32 hsecond
      simp only [DashState.run_cons, DashState.run_nil, DashState.closings, Nat.add_zero] at *
      simp only [hclosed₁, hclosed₃, hcount₃, hcount₂, hcount₁, hcount₀, CountsOnce]
      constructor
      · rintro ⟨hmax, -⟩
        have hle : countOf (f32 ((n + 1 : ℕ) : ℚ)) ≤ n := by
          have := le_max_right n (countOf (f32 ((n + 1 : ℕ) : ℚ)))
          omega
        omega
      · intro hlt
        refine ⟨?_, ?_⟩
        · rw [max_eq_left (by omega)]
        · rw [if_neg (by omega)]

/-- **One lap counts once.** After a reset, every lap counts once exactly when each of them is handled crossing first
    (and its number, as `f32`, does not round up). -/
theorem lap_counts_once (f32 : ℚ → ℚ) (s : DashState) (now : ℚ) (laps : List DrivenLap)
    (hdriven : Driven f32 (s.step f32 (.message now .lapReset)).1 laps) :
    EachOnce f32 (s.step f32 (.message now .lapReset)).1 laps ↔
      ∀ (n : ℕ) (lap : DrivenLap), laps[n]? = some lap → CountsOnce f32 (n + 1) lap.source := by
  set start := (s.step f32 (.message now .lapReset)).1
  have hstart : start.lapCount = 0 := rfl
  constructor
  · intro honce n lap hget
    have hbefore : (lapState f32 start laps n).lapCount = n := by
      cases n with
      | zero => exact hstart
      | succ m =>
          have hlt : m + 1 < laps.length := (List.getElem?_eq_some_iff.mp hget).1
          exact (honce m _ (List.getElem?_eq_getElem (by omega))).1
    refine (lap_once_iff (hdriven n lap hget) hbefore).mp ?_
    rw [← lapState_succ hget]
    exact honce n lap hget
  · intro hcounts
    -- the count is right before every lap
    have hcount : ∀ n, n ≤ laps.length → (lapState f32 start laps n).lapCount = n := by
      intro n
      induction n with
      | zero => exact fun _ => hstart
      | succ m ih =>
          intro hm
          have hget : laps[m]? = some laps[m] := List.getElem?_eq_getElem (by omega)
          rw [lapState_succ hget]
          exact ((lap_once_iff (hdriven m _ hget) (ih (by omega))).mpr (hcounts m _ hget)).1
    intro n lap hget
    have hlt : n < laps.length := (List.getElem?_eq_some_iff.mp hget).1
    rw [lapState_succ hget]
    exact (lap_once_iff (hdriven n lap hget) (hcount n (by omega))).mpr (hcounts n lap hget)

end Laps

/-! ## A lap whose trigger comes first -/

/-- A gate across the path of the car, and a frame on either side of it. -/
def gateMessage : DashEvent := .message 0 (.sfGate ⟨-1, 5, 1, 5⟩)
def southFrame : DashEvent := .frame { now := 1, gps := some [1 / 2, 4] }
def northFrame : DashEvent := .frame { now := 2, gps := some [1 / 2, 6] }

/-- Two laps, with their crossings first. -/
def twoLaps : List DrivenLap :=
  [{ source := .gps, before := [gateMessage, southFrame], first := northFrame, second := .message 2 (.lapTrigger 1) },
   { source := .gps, first := southFrame, second := .message 3 (.lapTrigger 2) }]

theorem lap_counts_once_two : Driven id (DashState.step id {} (.message 0 .lapReset)).1 twoLaps ∧
    (EachOnce id (DashState.step id {} (.message 0 .lapReset)).1 twoLaps ↔
      ∀ (n : ℕ) (lap : DrivenLap), twoLaps[n]? = some lap → CountsOnce id (n + 1) lap.source) := by
  have hdriven : Driven id (DashState.step id {} (.message 0 .lapReset)).1 twoLaps := by
    intro n lap hget
    match n with
    | 0 =>
        obtain rfl : twoLaps[0] = lap := by simpa [twoLaps] using hget
        refine ⟨⟨trivial, ?_, trivial⟩, ?_, trivial, ?_⟩
        · show DashState.crosses _ _ = false
          decide +kernel
        · show DashState.crosses _ _ = true
          decide +kernel
        · show (1 : ℚ) = ((0 + 1 : ℕ) : ℚ)
          norm_num
    | 1 =>
        obtain rfl : twoLaps[1] = lap := by simpa [twoLaps] using hget
        refine ⟨trivial, ?_, trivial, ?_⟩
        · show DashState.crosses _ _ = true
          decide +kernel
        · show (2 : ℚ) = ((1 + 1 : ℕ) : ℚ)
          norm_num
    | n + 2 => exact absurd hget (by simp [twoLaps])
  exact ⟨hdriven, lap_counts_once id {} 0 twoLaps hdriven⟩

/-- A car south of the gate, and one lap whose trigger comes first. -/
def southOfGate : DashState := { sfGate := some ⟨-1, 5, 1, 5⟩, lastGps := some (1 / 2, 4) }
def triggeredLap : DrivenLap := { source := .trackside, first := .message 2 (.lapTrigger 1), second := northFrame }

/-- The trigger closes the lap, and the crossing another one. -/
theorem not_always_once : ¬ ∃ f32 : ℚ → ℚ, f32 1 = 1 ∧ ∀ (s : DashState) (now : ℚ) (laps : List DrivenLap),
    Driven f32 (s.step f32 (.message now .lapReset)).1 laps →
      EachOnce f32 (s.step f32 (.message now .lapReset)).1 laps := by
  rintro ⟨f32, hone, hall⟩
  have hdriven : Driven f32 (southOfGate.step f32 (.message 0 .lapReset)).1 [triggeredLap] := by
    intro n lap hget
    match n with
    | 0 =>
        obtain rfl : triggeredLap = lap := by simpa using hget
        refine ⟨trivial, ?_, trivial, ?_⟩
        · show (1 : ℚ) = ((0 + 1 : ℕ) : ℚ)
          norm_num
        · show DashState.crosses (DashState.onMessage f32 _ 2 (.lapTrigger 1)).1 _ = true
          rw [trigger_crosses]
          show southOfGate.crosses _ = true
          decide +kernel
    | n + 1 => exact absurd hget (by simp)
  have hlap := hdriven 0 triggeredLap rfl
  obtain ⟨hcount, hclosed⟩ := hall southOfGate 0 [triggeredLap] hdriven 0 triggeredLap rfl
  rw [lapState_succ rfl] at hcount
  have honce : countOf (f32 ((0 + 1 : ℕ) : ℚ)) < 0 + 1 := (lap_once_iff hlap rfl).mp ⟨hcount, hclosed⟩
  rw [Nat.zero_add, Nat.cast_one, hone] at honce
  revert honce
  decide +kernel

end Lhre.Bevo
