import Lhre.Vcu.Params

/-!
# `Vcu.Launch` — the launch ramp

The opt-in acceleration ramp (`boards/VCU/App/control/launch.{hpp,cpp}`). An abort sets `inhibited`, which
holds the torque at zero. While torque is allowed an inhibited ramp lets go only when the pedal is released
(`LaunchRamp.update_inhibited`); a tick without torque lets it go too (`LaunchRamp.update_not_drive`).
-/

namespace Lhre.Vcu

open Longhorn

structure LaunchRamp where
  armed : Bool := false
  running : Bool := false
  inhibited : Bool := false
  elapsedMs : U32 := 0
deriving DecidableEq

/-- `LaunchRamp::Arm`; the flag is whether the ramp was armed. -/
def LaunchRamp.arm (l : LaunchRamp) (drive brake : Bool) (pedal rpm : ℚ) (p : LaunchParams) :
    LaunchRamp × Bool :=
  if l.running || !p.enabled || !drive || !brake || pedal != 0 || decide (p.armMaxRpm < |rpm|) then (l, false)
  else ({ armed := true, running := false, inhibited := false, elapsedMs := 0 }, true)

/-- `LaunchRamp::Abort`. -/
def LaunchRamp.abort (l : LaunchRamp) : LaunchRamp :=
  { l with armed := false, running := false, inhibited := true }

/-- The abort conditions `LaunchRamp::Update` checks: a long gap, reverse speed, and while running the
    brake or a released pedal. -/
def LaunchRamp.aborts (l : LaunchRamp) (brake : Bool) (pedal rpm : ℚ) (dtMs : U32) (p : LaunchParams) : Bool :=
  decide (30 < dtMs) || decide (rpm < -p.armMaxRpm) || (l.running && (brake || decide (pedal ≤ 0)))

/-- `LaunchRamp::Update`: the new ramp and the limited torque. -/
def LaunchRamp.update (l : LaunchRamp) (demandNm : ℚ) (drive brake : Bool) (pedal rpm : ℚ) (dtMs : U32)
    (p : LaunchParams) : LaunchRamp × ℚ :=
  if !p.enabled || !drive then
    ({ l with armed := false, running := false, inhibited := false }, demandNm)
  else
    let l := if l.aborts brake pedal rpm dtMs p then l.abort else l
    if l.inhibited then ({ l with inhibited := !decide (pedal ≤ 0) }, 0)
    else if !l.armed then (l, demandNm)
    else if brake then (l, 0)
    else if !l.running && decide (pedal ≤ 0) then (l, 0)
    else
      let remaining := p.timeoutMs - l.elapsedMs
      let elapsed := l.elapsedMs + (if dtMs < remaining then dtMs else remaining)
      let cap := p.initialTorqueNm + p.rampNmPerS * (elapsed.toNat : ℚ) * 0.001
      if p.timeoutMs ≤ elapsed then
        -- timeout holds zero until pedal release
        ({ armed := false, running := false, inhibited := true, elapsedMs := elapsed }, 0)
      else
        let finished := decide (p.finishRpm ≤ rpm) && decide (demandNm ≤ cap)
        ({ armed := !finished, running := !finished, inhibited := false, elapsedMs := elapsed },
         clamp demandNm 0 cap)

/-- The time cap of a running ramp is used up. -/
def LaunchRamp.timesOut (l : LaunchRamp) (dtMs : U32) (p : LaunchParams) : Bool :=
  let remaining := p.timeoutMs - l.elapsedMs
  decide (p.timeoutMs ≤ l.elapsedMs + (if dtMs < remaining then dtMs else remaining))

/-- What ends a ramp with an inhibit: an abort condition, or the timeout of an armed ramp that ramps. -/
def LaunchRamp.stops (l : LaunchRamp) (brake : Bool) (pedal rpm : ℚ) (dtMs : U32) (p : LaunchParams) : Bool :=
  l.aborts brake pedal rpm dtMs p ||
    (l.armed && !brake && (l.running || !decide (pedal ≤ 0)) && l.timesOut dtMs p)

section Update

variable {l : LaunchRamp} {demandNm pedal rpm : ℚ} {drive brake : Bool} {dtMs : U32} {p : LaunchParams}

/-- An abort condition inhibits the ramp, and what follows is the inhibited branch. -/
theorem LaunchRamp.update_of_aborts (henabled : p.enabled = true) (h : l.aborts brake pedal rpm dtMs p = true) :
    l.update demandNm true brake pedal rpm dtMs p = ({ l.abort with inhibited := !decide (pedal ≤ 0) }, 0) := by
  unfold LaunchRamp.update
  rw [if_neg (by simp [henabled]), if_pos h]
  rfl

/-- An inhibited ramp commands nothing and stays inhibited until the pedal is released. -/
theorem LaunchRamp.update_of_inhibited (henabled : p.enabled = true) (h : l.inhibited = true) :
    (l.update demandNm true brake pedal rpm dtMs p).1.inhibited = !decide (pedal ≤ 0) ∧
      (l.update demandNm true brake pedal rpm dtMs p).2 = 0 := by
  by_cases ha : l.aborts brake pedal rpm dtMs p = true
  · rw [LaunchRamp.update_of_aborts henabled ha]
    exact ⟨rfl, rfl⟩
  · unfold LaunchRamp.update
    rw [if_neg (by simp [henabled]), if_neg ha]
    simp only [h, if_true]
    exact ⟨trivial, trivial⟩

/-- A timeout inhibits the ramp and commands nothing. -/
theorem LaunchRamp.update_of_timesOut (henabled : p.enabled = true) (ha : ¬ l.aborts brake pedal rpm dtMs p = true)
    (hi : l.inhibited = false) (harmed : l.armed = true) (hbrake : brake = false)
    (hgo : (l.running || !decide (pedal ≤ 0)) = true) (ht : l.timesOut dtMs p = true) :
    (l.update demandNm true brake pedal rpm dtMs p).1.inhibited = true ∧
      (l.update demandNm true brake pedal rpm dtMs p).2 = 0 := by
  have hwait : (!l.running && decide (pedal ≤ 0)) = false := by
    cases hr : l.running <;> simp [hr] at hgo ⊢
    exact hgo
  have ht' : p.timeoutMs ≤ l.elapsedMs +
      (if dtMs < p.timeoutMs - l.elapsedMs then dtMs else p.timeoutMs - l.elapsedMs) := of_decide_eq_true ht
  unfold LaunchRamp.update
  rw [if_neg (by simp [henabled]), if_neg ha]
  simp only [hi, harmed, hbrake, hwait, Bool.not_true, Bool.false_eq_true, if_false]
  rw [if_pos ht']
  exact ⟨rfl, rfl⟩

/-- **What holds torque at zero.** With torque allowed and the pedal down, a ramp that is inhibited, or that something
    stops in this tick, commands nothing and is inhibited after it. -/
theorem LaunchRamp.update_inhibited (henabled : p.enabled = true) (hpedal : 0 < pedal)
    (h : l.inhibited = true ∨ l.stops brake pedal rpm dtMs p = true) :
    (l.update demandNm true brake pedal rpm dtMs p).1.inhibited = true ∧
      (l.update demandNm true brake pedal rpm dtMs p).2 = 0 := by
  have hdown : (!decide (pedal ≤ 0)) = true := by simpa using hpedal
  by_cases hi : l.inhibited = true
  · obtain ⟨hinhibited, hzero⟩ := LaunchRamp.update_of_inhibited (l := l) henabled hi
    exact ⟨hinhibited.trans hdown, hzero⟩
  by_cases ha : l.aborts brake pedal rpm dtMs p = true
  · rw [LaunchRamp.update_of_aborts henabled ha]
    exact ⟨hdown, rfl⟩
  · have hstop := h.resolve_left hi
    unfold LaunchRamp.stops at hstop
    simp only [ha, Bool.false_or, Bool.and_eq_true, Bool.not_eq_true'] at hstop
    obtain ⟨⟨⟨harmed, hbrake⟩, hgo⟩, ht⟩ := hstop
    exact LaunchRamp.update_of_timesOut henabled ha (Bool.eq_false_iff.mpr hi) harmed hbrake hgo ht

/-- **A tick without torque drops the ramp**, with its inhibit. -/
theorem LaunchRamp.update_not_drive : (l.update demandNm false brake pedal rpm dtMs p).1 =
    { l with armed := false, running := false, inhibited := false } := by
  unfold LaunchRamp.update
  rw [if_pos (by simp)]

/-- A ramp is armed only with the pedal released. -/
theorem LaunchRamp.arm_of_pedal (hpedal : pedal ≠ 0) : (l.arm drive brake pedal rpm p).1 = l := by
  unfold LaunchRamp.arm
  rw [if_pos (by simp [hpedal])]

end Update

end Lhre.Vcu
