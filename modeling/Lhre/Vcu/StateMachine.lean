import Lhre.Can.Messages

/-!
# `Vcu.StateMachine` — the vehicle state machine

The transition table and its interpreter (`boards/VCU/App/safety/state_machine.{hpp,cpp}`).

## Contents
- **The table.** `StateInputs`, the named conditions, `kTable` and `StateMachine.step`.
- **What a step can do.** `nextState` is the state a step leads to, state by state, and
  `StateMachine.step_state` says the table interpreter computes it; the entry and exit facts the control loop
  needs are read off `nextState`.
-/

namespace Lhre.Vcu

open Can

/-- `VcuState`. -/
abbrev VcuState := VcuStateMachine

/-- Everything the state machine decides on, sampled once per control tick. -/
structure StateInputs where
  bspdLatched : Bool := false
  hvcFresh : Bool := false
  hvcState : HvcState := .notEnergized
  contactorsClosed : Bool := false
  loopClosed : Bool := false
  torqueCutFault : Bool := false
  inverterReady : Bool := false
  pduFresh : Bool := false
  bseValid : Bool := false
  brakeForRtd : Bool := false
  pedalReleased : Bool := false
  rtdEdge : Bool := false
  rtdPressed : Bool := false
  rtdReleaseExitsDrive : Bool := true
deriving DecidableEq

/-! ## Conditions -/

/-- `StateConditions::Energized`. -/
def StateInputs.energized (x : StateInputs) : Bool :=
  x.hvcFresh && x.hvcState == .energized && x.contactorsClosed

/-- `StateConditions::Precharging`. -/
def StateInputs.precharging (x : StateInputs) : Bool := x.hvcFresh && x.hvcState == .precharging

/-- `StateConditions::ReadyForRtd`: everything DRIVE needs except the driver's RTD action. -/
def StateInputs.readyForRtd (x : StateInputs) : Bool :=
  x.energized && x.loopClosed && !x.torqueCutFault && x.inverterReady && x.pduFresh

/-- `StateConditions::RtdRequest`. -/
def StateInputs.rtdRequest (x : StateInputs) : Bool :=
  x.rtdEdge && x.bseValid && x.brakeForRtd && x.pedalReleased

/-- `PrechargeAborted`. -/
def StateInputs.prechargeAborted (x : StateInputs) : Bool := !x.precharging && !x.energized

/-- `DriveExitFault`: checks liveness and shutdown directly, independent of the fault mask. -/
def StateInputs.driveExitFault (x : StateInputs) : Bool :=
  !x.energized || !x.loopClosed || x.torqueCutFault || !x.inverterReady || !x.pduFresh

/-- `RtdReleased`. -/
def StateInputs.rtdReleased (x : StateInputs) : Bool := x.rtdReleaseExitsDrive && !x.rtdPressed

/-! ## The table -/

/-- `Transition`: in `source` (or any non-terminal state when `any` is set), if `guard` holds, go to
    `target`. -/
structure Transition where
  source : VcuState
  any : Bool
  guard : StateInputs → Bool
  target : VcuState
  reason : String

/-- `kTable`. The BSPD row comes first and applies everywhere. -/
def kTable : List Transition :=
  [⟨.init, true, StateInputs.bspdLatched, .bspdTripped, "BSPD latch set"⟩,
   ⟨.init, false, fun _ => true, .idle, "boot complete"⟩,
   ⟨.idle, false, StateInputs.energized, .tsActive, "HVC energized"⟩,
   ⟨.idle, false, StateInputs.precharging, .precharge, "HVC precharging"⟩,
   ⟨.precharge, false, StateInputs.energized, .tsActive, "precharge complete"⟩,
   ⟨.precharge, false, StateInputs.prechargeAborted, .idle, "precharge aborted or HVC silent"⟩,
   ⟨.tsActive, false, fun x => !x.energized, .idle, "HVC not energized"⟩,
   ⟨.tsActive, false, StateInputs.readyForRtd, .rtdWait, "drive preconditions met"⟩,
   ⟨.rtdWait, false, fun x => !x.energized, .idle, "HVC not energized"⟩,
   ⟨.rtdWait, false, fun x => !x.readyForRtd, .tsActive, "drive preconditions lost"⟩,
   ⟨.rtdWait, false, StateInputs.rtdRequest, .drive, "ready to drive"⟩,
   ⟨.drive, false, StateInputs.driveExitFault, .fault, "drive-exit fault"⟩,
   ⟨.drive, false, StateInputs.rtdReleased, .tsActive, "RTD switch released"⟩,
   ⟨.fault, false, fun x => !x.torqueCutFault, .idle, "faults cleared"⟩]

/-- The state machine. -/
structure StateMachine where
  state : VcuState := .init
  lastReason : String := "boot"
deriving DecidableEq

/-- `StateMachine::Step`: applies at most one transition; the flag is whether the state changed. -/
def StateMachine.step (m : StateMachine) (x : StateInputs) : StateMachine × Bool :=
  if m.state = .bspdTripped then (m, false)
  else
    match kTable.find? (fun t => (t.any || t.source == m.state) && t.guard x) with
    | some t => if t.target = m.state then (m, false) else ({ state := t.target, lastReason := t.reason }, true)
    | none => (m, false)

/-! ## What a step can do -/

/-- The state a step leads to, row by row. -/
def nextState (s : VcuState) (x : StateInputs) : VcuState :=
  if s = .bspdTripped then .bspdTripped
  else if x.bspdLatched then .bspdTripped
  else match s with
    | .init => .idle
    | .idle => if x.energized then .tsActive else if x.precharging then .precharge else .idle
    | .precharge => if x.energized then .tsActive else if x.prechargeAborted then .idle else .precharge
    | .tsActive => if !x.energized then .idle else if x.readyForRtd then .rtdWait else .tsActive
    | .rtdWait =>
        if !x.energized then .idle
        else if !x.readyForRtd then .tsActive
        else if x.rtdRequest then .drive
        else .rtdWait
    | .drive => if x.driveExitFault then .fault else if x.rtdReleased then .tsActive else .drive
    | .fault => if !x.torqueCutFault then .idle else .fault
    | .bspdTripped => .bspdTripped

/-- **The table interpreter computes `nextState`**, and its flag is whether the state changed. -/
theorem StateMachine.step_state (m : StateMachine) (x : StateInputs) :
    (m.step x).1.state = nextState m.state x ∧
      (m.step x).2 = decide (nextState m.state x ≠ m.state) := by
  obtain ⟨s, reason⟩ := m
  unfold StateMachine.step nextState kTable
  cases hb : x.bspdLatched with
  | true => cases s <;> simp [hb]
  | false =>
      -- only the rows of the current state are left; their guards decide which one is taken
      cases s with
      | init => simp [hb]
      | idle => cases he : x.energized <;> cases hp : x.precharging <;> simp [hb, he, hp]
      | precharge => cases he : x.energized <;> cases ha : x.prechargeAborted <;> simp [hb, he, ha]
      | tsActive => cases he : x.energized <;> cases hr : x.readyForRtd <;> simp [hb, he, hr]
      | rtdWait =>
          cases he : x.energized <;> cases hr : x.readyForRtd <;> cases hq : x.rtdRequest <;>
            simp [hb, he, hr, hq]
      | drive => cases hf : x.driveExitFault <;> cases hr : x.rtdReleased <;> simp [hb, hf, hr]
      | fault => cases hc : x.torqueCutFault <;> simp [hb, hc]
      | bspdTripped => simp

/-- A step ends in the state the table gives. -/
@[simp] theorem StateMachine.step_fst_state (m : StateMachine) (x : StateInputs) :
    (m.step x).1.state = nextState m.state x :=
  (m.step_state x).1

/-- A step reports exactly a change of state. -/
theorem StateMachine.step_snd (m : StateMachine) (x : StateInputs) :
    (m.step x).2 = decide (nextState m.state x ≠ m.state) :=
  (m.step_state x).2

/-- **The BSPD latch acts from every state.** -/
theorem nextState_of_bspdLatched {s : VcuState} {x : StateInputs} (h : x.bspdLatched = true) :
    nextState s x = .bspdTripped := by
  unfold nextState
  rw [h]
  split <;> rfl

/-- **BSPD_TRIPPED is terminal.** -/
@[simp] theorem nextState_bspdTripped (x : StateInputs) : nextState .bspdTripped x = .bspdTripped := rfl

/-- **Entering DRIVE.** A step that ends in DRIVE from another state starts in RTD_WAIT, with the drive
    preconditions and the RTD request. -/
theorem of_nextState_drive {s : VcuState} {x : StateInputs} (hs : s ≠ .drive) (h : nextState s x = .drive) :
    s = .rtdWait ∧ x.readyForRtd = true ∧ x.rtdRequest = true := by
  unfold nextState at h
  cases s <;> simp only [reduceCtorEq, if_false, if_true] at h <;> split_ifs at h <;> simp_all

/-- **Staying in DRIVE.** A step that ends in DRIVE found no drive-exit fault if it also started there. -/
theorem not_driveExitFault_of_nextState {x : StateInputs} (h : nextState .drive x = .drive) :
    x.driveExitFault = false := by
  unfold nextState at h
  simp only [reduceCtorEq, if_false] at h
  split_ifs at h with hb hf
  exact Bool.eq_false_iff.mpr hf

/-- **The conditions of every tick that ends in DRIVE**, whether it entered or stayed. -/
theorem conditions_of_nextState_drive {s : VcuState} {x : StateInputs} (h : nextState s x = .drive) :
    x.readyForRtd = true := by
  by_cases hs : s = .drive
  · subst hs
    have hf := not_driveExitFault_of_nextState h
    simp only [StateInputs.driveExitFault, Bool.or_eq_false_iff, Bool.not_eq_false'] at hf
    obtain ⟨⟨⟨⟨he, hl⟩, ht⟩, hi⟩, hp⟩ := hf
    simp [StateInputs.readyForRtd, he, hl, ht, hi, hp]
  · exact (of_nextState_drive hs h).2.1

/-- The five parts of the drive preconditions. -/
theorem StateInputs.readyForRtd_iff {x : StateInputs} : x.readyForRtd = true ↔
    x.energized = true ∧ x.loopClosed = true ∧ x.torqueCutFault = false ∧ x.inverterReady = true ∧
      x.pduFresh = true := by
  simp only [StateInputs.readyForRtd, Bool.and_eq_true, Bool.not_eq_true', and_assoc]

/-- The three parts of "energized". -/
theorem StateInputs.energized_iff {x : StateInputs} : x.energized = true ↔
    x.hvcFresh = true ∧ x.hvcState = .energized ∧ x.contactorsClosed = true := by
  simp only [StateInputs.energized, Bool.and_eq_true, beq_iff_eq, and_assoc]

/-- The four parts of the RTD request. -/
theorem StateInputs.rtdRequest_iff {x : StateInputs} : x.rtdRequest = true ↔
    x.rtdEdge = true ∧ x.bseValid = true ∧ x.brakeForRtd = true ∧ x.pedalReleased = true := by
  simp only [StateInputs.rtdRequest, Bool.and_eq_true, and_assoc]

end Lhre.Vcu
