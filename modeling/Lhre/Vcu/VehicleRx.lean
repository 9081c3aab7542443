import Lhre.Can.Messages

/-!
# `Vcu.VehicleRx` — the receive slots of the two buses

The generated slot structs with their `Dispatch`, and the freshness and feedback helpers over them
(`boards/VCU/App/can/vehicle_rx.hpp`, `lib/codegen/cpp/gen_can_lib.py`). Messages the firmware never reads have no
slot here; frame ids are unique on a bus, so their frames reach no slot that is.

`Dispatch` offers a frame to the slots in id order and stops at the first that takes it. Since no two slots
take the same frame, each slot behaves as if it alone saw the bus (`VehicleRx.drain_eq`).
-/

namespace Lhre.Vcu

open Lhal Can Longhorn

/-! ## Critical bus -/

/-- `VcuCriticalRx` / `VehicleRx`. -/
structure VehicleRx where
  vcuModeCommand : RxSlot VcuModeCommand := .new _
  inverterStatus : RxSlot InverterStatus := .new _
  inverterCurrent : RxSlot InverterCurrent := .new _
  inverterVoltage : RxSlot InverterVoltage := .new _
  inverterDetails : RxSlot InverterDetails := .new _
  inverterFaults : RxSlot InverterFaults := .new _
  inverterSpeed : RxSlot InverterSpeed := .new _
  duiDriverInputs : RxSlot DuiDriverInputs := .new _
  contactorStatus : RxSlot ContactorStatus := .new _
  indicatorsShutdownStatus : RxSlot IndicatorsShutdownStatus := .new _
  batteryCellLimits : RxSlot BatteryCellLimits := .new _
  bse3 : RxSlot Bse3 := .new _
deriving DecidableEq

/-- `VcuCriticalRx::Dispatch`. -/
def VehicleRx.dispatch (rx : VehicleRx) (f : CanFrame) (now : U32) : VehicleRx :=
  let modeCommand := rx.vcuModeCommand.tryDecode f now
  let status := rx.inverterStatus.tryDecode f now
  let current := rx.inverterCurrent.tryDecode f now
  let voltage := rx.inverterVoltage.tryDecode f now
  let details := rx.inverterDetails.tryDecode f now
  let faults := rx.inverterFaults.tryDecode f now
  let speed := rx.inverterSpeed.tryDecode f now
  let dui := rx.duiDriverInputs.tryDecode f now
  let contactors := rx.contactorStatus.tryDecode f now
  let indicators := rx.indicatorsShutdownStatus.tryDecode f now
  let limits := rx.batteryCellLimits.tryDecode f now
  if modeCommand.2 then { rx with vcuModeCommand := modeCommand.1 }
  else if status.2 then { rx with inverterStatus := status.1 }
  else if current.2 then { rx with inverterCurrent := current.1 }
  else if voltage.2 then { rx with inverterVoltage := voltage.1 }
  else if details.2 then { rx with inverterDetails := details.1 }
  else if faults.2 then { rx with inverterFaults := faults.1 }
  else if speed.2 then { rx with inverterSpeed := speed.1 }
  else if dui.2 then { rx with duiDriverInputs := dui.1 }
  else if contactors.2 then { rx with contactorStatus := contactors.1 }
  else if indicators.2 then { rx with indicatorsShutdownStatus := indicators.1 }
  else if limits.2 then { rx with batteryCellLimits := limits.1 }
  else { rx with bse3 := (rx.bse3.tryDecode f now).1 }

/-- The slots after all frames of a batch. -/
def VehicleRx.drain (rx : VehicleRx) (frames : List CanFrame) (now : U32) : VehicleRx :=
  frames.foldl (fun rx f => rx.dispatch f now) rx

/-- `InverterFresh`: measurement feedback as well as status. -/
def VehicleRx.inverterFresh (rx : VehicleRx) (now : U32) : Bool :=
  rx.inverterFaults.fresh now && rx.inverterDetails.fresh now && rx.inverterCurrent.fresh now &&
    rx.inverterVoltage.fresh now && (rx.inverterSpeed.fresh now || rx.inverterStatus.fresh now)

/-- `InverterFaulted`. -/
def VehicleRx.inverterFaulted (rx : VehicleRx) (now : U32) : Bool :=
  rx.inverterFaults.fresh now && (rx.inverterFaults.msg.postFaults != 0 || rx.inverterFaults.msg.runFaults != 0)

/-- `MotorRpm`: from the fast frame, falling back to the status frame; the flag is false when both are
    stale. -/
def VehicleRx.motorRpm (rx : VehicleRx) (now : U32) : ℚ × Bool :=
  if rx.inverterSpeed.fresh now then (rx.inverterSpeed.msg.motorSpeed, true)
  else if rx.inverterStatus.fresh now then (rx.inverterStatus.msg.motorSpeed, true)
  else (0, false)

/-! ## Data bus -/

/-- `VcuDataAcqRx` / `WheelRx`. -/
structure WheelRx where
  coolantLoopTemps : RxSlot CoolantLoopTemps := .new _
  wheelSpeedFl : RxSlot (WheelSpeed .fl) := .new _
  wheelSpeedFr : RxSlot (WheelSpeed .fr) := .new _
  wheelSpeedRl : RxSlot (WheelSpeed .rl) := .new _
  wheelSpeedRr : RxSlot (WheelSpeed .rr) := .new _
deriving DecidableEq

/-- `VcuDataAcqRx::Dispatch`. -/
def WheelRx.dispatch (rx : WheelRx) (f : CanFrame) (now : U32) : WheelRx :=
  let coolant := rx.coolantLoopTemps.tryDecode f now
  let fl := rx.wheelSpeedFl.tryDecode f now
  let fr := rx.wheelSpeedFr.tryDecode f now
  let rl := rx.wheelSpeedRl.tryDecode f now
  if coolant.2 then { rx with coolantLoopTemps := coolant.1 }
  else if fl.2 then { rx with wheelSpeedFl := fl.1 }
  else if fr.2 then { rx with wheelSpeedFr := fr.1 }
  else if rl.2 then { rx with wheelSpeedRl := rl.1 }
  else { rx with wheelSpeedRr := (rx.wheelSpeedRr.tryDecode f now).1 }

/-- The slots after all frames of a batch. -/
def WheelRx.drain (rx : WheelRx) (frames : List CanFrame) (now : U32) : WheelRx :=
  frames.foldl (fun rx f => rx.dispatch f now) rx

/-- `WheelRx::Fresh`. -/
def WheelRx.fresh (rx : WheelRx) (now : U32) : Bool :=
  rx.wheelSpeedFl.fresh now && rx.wheelSpeedFr.fresh now && rx.wheelSpeedRl.fresh now &&
    rx.wheelSpeedRr.fresh now

/-! ## Each slot sees the whole bus -/

/-- A message takes only frames of its own id. -/
theorem accepts_eq_false_of_id_ne {M : Type} [Message M] {f : CanFrame}
    (h : f.id ≠ Message.kFrameId M) : accepts M f = false := by
  have hid : Message.isMatch M f.id = false := by
    unfold Message.isMatch
    simpa using h
  simp [accepts, hid]

/-- A slot is offered a frame of another id in vain. -/
theorem tryDecode_of_id_ne {M : Type} [Message M] (s : RxSlot M) {f : CanFrame} {now : U32}
    (h : f.id ≠ Message.kFrameId M) : s.tryDecode f now = (s, false) := by
  unfold RxSlot.tryDecode
  rw [if_neg (by simp [accepts_eq_false_of_id_ne h])]

/-- The frame a slot takes has the slot's id. -/
theorem id_of_tryDecode {M : Type} [Message M] {s : RxSlot M} {f : CanFrame} {now : U32}
    (h : (s.tryDecode f now).2 = true) : f.id = Message.kFrameId M := by
  by_contra hne
  rw [tryDecode_of_id_ne s hne] at h
  cases h

/-- A slot that does not take a frame is unchanged. -/
theorem tryDecode_fst_of_not {M : Type} [Message M] {s : RxSlot M} {f : CanFrame} {now : U32}
    (h : ¬ (s.tryDecode f now).2 = true) : (s.tryDecode f now).1 = s := by
  unfold RxSlot.tryDecode at h ⊢
  split at h
  · exact absurd rfl h
  · rw [if_neg ‹_›]

/-- **One slot's turn in a dispatch.** It takes a frame of its own id, or is unchanged and leaves it to the rest. -/
theorem dispatch_turn {M : Type} [Message M] {s : RxSlot M} {f : CanFrame} {now : U32} {α : Type}
    {taken rest whole : α} (htake : f.id = Message.kFrameId M → taken = whole)
    (hpass : (s.tryDecode f now).1 = s → rest = whole) :
    (if (s.tryDecode f now).2 = true then taken else rest) = whole := by
  by_cases h : (s.tryDecode f now).2 = true
  · rw [if_pos h]
    exact htake (id_of_tryDecode h)
  · rw [if_neg h]
    exact hpass (tryDecode_fst_of_not h)

/-- Every slot is offered the frame. -/
def VehicleRx.offer (rx : VehicleRx) (f : CanFrame) (now : U32) : VehicleRx :=
  { vcuModeCommand := (rx.vcuModeCommand.tryDecode f now).1
    inverterStatus := (rx.inverterStatus.tryDecode f now).1
    inverterCurrent := (rx.inverterCurrent.tryDecode f now).1
    inverterVoltage := (rx.inverterVoltage.tryDecode f now).1
    inverterDetails := (rx.inverterDetails.tryDecode f now).1
    inverterFaults := (rx.inverterFaults.tryDecode f now).1
    inverterSpeed := (rx.inverterSpeed.tryDecode f now).1
    duiDriverInputs := (rx.duiDriverInputs.tryDecode f now).1
    contactorStatus := (rx.contactorStatus.tryDecode f now).1
    indicatorsShutdownStatus := (rx.indicatorsShutdownStatus.tryDecode f now).1
    batteryCellLimits := (rx.batteryCellLimits.tryDecode f now).1
    bse3 := (rx.bse3.tryDecode f now).1 }

/-- **Dispatch stops early without a difference.** Offering a frame to the slots until one takes it is
    offering it to every slot, since no other slot would take it. -/
theorem VehicleRx.dispatch_eq_offer (rx : VehicleRx) (f : CanFrame) (now : U32) :
    rx.dispatch f now = rx.offer f now := by
  unfold VehicleRx.dispatch VehicleRx.offer
  -- the slots before the last, in the order of the chain
  iterate 11
    apply dispatch_turn
    · intro hid
      simp (disch := (rw [hid]; decide)) only [tryDecode_of_id_ne]
    intro _
  -- none of them took the frame
  simp only [*]

/-- **Each slot sees the whole bus.** After a batch every slot is what it would be had it alone been
    offered every frame. -/
theorem VehicleRx.drain_eq (rx : VehicleRx) (frames : List CanFrame) (now : U32) : rx.drain frames now =
  { vcuModeCommand := rx.vcuModeCommand.drain frames now
    inverterStatus := rx.inverterStatus.drain frames now
    inverterCurrent := rx.inverterCurrent.drain frames now
    inverterVoltage := rx.inverterVoltage.drain frames now
    inverterDetails := rx.inverterDetails.drain frames now
    inverterFaults := rx.inverterFaults.drain frames now
    inverterSpeed := rx.inverterSpeed.drain frames now
    duiDriverInputs := rx.duiDriverInputs.drain frames now
    contactorStatus := rx.contactorStatus.drain frames now
    indicatorsShutdownStatus := rx.indicatorsShutdownStatus.drain frames now
    batteryCellLimits := rx.batteryCellLimits.drain frames now
    bse3 := rx.bse3.drain frames now } := by
  induction frames generalizing rx with
  | nil => rfl
  | cons f rest ih =>
      have hcons : rx.drain (f :: rest) now = (rx.dispatch f now).drain rest now := rfl
      rw [hcons, VehicleRx.dispatch_eq_offer, ih]
      rfl

/-- Every slot is offered the frame. -/
def WheelRx.offer (rx : WheelRx) (f : CanFrame) (now : U32) : WheelRx :=
  { coolantLoopTemps := (rx.coolantLoopTemps.tryDecode f now).1
    wheelSpeedFl := (rx.wheelSpeedFl.tryDecode f now).1
    wheelSpeedFr := (rx.wheelSpeedFr.tryDecode f now).1
    wheelSpeedRl := (rx.wheelSpeedRl.tryDecode f now).1
    wheelSpeedRr := (rx.wheelSpeedRr.tryDecode f now).1 }

/-- Offering a frame to the data-bus slots until one takes it is offering it to every slot. -/
theorem WheelRx.dispatch_eq_offer (rx : WheelRx) (f : CanFrame) (now : U32) :
    rx.dispatch f now = rx.offer f now := by
  unfold WheelRx.dispatch WheelRx.offer
  iterate 4
    apply dispatch_turn
    · intro hid
      simp (disch := (rw [hid]; decide)) only [tryDecode_of_id_ne]
    intro _
  simp only [*]

/-- Each data-bus slot sees the whole bus. -/
theorem WheelRx.drain_eq (rx : WheelRx) (frames : List CanFrame) (now : U32) : rx.drain frames now =
  { coolantLoopTemps := rx.coolantLoopTemps.drain frames now
    wheelSpeedFl := rx.wheelSpeedFl.drain frames now
    wheelSpeedFr := rx.wheelSpeedFr.drain frames now
    wheelSpeedRl := rx.wheelSpeedRl.drain frames now
    wheelSpeedRr := rx.wheelSpeedRr.drain frames now } := by
  induction frames generalizing rx with
  | nil => rfl
  | cons f rest ih =>
      have hcons : rx.drain (f :: rest) now = (rx.dispatch f now).drain rest now := rfl
      rw [hcons, WheelRx.dispatch_eq_offer, ih]
      rfl

end Lhre.Vcu
