import Lhre.Theory.Mailbox
import Lhre.Vcu.FaultStore
import Lhre.Vcu.TickFacts

/-!
# `Vcu.LatchHandoff` — the brake latch on its way to flash, one load or store at a time

The control task updates the latch and, when it changed, stores the value to save and then the pending flag; the
telemetry task takes the flag, loads the value and saves it. Here each of these is a step of its own, so the two tasks
interleave freely. `App.updateBrakeLatch` and `App.telemetryTick` run the same steps without a break
(`updateBrakeLatch_handoff`, `telemetryTick_handoff`).
-/

namespace Lhre.Vcu

open Mailbox

/-- The journal page as the sink of a mailbox. -/
def flashSink (dualBank : Bool) : Sink U32 (List U64) FlashOutcome where
  deliver flash value page := saveFaultLatch dualBank flash value page
  get := loadFaultLatch dualBank
  Works flash := dualBank = true ∧ flash.Works
  Inv := InUse
  keeps flash value _ h := h.save dualBank flash value
  delivers _ _ _ hworks h := load_of_succeeds h ⟨hworks.1, Or.inr ⟨hworks.2.2, fun _ => hworks.2.1⟩⟩

/-- The latch, `latch_save_value_` and `latch_save_pending_`, the page, and where each task is. -/
structure LatchHandoff where
  latch : BrakeFlagLatch
  box : Mailbox.State U32 (List U64)

/-- The handoff after boot: the latch is restored from what the page holds. -/
def LatchHandoff.boot (dualBank : Bool) (page : List U64) : LatchHandoff where
  latch := BrakeFlagLatch.restore {} (loadFaultLatch dualBank page)
  box := { value := 0, sink := page }

/-- The next step of one of the tasks. The brake flags and the reset edge are read when a control tick updates the
    latch; the flash outcome when a telemetry tick saves. -/
inductive HandoffEvent
  | control (anyFlag resetEdge : Bool)
  | telemetry (flash : FlashOutcome)
deriving DecidableEq

/-- The control task begins a publication when its update leaves the latch dirty. -/
def LatchHandoff.publication (h : LatchHandoff) (anyFlag resetEdge : Bool) : Option U32 :=
  let latch := h.latch.update anyFlag resetEdge
  if latch.dirty then some latch.persistedValue else none

/-- One step. An idle control task updates the latch; otherwise it goes on with its stores, and marks the latch
    persisted after the last. -/
def LatchHandoff.step (dualBank : Bool) (h : LatchHandoff) : HandoffEvent → LatchHandoff
  | .control anyFlag resetEdge =>
      match h.box.writer with
      | .idle =>
          { latch := h.latch.update anyFlag resetEdge
            box := Mailbox.step (flashSink dualBank) h.box (.write (h.publication anyFlag resetEdge)) }
      | .storeValue _ => { h with box := Mailbox.step (flashSink dualBank) h.box (.write none) }
      | .storeFlag =>
          { latch := h.latch.markPersisted
            box := Mailbox.step (flashSink dualBank) h.box (.write none) }
  | .telemetry flash => { h with box := Mailbox.step (flashSink dualBank) h.box (.read flash) }

/-! ## The app runs these steps -/

/-- The handoff between two ticks of the app, over a page. -/
def App.handoff (a : App) (page : List U64) : LatchHandoff where
  latch := a.brakeLatch
  box := { value := a.latchSaveValue, flag := a.latchSavePending, sink := page }

theorem App.boot_handoff {env : Env} {dualBank : Bool} {page : List U64} (hboard : env.hasBoard = true)
    (hload : env.loadedLatch = loadFaultLatch dualBank page) :
    (App.boot env).handoff page = LatchHandoff.boot dualBank page := by
  unfold App.boot App.handoff LatchHandoff.boot
  rw [if_pos hboard, hload]

/-- The steps a control tick takes: three when its update leaves the latch dirty, one when it does not. -/
def LatchHandoff.controlSteps (dualBank : Bool) (h : LatchHandoff) (anyFlag resetEdge : Bool) : LatchHandoff :=
  (fun h => h.step dualBank (.control anyFlag resetEdge))^[
    if (h.latch.update anyFlag resetEdge).dirty then 3 else 1] h

/-- **`App::UpdateBrakeLatch` is the control task's steps, run without a break.** -/
theorem App.updateBrakeLatch_handoff (a : App) (now : U32) (dualBank : Bool) (page : List U64) :
    (a.updateBrakeLatch now).1.handoff page =
      (a.handoff page).controlSteps dualBank a.live.inputs.anyBrakeFlag (a.updateBrakeLatch now).2 := by
  have hedge : (a.updateBrakeLatch now).2 = (a.resetLevel now && !a.prevFaultReset) := rfl
  rw [hedge]
  cases hdirty : (a.brakeLatch.update a.live.inputs.anyBrakeFlag
      (a.resetLevel now && !a.prevFaultReset)).dirty <;>
    simp [App.handoff, LatchHandoff.controlSteps, LatchHandoff.step, LatchHandoff.publication, Mailbox.step,
      App.updateBrakeLatch, hdirty]

/-- The rest of a control tick leaves the handoff alone. -/
theorem App.controlTick_handoff (env : Env) (a : App) (x : TickInputs) (dualBank : Bool) (page : List U64) :
    ∃ resetEdge, (a.controlTick env x).1.handoff page =
      (a.handoff page).controlSteps dualBank (a.controlTick env x).1.live.inputs.anyBrakeFlag resetEdge := by
  let read := (((a.startTick x.now).drainCan x).readInputs env x).1
  refine ⟨(read.updateBrakeLatch x.now).2, ?_⟩
  have hbefore : read.handoff page = a.handoff page := by
    unfold read App.handoff App.readInputs App.drainCan App.startTick
    rfl
  have hafter : (a.controlTick env x).1.handoff page = (read.updateBrakeLatch x.now).1.handoff page := by
    unfold App.handoff
    rw [App.controlTick_brakeLatch, App.controlTick_latchSaveValue, App.controlTick_latchSavePending]
    unfold App.sense App.updateCoolantLatch
    rfl
  have hflags : (a.controlTick env x).1.live.inputs.anyBrakeFlag = read.live.inputs.anyBrakeFlag := by
    rw [App.controlTick_live_inputs]
    unfold App.sense App.updateCoolantLatch App.updateBrakeLatch
    rfl
  rw [hafter, hflags, ← hbefore]
  exact read.updateBrakeLatch_handoff x.now dualBank page

/-- **`App::TelemetryTick` is the telemetry task's steps, run without a break**, on a car with a board. -/
theorem App.telemetryTick_handoff {env : Env} (hboard : env.hasBoard = true) (a : App) (now : U32)
    (dualBank : Bool) (flash : FlashOutcome) (page : List U64) :
    (a.telemetryTick env now).1.handoff
        (((a.telemetryTick env now).2.map (saveFaultLatch dualBank flash · page)).getD page) =
      (fun h => LatchHandoff.step dualBank h (.telemetry flash))^[if a.latchSavePending then 3 else 1]
        (a.handoff page) := by
  cases hpending : a.latchSavePending <;>
    simp [App.handoff, LatchHandoff.step, Mailbox.step, App.telemetryTick, flashSink, hpending, hboard]

/-! ## What a step does to the latch -/

section Step

variable {dualBank : Bool} {h : LatchHandoff} {e : HandoffEvent}

/-- What a step is to the mailbox. -/
def LatchHandoff.boxEvent (h : LatchHandoff) : HandoffEvent → Event U32 FlashOutcome
  | .control anyFlag resetEdge =>
      match h.box.writer with
      | .idle => .write (h.publication anyFlag resetEdge)
      | _ => .write none
  | .telemetry flash => .read flash

theorem LatchHandoff.step_box : (h.step dualBank e).box = Mailbox.step (flashSink dualBank) h.box (h.boxEvent e) := by
  cases e with
  | control anyFlag resetEdge =>
      cases hw : h.box.writer <;> simp [LatchHandoff.step, LatchHandoff.boxEvent, hw]
  | telemetry flash => rfl

/-- Between publications the latch is not dirty. -/
def LatchHandoff.Clean (h : LatchHandoff) : Prop := h.box.writer = .idle → h.latch.dirty = false

theorem LatchHandoff.clean_boot (page : List U64) : (LatchHandoff.boot dualBank page).Clean := by
  intro _
  rfl

theorem LatchHandoff.Clean.step (hclean : h.Clean) : (h.step dualBank e).Clean := by
  unfold LatchHandoff.Clean at hclean ⊢
  cases e with
  | control anyFlag resetEdge =>
      cases hw : h.box.writer with
      | idle =>
          cases hdirty : (h.latch.update anyFlag resetEdge).dirty <;>
            simp [LatchHandoff.step, LatchHandoff.publication, Mailbox.step, hw, hdirty]
      | storeValue a => simp [LatchHandoff.step, Mailbox.step, hw]
      | storeFlag => simp [LatchHandoff.step, BrakeFlagLatch.markPersisted, hw]
  | telemetry flash =>
      have hwriter : (Mailbox.step (flashSink dualBank) h.box (.read flash)).writer = h.box.writer := by
        cases hr : h.box.reader <;> cases hf : h.box.flag <;> simp [Mailbox.step, hr, hf]
      show (Mailbox.step (flashSink dualBank) h.box (.read flash)).writer = .idle → h.latch.dirty = false
      rw [hwriter]
      exact hclean

/-- **Only an idle control task changes the latch, and a change begins a publication** of the new value. -/
theorem LatchHandoff.publishes_of_change (hchange : (h.step dualBank e).latch.latched ≠ h.latch.latched) :
    h.box.writer = .idle ∧ h.boxEvent e = .write (some (h.step dualBank e).latch.persistedValue) := by
  cases e with
  | control anyFlag resetEdge =>
      cases hw : h.box.writer with
      | idle =>
          have hlatch : (h.step dualBank (.control anyFlag resetEdge)).latch = h.latch.update anyFlag resetEdge := by
            simp [LatchHandoff.step, hw]
          rw [hlatch] at hchange ⊢
          have hdirty := BrakeFlagLatch.dirty_of_change hchange
          refine ⟨rfl, ?_⟩
          simp [LatchHandoff.boxEvent, LatchHandoff.publication, hw, hdirty]
      | storeValue a => simp [LatchHandoff.step, hw] at hchange
      | storeFlag => simp [LatchHandoff.step, hw] at hchange
  | telemetry flash => exact absurd rfl hchange

/-- A publication begins only with a change of the latch. -/
theorem LatchHandoff.change_of_publishes (hclean : h.Clean) (hpub : Publishes h.box (h.boxEvent e)) :
    (h.step dualBank e).latch.latched ≠ h.latch.latched := by
  obtain ⟨hw, a, ha⟩ := hpub
  cases e with
  | control anyFlag resetEdge =>
      have hlatch : (h.step dualBank (.control anyFlag resetEdge)).latch = h.latch.update anyFlag resetEdge := by
        simp [LatchHandoff.step, hw]
      rw [hlatch]
      refine BrakeFlagLatch.change_of_dirty (hclean hw) ?_
      by_contra hdirty
      simp [LatchHandoff.boxEvent, LatchHandoff.publication, hw, hdirty] at ha
  | telemetry flash => cases ha

end Step

end Lhre.Vcu
