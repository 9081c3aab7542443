import Lhre.Drivers.Math

/-!
# `Bevo.DashScreen` — the screen override of the dashboard

Trackside can force `dashd` to show a screen, whatever the gear. A snapshot of `cand` whose gear differs from that of the
snapshot before it clears the override (`apps/BEVO/dashd/main.rs`).

## Contents
- **Gears.** `prndlOf`.
- **State.** `ScreenState`.
- **The two sources.** `ScreenState.onSnapshot`, `ScreenState.onScreen`; `ScreenState.step`.
-/

namespace Lhre.Bevo

/-- The gears the dashboard knows. -/
inductive Prndl
  | p
  | d
deriving DecidableEq, Repr

/-- The gear of a snapshot, by the `prndl_state` of its `diagnostics_high`; anything but 0 and 1 is no gear. -/
def prndlOf (diagHigh : Option ℚ) : Option Prndl :=
  diagHigh.bind fun prndlState =>
    if Longhorn.truncToInt prndlState = 0 then some .p
    else if Longhorn.truncToInt prndlState = 1 then some .d
    else none

/-- What the handlers of snapshots and of the topic `screen` read and write of `DashState`. -/
structure ScreenState where
  screenOverride : Option String := none
  lastPrndl : Option Prndl := none
deriving DecidableEq, Repr

/-- The gear of a snapshot in `ipc_reader_loop`. -/
def ScreenState.onSnapshot (s : ScreenState) (newPrndl : Option Prndl) : ScreenState :=
  let s := match s.lastPrndl, newPrndl with
    | some prev, some cur =>
        if prev ≠ cur ∧ s.screenOverride.isSome then { s with screenOverride := none } else s
    | _, _ => s
  { s with lastPrndl := newPrndl }

/-- The white space that `str::trim` removes. -/
def isWhiteSpace (c : Char) : Bool :=
  decide (0x9 ≤ c.toNat ∧ c.toNat ≤ 0xD) ||
    c.toNat ∈ [0x20, 0x85, 0xA0, 0x1680, 0x2028, 0x2029, 0x202F, 0x205F, 0x3000] ||
    decide (0x2000 ≤ c.toNat ∧ c.toNat ≤ 0x200A)

/-- `str::trim`. -/
def trim (s : String) : String :=
  String.ofList ((s.toList.dropWhile isWhiteSpace).reverse.dropWhile isWhiteSpace).reverse

/-- A message of `lhre/dash/screen`: the name of a screen, or `auto` or nothing to follow the gear again. -/
def ScreenState.onScreen (s : ScreenState) (payload : String) : ScreenState :=
  let name := trim payload
  { s with screenOverride := if name = "" ∨ name = "auto" then none else some name }

/-- What happens to the dashboard: a snapshot with its `prndl_state`, or a message of trackside. -/
inductive ScreenEvent
  | snapshot (diagHigh : Option ℚ)
  | screen (payload : String)
deriving DecidableEq, Repr

def ScreenState.step (s : ScreenState) : ScreenEvent → ScreenState
  | .snapshot diagHigh => s.onSnapshot (prndlOf diagHigh)
  | .screen payload => s.onScreen payload

section Step

variable {s : ScreenState} {newPrndl : Option Prndl}

@[simp] theorem ScreenState.onSnapshot_lastPrndl : (s.onSnapshot newPrndl).lastPrndl = newPrndl := rfl

@[simp] theorem ScreenState.onScreen_lastPrndl (payload : String) : (s.onScreen payload).lastPrndl = s.lastPrndl := rfl

open Classical in
/-- **A snapshot clears the override** where its gear differs from the stored one, and otherwise leaves it. -/
theorem ScreenState.onSnapshot_screenOverride : (s.onSnapshot newPrndl).screenOverride =
    if ∃ prev cur, s.lastPrndl = some prev ∧ newPrndl = some cur ∧ prev ≠ cur then none else s.screenOverride := by
  unfold ScreenState.onSnapshot
  cases hlast : s.lastPrndl with
  | none => simp
  | some prev =>
      cases newPrndl with
      | none => simp
      | some cur =>
          by_cases hne : prev = cur
          · simp [hne]
          · cases hover : s.screenOverride <;> simp [hne, hover]

end Step

end Lhre.Bevo
