import Lhre.Drivers.Math
import Lhre.Drivers.System

/-!
# `Drivers.RateGate` — fixed-rate work inside a faster loop

`longhorn::RateGate` and `PeriodMs` (`drivers/longhorn/include/longhorn/{rate_gate,period}.hpp`). Deadlines
accumulate, so periods that are not whole loop ticks do not drift.
-/

namespace Lhre.Longhorn

structure RateGate where
  nextMs : U32 := 0
  started : Bool := false
deriving DecidableEq, Repr

/-- `RateGate::Due`: the new gate and whether the work is due. -/
def RateGate.due (g : RateGate) (now periodMs : U32) : RateGate × Bool :=
  let next := if g.started then g.nextMs else now
  if (now - next).toInt < 0 then ({ nextMs := next, started := true }, false)
  else
    -- don't burst to catch up after a stall
    let next := next + periodMs
    ({ nextMs := if 0 ≤ (now - next).toInt then now + periodMs else next, started := true }, true)

/-- `PeriodMs` of a message sent at `hz`; fast periods are clamped to 1 ms. -/
def periodMs (hz : ℚ) : U32 :=
  let ms := 1000 / hz
  if ms < 1 then 1 else BitVec.ofInt 32 (truncToInt ms)

end Lhre.Longhorn
