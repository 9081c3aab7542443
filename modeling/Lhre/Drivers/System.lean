import Mathlib.Tactic
import Lhre.Theory.WrapClock

/-!
# `Drivers.System` — the machine words and the millisecond clock

The fixed-width words of the firmware and `lhal::ElapsedMs`, the wrap-safe timeout test every timer of the
drivers and of the boards is written with (`drivers/lhal/include/lhal/system.hpp`).
-/

namespace Lhre

/-- `uint8_t`. -/
abbrev U8 := BitVec 8
/-- `uint16_t`. -/
abbrev U16 := BitVec 16
/-- `uint32_t`; the millisecond clock wraps at `2 ^ 32`. -/
abbrev U32 := BitVec 32
/-- `uint64_t`. -/
abbrev U64 := BitVec 64

namespace Lhal

/-- `lhal::Status`: the result of a driver operation. -/
inductive Status
  | ok
  | error
  | busy
  | timeout
deriving DecidableEq, Repr

/-- `lhal::IsOk`. -/
def isOk (s : Status) : Bool := s == .ok

/-- Wrap-safe "has `interval` elapsed since `since`". -/
def elapsedMs (now since interval : U32) : Bool := decide (interval ≤ now - since)

/-- **The timeout test on true times.** While the stamp is younger than one turn of the clock, the test
    says whether the true age has reached the interval. -/
theorem elapsedMs_ofNat {s t : ℕ} {d : U32} (h : s ≤ t) (hspan : t - s < 2 ^ 32) :
    elapsedMs (BitVec.ofNat 32 t) (BitVec.ofNat 32 s) d = decide (s + d.toNat ≤ t) := by
  unfold elapsedMs
  rw [decide_eq_decide]
  exact WrapClock.le_age_iff h hspan

end Lhal
end Lhre
