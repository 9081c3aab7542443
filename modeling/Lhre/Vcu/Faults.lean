import Lhre.Drivers.System

/-!
# `Vcu.Faults` — fault bits and latches

The fault word, the faults that cut torque, and the latches over the brake comparator flags, the error lamps
and the coolant temperature (`boards/VCU/App/safety/faults.{hpp,cpp}`). A fault word is its 32 bits; bit `i`
is entry `i` of the spec's fault list.
-/

namespace Lhre.Vcu

/-- `FaultBit`. -/
inductive FaultBit
  | appsImplausibility
  | apps1Range
  | apps2Range
  | bse1Range
  | bse2Range
  | steeringRange
  | brakeFlagLatched
  | brakeOverThrottle
  | shutdownOpen
  | hvcTimeout
  | inverterTimeout
  | pduTimeout
  | inverterFault
  | bspdTripped
  | hardBrakeMismatch
  | duiTimeout
  | bse3Unavailable
  | contactorsOpen
  | motorDisconnect
  | shutdownSenseImplausibility
  | adcStale
  | coolantOvertemp
deriving DecidableEq, Repr

/-- The index of a fault in the fault word. -/
def FaultBit.index : FaultBit → ℕ
  | .appsImplausibility => 0
  | .apps1Range => 1
  | .apps2Range => 2
  | .bse1Range => 3
  | .bse2Range => 4
  | .steeringRange => 5
  | .brakeFlagLatched => 6
  | .brakeOverThrottle => 7
  | .shutdownOpen => 8
  | .hvcTimeout => 9
  | .inverterTimeout => 10
  | .pduTimeout => 11
  | .inverterFault => 12
  | .bspdTripped => 13
  | .hardBrakeMismatch => 14
  | .duiTimeout => 15
  | .bse3Unavailable => 16
  | .contactorsOpen => 17
  | .motorDisconnect => 18
  | .shutdownSenseImplausibility => 19
  | .adcStale => 20
  | .coolantOvertemp => 21

/-- `1u << index`. -/
def FaultBit.mask (b : FaultBit) : U32 := 1#32 <<< b.index

/-- `kTorqueCutFaults`: these faults exit DRIVE. Brake-over-throttle only cuts torque until pedal release. -/
def torqueCutFaultBits : List FaultBit :=
  [.appsImplausibility, .bse1Range, .bse2Range, .brakeFlagLatched, .shutdownOpen, .hvcTimeout, .inverterTimeout,
   .pduTimeout, .inverterFault, .bspdTripped, .motorDisconnect, .adcStale]

/-- The mask of the torque-cut faults. -/
def kTorqueCutFaults : U32 := torqueCutFaultBits.foldl (fun m b => m ||| b.mask) 0

/-- The fault word with the bits of every raised fault of a list of `(raised, bit)` checks set. -/
def faultWord : List (Bool × FaultBit) → U32
  | [] => 0
  | (raised, b) :: rest => (if raised then b.mask else 0) ||| faultWord rest

/-- Some bit of `mask` is set in `faults`. -/
def anyFault (faults mask : U32) : Bool := faults &&& mask != 0

/-- A fault word has a raised fault's bit. -/
theorem mask_and_faultWord {l : List (Bool × FaultBit)} {b : FaultBit} (h : (true, b) ∈ l) :
    b.mask &&& faultWord l = b.mask := by
  induction l with
  | nil => cases h
  | cons x rest ih =>
      obtain ⟨raised, c⟩ := x
      rw [faultWord]
      rcases List.mem_cons.mp h with heq | hrest
      · cases heq
        ext i
        simp
        tauto
      · have := ih hrest
        ext i hi
        have hbit := congrArg (fun v : U32 => v.getLsbD i) this
        simp only [BitVec.getLsbD_and] at hbit
        simp only [BitVec.getElem_and, BitVec.getElem_or, BitVec.getLsbD_eq_getElem hi] at hbit ⊢
        cases hb : b.mask[i]
        · rfl
        · rw [hb] at hbit
          simp only [Bool.true_and] at hbit ⊢
          rw [hbit, Bool.or_true]

/-- Each torque-cut fault is in the mask. -/
theorem mask_and_kTorqueCutFaults {b : FaultBit} (h : b ∈ torqueCutFaultBits) :
    b.mask &&& kTorqueCutFaults = b.mask := by
  revert b
  decide

/-- A fault's mask is not empty. -/
theorem mask_ne_zero (b : FaultBit) : b.mask ≠ 0 := by
  cases b <;> decide

/-- **A raised torque-cut fault cuts torque.** -/
theorem anyFault_of_raised {l : List (Bool × FaultBit)} {b : FaultBit} (h : (true, b) ∈ l)
    (hcut : b ∈ torqueCutFaultBits) : anyFault (faultWord l) kTorqueCutFaults = true := by
  unfold anyFault
  rw [bne_iff_ne]
  intro hz
  apply mask_ne_zero b
  calc b.mask = b.mask &&& kTorqueCutFaults := (mask_and_kTorqueCutFaults hcut).symm
    _ = b.mask &&& faultWord l &&& kTorqueCutFaults := by rw [mask_and_faultWord h]
    _ = b.mask &&& (faultWord l &&& kTorqueCutFaults) := BitVec.and_assoc ..
    _ = 0 := by rw [hz]; simp

/-- With no torque-cut fault in the word, no torque-cut check was raised. -/
theorem not_raised_of_not_anyFault {l : List (Bool × FaultBit)} {raised : Bool} {b : FaultBit}
    (h : anyFault (faultWord l) kTorqueCutFaults = false) (hmem : (raised, b) ∈ l)
    (hcut : b ∈ torqueCutFaultBits) : raised = false := by
  cases raised with
  | false => rfl
  | true =>
      rw [anyFault_of_raised hmem hcut] at h
      cases h

/-! ## PrimaryFault -/

/-- The order in which `PrimaryFault` looks for the fault to show. -/
def faultPriority : List FaultBit :=
  [.bspdTripped, .shutdownOpen, .contactorsOpen, .hvcTimeout, .inverterTimeout, .inverterFault, .pduTimeout,
   .motorDisconnect, .adcStale, .appsImplausibility, .bse1Range, .bse2Range, .brakeFlagLatched,
   .brakeOverThrottle, .coolantOvertemp]

/-- `PrimaryFault`, as the number of the fault code: bit index + 1, or 0 for none. -/
def primaryFault (faults : U32) : ℕ :=
  let faults := match faultPriority.find? (fun b => anyFault faults b.mask) with
    | some b => b.mask
    | none => faults
  match (List.range 32).find? (fun i => anyFault faults (1#32 <<< i)) with
  | some i => i + 1
  | none => 0

/-! ## Latches -/

/-- Brake comparator faults latch until a dash reset with all flags clear. -/
structure BrakeFlagLatch where
  latched : Bool := false
  dirty : Bool := false
  resets : U8 := 0
deriving DecidableEq, Repr

/-- `kPersistedSet`. -/
def kPersistedSet : U32 := 0xB5A7E001

/-- `BrakeFlagLatch::Restore`. -/
def BrakeFlagLatch.restore (l : BrakeFlagLatch) (persisted : U32) : BrakeFlagLatch :=
  { l with latched := persisted == kPersistedSet }

/-- `BrakeFlagLatch::Update`. -/
def BrakeFlagLatch.update (l : BrakeFlagLatch) (anyFlag resetEdge : Bool) : BrakeFlagLatch :=
  if anyFlag then
    { l with dirty := if !l.latched then true else l.dirty, latched := true }
  else if resetEdge && l.latched then
    { latched := false, dirty := true, resets := l.resets + 1 }
  else l

/-- `persisted_value`: 0 = clear, `kPersistedSet` = latched. -/
def BrakeFlagLatch.persistedValue (l : BrakeFlagLatch) : U32 := if l.latched then kPersistedSet else 0

/-- `MarkPersisted`. -/
def BrakeFlagLatch.markPersisted (l : BrakeFlagLatch) : BrakeFlagLatch := { l with dirty := false }

@[simp] theorem BrakeFlagLatch.markPersisted_latched (l : BrakeFlagLatch) :
    l.markPersisted.latched = l.latched := rfl

@[simp] theorem BrakeFlagLatch.update_latched (l : BrakeFlagLatch) (anyFlag resetEdge : Bool) :
    (l.update anyFlag resetEdge).latched = (anyFlag || (l.latched && !resetEdge)) := by
  unfold BrakeFlagLatch.update
  cases anyFlag <;> cases resetEdge <;> cases h : l.latched <;> simp [h]

/-- **The latch only changes with the dirty mark.** A change of the latch leaves it to be saved. -/
theorem BrakeFlagLatch.dirty_of_change {l : BrakeFlagLatch} {anyFlag resetEdge : Bool}
    (h : (l.update anyFlag resetEdge).latched ≠ l.latched) : (l.update anyFlag resetEdge).dirty = true := by
  unfold BrakeFlagLatch.update at h ⊢
  cases anyFlag <;> cases resetEdge <;> cases hl : l.latched <;> simp_all

/-- The dirty mark is only set by a change of the latch. -/
theorem BrakeFlagLatch.change_of_dirty {l : BrakeFlagLatch} {anyFlag resetEdge : Bool} (hclean : l.dirty = false)
    (h : (l.update anyFlag resetEdge).dirty = true) : (l.update anyFlag resetEdge).latched ≠ l.latched := by
  unfold BrakeFlagLatch.update at h ⊢
  cases anyFlag <;> cases resetEdge <;> cases hl : l.latched <;> simp_all

/-- Latch reported BMS/IMD faults; light both lamps when the feedback is stale. -/
structure ErrorLeds where
  bmsLatched : Bool := false
  imdLatched : Bool := false
  bmsOn : Bool := true
  imdOn : Bool := true
deriving DecidableEq

/-- `ErrorLeds::Update`. -/
def ErrorLeds.update (l : ErrorLeds) (indicatorsFresh bmsError imdError : Bool) : ErrorLeds :=
  let bms := if indicatorsFresh then l.bmsLatched || bmsError else l.bmsLatched
  let imd := if indicatorsFresh then l.imdLatched || imdError else l.imdLatched
  { bmsLatched := bms
    imdLatched := imd
    bmsOn := bms || !indicatorsFresh
    imdOn := imd || !indicatorsFresh }

/-- Coolant overtemp latches until a dash reset with the loop back under the limit. -/
structure CoolantOvertempLatch where
  latched : Bool := false
deriving DecidableEq

/-- `CoolantOvertempLatch::Update`. -/
def CoolantOvertempLatch.update (l : CoolantOvertempLatch) (overLimit resetEdge : Bool) : CoolantOvertempLatch :=
  if overLimit then { latched := true } else if resetEdge then { latched := false } else l

end Lhre.Vcu
