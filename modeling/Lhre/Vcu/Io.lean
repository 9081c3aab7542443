import Lhre.Vcu.Params

/-!
# `Vcu.Io` — the ADC banks and the digital pins

Conversion of ADC counts to volts with VREFINT correction, the conversion-progress check, and the polarity
of the digital pins (`boards/VCU/App/io/{analog,digital_io,peripherals}`). A null peripheral pointer is
`none`.
-/

namespace Lhre.Vcu

/-! ## ADC banks -/

/-- What one control tick can read from an `lhal::AdcScan`. -/
structure AdcScan where
  completedScans : U32
  fullScale : U16 := 4095
  counts : List U16
deriving DecidableEq

/-- `AdcScan::Read`; out-of-range channels read 0. -/
def AdcScan.read (a : AdcScan) (rank : ℕ) : U16 := a.counts.getD rank 0

/-- `Adc1Rank`. -/
inductive Adc1Rank
  | apps1
  | apps2
  | bse1
  | bse2
  | shutdownOut
  | vrefint

/-- `Adc2Rank`. -/
inductive Adc2Rank
  | steering
  | shutdownIn

/-- The scan rank of an ADC1 channel. -/
def Adc1Rank.toNat : Adc1Rank → ℕ
  | .apps1 => 0
  | .apps2 => 1
  | .bse1 => 2
  | .bse2 => 3
  | .shutdownOut => 4
  | .vrefint => 5

/-- The scan rank of an ADC2 channel. -/
def Adc2Rank.toNat : Adc2Rank → ℕ
  | .steering => 0
  | .shutdownIn => 1

/-- `ReadOr0`. -/
def readOr0 (adc : Option AdcScan) (rank : ℕ) : U16 :=
  match adc with
  | none => 0
  | some a => a.read rank

/-- Tracks completed conversions of one bank. -/
structure AdcProgress where
  previous : U32 := 0
  lastMs : U32 := 0
  seen : Bool := false
deriving DecidableEq

/-- `AdcProgress::Fresh`: the new tracker and whether the bank is making progress. -/
def AdcProgress.fresh (p : AdcProgress) (adc : Option AdcScan) (now : U32) : AdcProgress × Bool :=
  match adc with
  | none => (p, false)
  | some a =>
      let p := if a.completedScans != p.previous then
          { previous := a.completedScans, lastMs := now, seen := true } else p
      (p, p.seen && decide (now - p.lastMs < 10))

/-- The completed-scans counter read last before position `n` of a stream of scans, 0 before any. -/
def scansBefore (adc : ℕ → Option AdcScan) : ℕ → U32
  | 0 => 0
  | n + 1 => match adc n with
    | none => scansBefore adc n
    | some a => a.completedScans

/-- A tracker shown a bank at every position of a stream. -/
structure AdcProgress.Sampled (T : ℕ → AdcProgress) (adc : ℕ → Option AdcScan) (t : ℕ → ℕ) : Prop where
  start : T 0 = {}
  step : ∀ n, T (n + 1) = ((T n).fresh (adc n) (BitVec.ofNat 32 (t n))).1
  mono : Monotone t

/-- The bank's counter advanced at position `k`. -/
def Advanced (adc : ℕ → Option AdcScan) (k : ℕ) : Prop :=
  ∃ a, adc k = some a ∧ a.completedScans ≠ scansBefore adc k

namespace AdcProgress.Sampled

variable {T : ℕ → AdcProgress} {adc : ℕ → Option AdcScan} {t : ℕ → ℕ}

/-- **The tracker remembers the last advance.** `previous` is the counter read last, and a tracker that has
    seen progress is stamped with the time of an advance. -/
theorem last (h : Sampled T adc t) (n : ℕ) : (T n).previous = scansBefore adc n ∧
    ((T n).seen = true → ∃ k, k < n ∧ Advanced adc k ∧ (T n).lastMs = BitVec.ofNat 32 (t k)) := by
  induction n with
  | zero =>
      rw [h.start]
      refine ⟨rfl, ?_⟩
      intro hseen
      cases hseen
  | succ n ih =>
      obtain ⟨hprevious, hadvanced⟩ := ih
      rw [h.step]
      unfold AdcProgress.fresh
      cases hadc : adc n with
      | none =>
          refine ⟨?_, ?_⟩
          · rw [scansBefore, hadc]
            exact hprevious
          · intro hseen
            obtain ⟨k, hk, hadv, hms⟩ := hadvanced hseen
            exact ⟨k, Nat.lt_succ_of_lt hk, hadv, hms⟩
      | some a =>
          by_cases hnew : a.completedScans = (T n).previous
          · simp only [hnew, bne_self_eq_false, Bool.false_eq_true, if_false]
            refine ⟨?_, ?_⟩
            · rw [scansBefore, hadc]
              exact hnew.symm
            · intro hseen
              obtain ⟨k, hk, hadv, hms⟩ := hadvanced hseen
              exact ⟨k, Nat.lt_succ_of_lt hk, hadv, hms⟩
          · simp only [bne_iff_ne.mpr hnew, if_true]
            refine ⟨?_, ?_⟩
            · rw [scansBefore, hadc]
            · intro _
              refine ⟨n, Nat.lt_succ_self n, ⟨a, hadc, ?_⟩, rfl⟩
              rw [← hprevious]
              exact hnew

/-- **A fresh bank advanced within the last 10 ms.** -/
theorem advanced_of_fresh (h : Sampled T adc t) {n : ℕ} (hspan : t n - t 0 < 2 ^ 32)
    (hfresh : ((T n).fresh (adc n) (BitVec.ofNat 32 (t n))).2 = true) :
    ∃ k, k ≤ n ∧ Advanced adc k ∧ t n < t k + 10 := by
  have hpair : (T (n + 1)).seen = true ∧ BitVec.ofNat 32 (t n) - (T (n + 1)).lastMs < 10 := by
    rw [h.step]
    unfold AdcProgress.fresh at hfresh ⊢
    cases hadc : adc n with
    | none =>
        rw [hadc] at hfresh
        cases hfresh
    | some a =>
        rw [hadc] at hfresh
        simpa using hfresh
  obtain ⟨k, hk, hadv, hms⟩ := (h.last (n + 1)).2 hpair.1
  have hle : k ≤ n := Nat.le_of_lt_succ hk
  refine ⟨k, hle, hadv, ?_⟩
  have hkn : t k ≤ t n := h.mono hle
  have h0 : t 0 ≤ t k := h.mono (Nat.zero_le k)
  have hage := hpair.2
  rw [hms, BitVec.lt_def, WrapClock.toNat_age hkn (by omega)] at hage
  have h10 : (10 : U32).toNat = 10 := rfl
  omega

end AdcProgress.Sampled

/-- `AnalogReadings::Channel`. -/
structure Channel where
  counts : U16 := 0
  pinV : ℚ := 0
  sourceV : ℚ := 0
deriving DecidableEq

structure AnalogReadings where
  apps1 : Channel := {}
  apps2 : Channel := {}
  bse1 : Channel := {}
  bse2 : Channel := {}
  steering : Channel := {}
  shutdownIn : Channel := {}
  shutdownOut : Channel := {}
  vrefintCounts : U16 := 0
  vdda : ℚ := 0
  vddaFromVrefint : Bool := false
deriving DecidableEq

/-- `MakeChannel`. -/
def makeChannel (counts : U16) (vdda : ℚ) (fullScale : U16) (ratio : ℚ) : Channel :=
  let pinV := if fullScale = 0 then 0 else (counts.toNat : ℚ) * vdda / (fullScale.toNat : ℚ)
  { counts := counts, pinV := pinV, sourceV := if 0 < ratio then pinV / ratio else 0 }

/-- `ComputeVdda`: the supply voltage and whether it came from VREFINT. -/
def computeVdda (vrefintCounts vrefintCal fullScale : U16) (analog : AnalogParams) : ℚ × Bool :=
  if vrefintCounts = 0 ∨ vrefintCal = 0 ∨ fullScale = 0 then (analog.nominalVdda, false)
  else
    let cal := (vrefintCal.toNat : ℚ) * (fullScale.toNat : ℚ) / 4095
    let vdda := analog.vrefintCalVdda * cal / (vrefintCounts.toNat : ℚ)
    if vdda < 2.7 ∨ 3.6 < vdda then (analog.nominalVdda, false) else (vdda, true)

/-- `ReadAnalog`. -/
def readAnalog (adc1 adc2 : Option AdcScan) (vrefintCal : U16) (analog : AnalogParams) : AnalogReadings :=
  let fs1 := (adc1.map AdcScan.fullScale).getD 4095
  let fs2 := (adc2.map AdcScan.fullScale).getD 4095
  let vrefintCounts := readOr0 adc1 Adc1Rank.vrefint.toNat
  let vdda := computeVdda vrefintCounts vrefintCal fs1 analog
  let s := analog.sensorDividerRatio
  let l := analog.shutdownDividerRatio
  { vrefintCounts := vrefintCounts
    vdda := vdda.1
    vddaFromVrefint := vdda.2
    apps1 := makeChannel (readOr0 adc1 Adc1Rank.apps1.toNat) vdda.1 fs1 s
    apps2 := makeChannel (readOr0 adc1 Adc1Rank.apps2.toNat) vdda.1 fs1 s
    bse1 := makeChannel (readOr0 adc1 Adc1Rank.bse1.toNat) vdda.1 fs1 s
    bse2 := makeChannel (readOr0 adc1 Adc1Rank.bse2.toNat) vdda.1 fs1 s
    shutdownOut := makeChannel (readOr0 adc1 Adc1Rank.shutdownOut.toNat) vdda.1 fs1 l
    steering := makeChannel (readOr0 adc2 Adc2Rank.steering.toNat) vdda.1 fs2 s
    shutdownIn := makeChannel (readOr0 adc2 Adc2Rank.shutdownIn.toNat) vdda.1 fs2 l }

/-! ## Digital pins -/

/-- The raw pin levels one control tick can read; `none` is a pin that is not wired. -/
structure DigitalInputPins where
  b1Disconnect : Option Bool := none
  b1Overvoltage : Option Bool := none
  b2Disconnect : Option Bool := none
  b2Overvoltage : Option Bool := none
  hardBraking : Option Bool := none
  combinedCondition : Option Bool := none
  faultConfirmed : Option Bool := none
  latchState : Option Bool := none
  linelockOut : Option Bool := none
  motorPower : Option Bool := none
  motorDisconnect : Option Bool := none
  /-- low = pressed -/
  readyToDriveSwitch : Option Bool := none
deriving DecidableEq

/-- Digital inputs with polarity applied: true = asserted. -/
structure DigitalInputs where
  b1Disconnect : Bool := false
  b1Overvoltage : Bool := false
  b2Disconnect : Bool := false
  b2Overvoltage : Bool := false
  hardBraking : Bool := false
  combinedCondition : Bool := false
  faultConfirmed : Bool := false
  latchState : Bool := false
  linelockOut : Bool := false
  motorPower : Bool := false
  motorDisconnect : Bool := false
  rtdPressed : Bool := false
deriving DecidableEq

/-- Output levels: true = pin high. -/
structure DigitalOutputs where
  linelockCtrl : Bool := false
  ampEnable : Bool := false
  bmsLed : Bool := true
  imdLed : Bool := true
  critStb : Bool := false
  dataStb : Bool := false
deriving DecidableEq

/-- `SafeOutputs`. -/
def safeOutputs : DigitalOutputs := {}

/-- `ReadPin`. -/
def readPin (pin : Option Bool) : Bool := pin.getD false

/-- `ReadDigitalInputs`. The RTD switch pulls its pin low; a missing pin reads as released. -/
def readDigitalInputs (p : DigitalInputPins) : DigitalInputs :=
  { b1Disconnect := readPin p.b1Disconnect
    b1Overvoltage := readPin p.b1Overvoltage
    b2Disconnect := readPin p.b2Disconnect
    b2Overvoltage := readPin p.b2Overvoltage
    hardBraking := readPin p.hardBraking
    combinedCondition := readPin p.combinedCondition
    faultConfirmed := readPin p.faultConfirmed
    latchState := readPin p.latchState
    linelockOut := readPin p.linelockOut
    motorPower := readPin p.motorPower
    motorDisconnect := readPin p.motorDisconnect
    rtdPressed := (p.readyToDriveSwitch.map (!·)).getD false }

end Lhre.Vcu
