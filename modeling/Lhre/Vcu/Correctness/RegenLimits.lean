import Lhre.Theory.Trace
import Lhre.Vcu.Regen

/-!
# `Correctness.RegenLimits` — what brake regeneration keeps to

A negative torque is the end of a history: the request began with both rear pressures released, the line lock has been
closed for its delay on ticks that were all eligible, and no charge-current cut is latched. Its size is bounded by the
torque limit and by the charge current the pack can take.

## Contents
- **One update.** `Updated`, `update_cases`: what an update can do.
- **The limits.** `torque_bounds`, `torque_power`.
- **Runs.** `regenAt`; `closed_run` (the time the line lock has been closed), `request_began`, `cut_holds`.
- **The law.** `regen_keeps_limits`.
-/

namespace Lhre.Vcu

open Longhorn Trace

/-! ## One update -/

/-- The update is eligible, and there is voltage headroom. -/
def BrakeRegen.Ready (b : BrakeRegen) (x : RegenInputs) (p : RegenParams) : Prop :=
  x.eligible (b.cutLatch x p) p = true ∧ 0 < x.headroom p

/-- Both rear pressures are at or below the limit to engage. -/
def RegenInputs.Released (x : RegenInputs) (p : RegenParams) : Prop :=
  x.rearPrePsi ≤ p.engageMaxPsi ∧ x.rearPostPsi ≤ p.engageMaxPsi

/-- What an update does. -/
inductive Updated (b : BrakeRegen) (x : RegenInputs) (p : RegenParams) (b' : BrakeRegen) (out : RegenResult) : Prop
  | idle (hready : ¬ b.Ready x p) (hrequested : b'.requested = false) (hclosed : b'.closedMs = 0)
      (htorque : out.torqueNm = 0)
  | waits (hbefore : b.requested = false) (hrequested : b'.requested = false) (hclosed : b'.closedMs = b.closedMs)
      (htorque : out.torqueNm = 0)
  | opens (hready : b.Ready x p) (hopen : x.linelockOut = false) (hrelease : b.requested = false → x.Released p)
      (hclosed : b'.closedMs = 0) (htorque : out.torqueNm = 0)
  | closes (hready : b.Ready x p) (hclose : x.linelockOut = true) (hrelease : b.requested = false → x.Released p)
      (hrequested : b'.requested = true) (hrequest : out.linelockRequest = true)
      (hclosed : b'.closedMs.toNat = min (b.closedMs.toNat + x.dtMs.toNat) p.closeDelayMs.toNat)
      (htorque : out.torqueNm = if b'.closedMs < p.closeDelayMs then 0 else x.torque p)

variable {b : BrakeRegen} {x : RegenInputs} {p : RegenParams}

/-- The close timer saturates at its delay; neither the subtraction nor the sum wraps. -/
theorem closedMs_step (closedMs delay dt : U32) :
    let start := if delay < closedMs then delay else closedMs
    (start + (if dt < delay - start then dt else delay - start)).toNat = min (closedMs.toNat + dt.toNat) delay.toNat := by
  intro start
  have hstart : start.toNat = min closedMs.toNat delay.toNat := by
    show (if delay < closedMs then delay else closedMs).toNat = _
    split
    · rename_i h
      have := BitVec.lt_def.mp h
      omega
    · rename_i h
      have := mt BitVec.lt_def.mpr h
      omega
  have hremaining : (delay - start).toNat = delay.toNat - start.toNat := by
    have := delay.isLt
    have := start.isLt
    rw [BitVec.toNat_sub]
    omega
  split
  · rename_i h
    have := BitVec.lt_def.mp h
    have := delay.isLt
    rw [BitVec.toNat_add]
    omega
  · rename_i h
    have := mt BitVec.lt_def.mpr h
    have := delay.isLt
    rw [BitVec.toNat_add]
    omega

/-- **What an update can do.** -/
theorem update_cases : Updated b x p (b.update x p).1 (b.update x p).2 := by
  unfold BrakeRegen.update
  dsimp only
  split
  · rename_i h
    -- the cases in the order of `update`: not ready, waiting for a release, line lock open, closed
    refine .idle (fun hready => ?_) rfl rfl rfl
    obtain ⟨heligible, hroom⟩ := hready
    rw [heligible] at h
    simp only [Bool.not_true, Bool.false_or, decide_eq_true_eq] at h
    exact absurd hroom (not_lt.mpr h)
  · rename_i h
    have hready : b.Ready x p := by
      simp only [Bool.or_eq_true, Bool.not_eq_true', decide_eq_true_eq, not_or, Bool.not_eq_false, not_le] at h
      exact h
    split
    · rename_i hwait
      simp only [Bool.and_eq_true, Bool.not_eq_true'] at hwait
      exact .waits hwait.1 hwait.1 rfl rfl
    · rename_i hwait
      have hrelease : b.requested = false → x.Released p := by
        intro hbefore
        simpa [hbefore, RegenInputs.Released] using hwait
      split
      · rename_i hopen
        exact .opens hready (by simpa using hopen) hrelease rfl rfl
      · rename_i hclose
        exact .closes hready (by simpa using hclose) hrelease rfl rfl (closedMs_step _ _ _) rfl

theorem update_currentCut : (b.update x p).1.currentCut = b.cutLatch x p := by
  unfold BrakeRegen.update
  dsimp only
  repeat' split
  all_goals rfl

/-! ## The limits -/

/-- The parameters of an eligible update are valid. -/
theorem eligible_valid {cut : Bool} (h : x.eligible cut p = true) :
    0 < p.packResistanceOhm ∧ 0 < p.maxCurrentA ∧ 0 < p.maxTorqueNm ∧ 0 < p.minMotorRpm ∧ p.minMotorRpm ≤ x.motorRpm ∧
      0 < x.dcV ∧ cut = false ∧ 0 < p.closeDelayMs := by
  simp only [RegenInputs.eligible, RegenParams.valid, Bool.and_eq_true, decide_eq_true_eq, Bool.not_eq_true'] at h
  tauto

/-- The charge current an update allows. -/
def RegenInputs.chargeCurrent (x : RegenInputs) (p : RegenParams) : ℚ :=
  clamp (x.headroom p / p.packResistanceOhm) 0 p.maxCurrentA

/-- The motor speed in rad/s, as the update converts it. -/
def RegenInputs.omega (x : RegenInputs) : ℚ := x.motorRpm * 0.104719755

/-- **The size of the torque.** It brakes, by no more than the limit, and no harder than the charge current allows. -/
structure WithinLimits (x : RegenInputs) (p : RegenParams) (torque : ℚ) : Prop where
  brakes : torque ≤ 0
  bounded : -p.maxTorqueNm ≤ torque
  power : ∃ current, current ≤ p.maxCurrentA ∧ current * p.packResistanceOhm ≤ x.headroom p ∧
    -torque * x.omega ≤ x.dcV * current

/-- The torque of a valid update: what the brake pressure asks for, up to the charge power and the limit. -/
theorem torque_eq (homega : 0 < x.omega) : x.torque p =
    0 - clamp ((x.rearPrePsi - x.rearPostPsi) * p.nmPerPsi) 0
      (min (x.dcV * x.chargeCurrent p / x.omega) p.maxTorqueNm) := by
  unfold RegenInputs.torque
  rw [min_def_lt]
  exact if_neg (not_le.mpr homega)

/-- The charge current is no more than what brings the pack to its headroom. -/
theorem chargeCurrent_le (hohm : 0 < p.packResistanceOhm) (hroom : 0 < x.headroom p) :
    x.chargeCurrent p * p.packResistanceOhm ≤ x.headroom p := by
  refine (le_div_iff₀ hohm).mp ?_
  unfold RegenInputs.chargeCurrent clamp
  split
  · rename_i hneg
    exact absurd (div_pos hroom hohm) (not_lt.mpr hneg.le)
  · split
    · rename_i hover
      exact hover.le
    · exact le_rfl

theorem torque_within (h : b.Ready x p) : WithinLimits x p (x.torque p) := by
  obtain ⟨heligible, hroom⟩ := h
  obtain ⟨hohm, hcurrent, hmax, hrpm, hspeed, hdc, -, -⟩ := eligible_valid heligible
  have homega : 0 < x.omega := by
    unfold RegenInputs.omega
    have : 0 < x.motorRpm := hrpm.trans_le hspeed
    positivity
  have hcharge : 0 ≤ x.chargeCurrent p := le_clamp hcurrent.le
  have hpack : 0 ≤ x.dcV * x.chargeCurrent p / x.omega := by positivity
  -- the cap is not negative, so the clamp is between zero and it
  have hcap : 0 ≤ min (x.dcV * x.chargeCurrent p / x.omega) p.maxTorqueNm := le_min hpack hmax.le
  have hlow := @le_clamp ((x.rearPrePsi - x.rearPostPsi) * p.nmPerPsi) 0 _ hcap
  have hhigh := @clamp_le ((x.rearPrePsi - x.rearPostPsi) * p.nmPerPsi) 0 _ hcap
  rw [torque_eq homega]
  refine ⟨?_, ?_, x.chargeCurrent p, clamp_le hcurrent.le, chargeCurrent_le hohm hroom, ?_⟩
  · linarith
  · have hlimit := min_le_right (x.dcV * x.chargeCurrent p / x.omega) p.maxTorqueNm
    linarith
  · have hpower := min_le_left (x.dcV * x.chargeCurrent p / x.omega) p.maxTorqueNm
    rw [← le_div_iff₀ homega]
    linarith

/-! ## Runs -/

variable (p) (ρ : ℕ → RegenInputs)

/-- The state after the first `n` updates. -/
def regenAt (n : ℕ) : BrakeRegen := stateAt (fun b x => (b.update x p).1) {} ρ n

/-- The result of update `n`. -/
def regenOut (n : ℕ) : RegenResult := ((regenAt p ρ n).update (ρ n) p).2

/-- An update with the line lock closed, eligible and with headroom, that keeps the request up. -/
def LineClosed (k : ℕ) : Prop :=
  (ρ k).linelockOut = true ∧ (regenAt p ρ k).Ready (ρ k) p ∧ (regenAt p ρ (k + 1)).requested = true

/-- A charge-current cut at an update. -/
def CutAt (k : ℕ) : Prop :=
  p.enabled = true ∧ (ρ k).feedbackFresh = true ∧ (ρ k).dcA < -p.hardCutCurrentA

/-- An update that may lift a charge-current cut. -/
def LiftsCut (k : ℕ) : Prop := (ρ k).rearPrePsi ≤ p.currentCutReleasePsi ∧ -p.maxCurrentA ≤ (ρ k).dcA

section Run

variable {p ρ}

theorem regenAt_succ (n : ℕ) : regenAt p ρ (n + 1) = ((regenAt p ρ n).update (ρ n) p).1 := rfl

theorem regen_cases (n : ℕ) : Updated (regenAt p ρ n) (ρ n) p (regenAt p ρ (n + 1)) (regenOut p ρ n) := update_cases

/-- Without a request the timer is at zero. -/
theorem closed_of_not_requested (n : ℕ) : (regenAt p ρ n).requested = false → (regenAt p ρ n).closedMs = 0 := by
  induction n with
  | zero => exact fun _ => rfl
  | succ n ih =>
      intro h
      cases @regen_cases p ρ n with
      | idle _ _ hclosed _ => exact hclosed
      | waits hbefore _ hclosed _ => exact hclosed.trans (ih hbefore)
      | opens _ _ _ hclosed _ => exact hclosed
      | closes _ _ _ hrequested _ _ _ => exact absurd (hrequested.symm.trans h) (by simp)

/-- **The timer never passes its delay.** -/
theorem closed_le (n : ℕ) : (regenAt p ρ n).closedMs.toNat ≤ p.closeDelayMs.toNat := by
  induction n with
  | zero => exact Nat.zero_le _
  | succ n ih =>
      cases @regen_cases p ρ n with
      | idle _ _ hclosed _ => simp [hclosed]
      | waits _ _ hclosed _ => exact hclosed ▸ ih
      | opens _ _ _ hclosed _ => simp [hclosed]
      | closes _ _ _ _ _ hclosed _ => exact hclosed ▸ Nat.min_le_right _ _

/-- **What the timer counts:** updates in a row with the line lock closed, whose time adds up to it. -/
theorem closed_run (n : ℕ) :
    ∃ j, j ≤ n ∧ (∀ k, j ≤ k → k < n → LineClosed p ρ k) ∧
      (regenAt p ρ n).closedMs.toNat ≤ ∑ k ∈ Finset.Ico j n, (ρ k).dtMs.toNat := by
  induction n with
  | zero => exact ⟨0, le_rfl, fun k _ hk => absurd hk (Nat.not_lt_zero k), Nat.zero_le _⟩
  | succ n ih =>
      have hfresh (hclosed : (regenAt p ρ (n + 1)).closedMs = 0) :
          ∃ j, j ≤ n + 1 ∧ (∀ k, j ≤ k → k < n + 1 → LineClosed p ρ k) ∧
            (regenAt p ρ (n + 1)).closedMs.toNat ≤ ∑ k ∈ Finset.Ico j (n + 1), (ρ k).dtMs.toNat :=
        ⟨n + 1, le_rfl, fun k hk hkn => by omega, by simp [hclosed]⟩
      cases @regen_cases p ρ n with
      | idle _ _ hclosed _ => exact hfresh hclosed
      | waits hbefore _ hclosed _ => exact hfresh (hclosed.trans (closed_of_not_requested n hbefore))
      | opens _ _ _ hclosed _ => exact hfresh hclosed
      | closes hready hclose _ hrequested _ hclosed _ =>
          obtain ⟨j, hj, hrun, hsum⟩ := ih
          refine ⟨j, by omega, ?_, ?_⟩
          · intro k hk hkn
            rcases Nat.lt_or_eq_of_le (Nat.le_of_lt_succ hkn) with hlt | rfl
            · exact hrun k hk hlt
            · exact ⟨hclose, hready, hrequested⟩
          · rw [Finset.sum_Ico_succ_top hj, hclosed]
            exact (Nat.min_le_left _ _).trans (by omega)

/-- **A request began** with both pressures released, and has been up since. -/
theorem request_began (n : ℕ) (h : (regenAt p ρ n).requested = true) :
    ∃ i, i < n ∧ (regenAt p ρ i).requested = false ∧ (ρ i).Released p ∧
      ∀ k, i < k → k ≤ n → (regenAt p ρ k).requested = true := by
  obtain ⟨i, hi, hbefore, hsince⟩ :=
    exists_last_rise (P := fun n => (regenAt p ρ n).requested = true) (fun h => nomatch h) h
  rw [Bool.not_eq_true] at hbefore
  refine ⟨i, hi, hbefore, ?_, hsince⟩
  have hafter := hsince (i + 1) (Nat.lt_succ_self i) hi
  cases @regen_cases p ρ i with
  | idle _ hrequested _ _ => exact absurd (hrequested.symm.trans hafter) (by simp)
  | waits _ hrequested _ _ => exact absurd (hrequested.symm.trans hafter) (by simp)
  | opens _ _ hrelease _ _ => exact hrelease hbefore
  | closes _ _ hrelease _ _ _ _ => exact hrelease hbefore

/-- The cut after an update. -/
theorem currentCut_succ (n : ℕ) : (regenAt p ρ (n + 1)).currentCut = true ↔
    CutAt p ρ n ∨ ((regenAt p ρ n).currentCut = true ∧ ¬ LiftsCut p ρ n) := by
  rw [regenAt_succ, update_currentCut]
  simp [BrakeRegen.cutLatch, CutAt, LiftsCut, and_assoc, imp_iff_not_or]

/-- While a cut is latched, there is no torque. -/
theorem torque_of_cut {n : ℕ} (h : (regenAt p ρ (n + 1)).currentCut = true) : (regenOut p ρ n).torqueNm = 0 := by
  have hnot : ¬ (regenAt p ρ n).Ready (ρ n) p := by
    rintro ⟨heligible, -⟩
    obtain ⟨-, -, -, -, -, -, hcut, -⟩ := eligible_valid heligible
    rw [regenAt_succ, update_currentCut] at h
    exact absurd (hcut.symm.trans h) (by simp)
  cases @regen_cases p ρ n with
  | idle _ _ _ htorque => exact htorque
  | waits _ _ _ htorque => exact htorque
  | opens _ _ _ _ htorque => exact htorque
  | closes hready _ _ _ _ _ _ => exact absurd hready hnot

/-- **A charge-current cut holds** until an update may lift it. -/
theorem cut_holds {m n : ℕ} (hmn : m ≤ n) (hcut : CutAt p ρ m) (hno : ∀ k, m < k → k ≤ n → ¬ LiftsCut p ρ k) :
    (regenOut p ρ n).torqueNm = 0 := by
  refine torque_of_cut ?_
  refine holds_until (P := fun n => (regenAt p ρ n).currentCut = true) (R := LiftsCut p ρ)
    (fun k hk hlift => (currentCut_succ k).mpr (Or.inr ⟨hk, hlift⟩)) (Nat.succ_le_succ hmn)
    ((currentCut_succ m).mpr (Or.inl hcut)) ?_
  exact fun k hk hkn => hno k hk (by omega)

end Run

/-! ## The law -/

/-- What holds of brake regeneration over a run. -/
structure RegenLaw : Prop where
  /-- The torque brakes, or there is none. -/
  brakes : ∀ n, (regenOut p ρ n).torqueNm ≤ 0 ∧ -max p.maxTorqueNm 0 ≤ (regenOut p ρ n).torqueNm
  /-- A torque keeps to the limit and to the charge current. -/
  limits : ∀ n, (regenOut p ρ n).torqueNm < 0 → WithinLimits (ρ n) p (regenOut p ρ n).torqueNm
  /-- A torque means that the line lock is requested and has been closed for its delay, in a row of eligible updates with
      headroom, and that the request began, no later than that, with both rear pressures released. -/
  behind : ∀ n, (regenOut p ρ n).torqueNm < 0 →
    (regenOut p ρ n).linelockRequest = true ∧
      ∃ i j, i ≤ j ∧ j ≤ n ∧ (∀ k, j ≤ k → k ≤ n → LineClosed p ρ k) ∧
        p.closeDelayMs.toNat ≤ ∑ k ∈ Finset.Icc j n, (ρ k).dtMs.toNat ∧
        (regenAt p ρ i).requested = false ∧ (ρ i).Released p ∧
        ∀ k, i < k → k ≤ n + 1 → (regenAt p ρ k).requested = true
  /-- After a charge-current cut there is no torque until an update may lift it. -/
  cut : ∀ m n, m ≤ n → CutAt p ρ m → (∀ k, m < k → k ≤ n → ¬ LiftsCut p ρ k) → (regenOut p ρ n).torqueNm = 0
  /-- The timer counts up to its delay and no further, or starts again. -/
  timer : ∀ n, (regenAt p ρ (n + 1)).closedMs.toNat = 0 ∨
    (regenAt p ρ (n + 1)).closedMs.toNat =
      min ((regenAt p ρ n).closedMs.toNat + (ρ n).dtMs.toNat) p.closeDelayMs.toNat

/-- **Regen stays inside its limits and behind the line lock.** -/
theorem regen_keeps_limits : RegenLaw p ρ where
  brakes n := by
    have hzero : -max p.maxTorqueNm 0 ≤ 0 := neg_nonpos.mpr (le_max_right _ _)
    cases @regen_cases p ρ n with
    | idle _ _ _ htorque => exact ⟨htorque.le, htorque ▸ hzero⟩
    | waits _ _ _ htorque => exact ⟨htorque.le, htorque ▸ hzero⟩
    | opens _ _ _ _ htorque => exact ⟨htorque.le, htorque ▸ hzero⟩
    | closes hready _ _ _ _ _ htorque =>
        rw [htorque]
        split
        · exact ⟨le_rfl, hzero⟩
        · obtain ⟨hbrakes, hbounded, -⟩ := torque_within hready
          have := le_max_left p.maxTorqueNm 0
          exact ⟨hbrakes, by linarith⟩
  limits n hneg := by
    cases @regen_cases p ρ n with
    | idle _ _ _ htorque => exact absurd htorque hneg.ne
    | waits _ _ _ htorque => exact absurd htorque hneg.ne
    | opens _ _ _ _ htorque => exact absurd htorque hneg.ne
    | closes hready _ _ _ _ _ htorque =>
        rw [htorque] at hneg ⊢
        split at hneg
        · exact absurd hneg (lt_irrefl 0)
        · rename_i hfull
          rw [if_neg hfull]
          exact torque_within hready
  behind n hneg := by
    cases @regen_cases p ρ n with
    | idle _ _ _ htorque => exact absurd htorque hneg.ne
    | waits _ _ _ htorque => exact absurd htorque hneg.ne
    | opens _ _ _ _ htorque => exact absurd htorque hneg.ne
    | closes hready hclose _ hrequested hrequest _ htorque =>
        refine ⟨hrequest, ?_⟩
        have hfull : p.closeDelayMs.toNat ≤ (regenAt p ρ (n + 1)).closedMs.toNat := by
          rw [htorque] at hneg
          split at hneg
          · exact absurd hneg (lt_irrefl 0)
          · rename_i hfull
            exact not_lt.mp (mt BitVec.lt_def.mpr hfull)
        -- the lock has been closed since `j`, and the request up since `i`, which is no later
        obtain ⟨j, hj, hrun, hsum⟩ := @closed_run p ρ (n + 1)
        obtain ⟨hohm, -, -, -, -, -, -, hdelay⟩ := eligible_valid hready.1
        have hjn : j ≤ n := by
          by_contra hlt
          have hempty : j = n + 1 := by omega
          rw [hempty, Finset.Ico_self, Finset.sum_empty] at hsum
          have := BitVec.lt_def.mp hdelay
          simp only [BitVec.ofNat_eq_ofNat, BitVec.toNat_ofNat, Nat.zero_mod] at this
          omega
        obtain ⟨i, hi, hbefore, hrelease, hsince⟩ := request_began (n + 1) hrequested
        have hij : i ≤ j := by
          by_contra hlt
          obtain ⟨k, rfl⟩ : ∃ k, i = k + 1 := ⟨i - 1, by omega⟩
          have := (hrun k (by omega) (by omega)).2.2
          exact absurd (hbefore.symm.trans this) (by simp)
        refine ⟨i, j, hij, hjn, fun k hk hkn => hrun k hk (by omega), ?_, hbefore, hrelease, hsince⟩
        exact hfull.trans hsum
  cut _ _ hmn hcut hno := cut_holds hmn hcut hno
  timer n := by
    cases @regen_cases p ρ n with
    | idle _ _ hclosed _ => exact Or.inl (by simp [hclosed])
    | waits hbefore _ hclosed _ => exact Or.inl (by simp [hclosed, closed_of_not_requested n hbefore])
    | opens _ _ _ hclosed _ => exact Or.inl (by simp [hclosed])
    | closes _ _ _ _ _ hclosed _ => exact Or.inr hclosed

/-- **Without torque the limits say nothing:** at a pack voltage above the limit no charge current has room. -/
theorem not_within_limits_always :
    ¬ ∀ (p : RegenParams) (ρ : ℕ → RegenInputs) (n : ℕ), WithinLimits (ρ n) p (regenOut p ρ n).torqueNm := by
  intro hall
  obtain ⟨-, -, current, -, hroom, -⟩ := hall {} (fun _ => { dcV := 600 }) 0
  norm_num [RegenInputs.headroom] at hroom

end Lhre.Vcu
