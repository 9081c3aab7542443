import Lhre.Autonomy.Ekf
import Lhre.Theory.Kalman
import Lhre.Theory.ListPass
import Mathlib

/-!
# `Autonomy.Correctness.Estimator` — what the controller may rely on

The covariance of the filter is definite whatever the order of its callbacks, so that no correction divides by zero; each
correction takes the gain that leaves the least of it. The pose is seeded once: what came before is forgotten, but for the last
acceleration and the last time, and later seeds are ignored. What the node publishes is read by the controller as the pose of the
filter.

## Contents
- **Angles.** `wrapAngle_mem`, `quatToYaw_yawToQuat`.
- **One call of the filter.** `transition_isUnit`, `predict_posDef`, `noiseOf`, `josephForm_eq`, `gain_solves`, `updateScalar_posDef`.
- **The node.** `Sound`, `Sound.step`; `estimate_definite`, `correction_least`.
- **The seed.** `EkfEvent.isInitPose`, `Waiting`, `waiting_prefix`, `seeded_frame`; `seeded_once`, `controller_reads_estimate`.
-/

namespace Lhre.Autonomy.Ekf

open Matrix
open Real (pi_pos)

/-! ## Angles -/

theorem wrapAngle_mem (angle : ℝ) : wrapAngle realTrig angle ∈ Set.Ico (-Real.pi) Real.pi := by
  have hturn : (0 : ℝ) < (2 : ℕ) * Real.pi := by
    push_cast
    linarith [pi_pos]
  have hlo := Int.floor_le ((angle + Real.pi) / ((2 : ℕ) * Real.pi))
  have hhi := Int.lt_floor_add_one ((angle + Real.pi) / ((2 : ℕ) * Real.pi))
  rw [le_div_iff₀ hturn] at hlo
  rw [div_lt_iff₀ hturn] at hhi
  show _ ≤ _ ∧ _ < _
  simp only [wrapAngle, realTrig]
  push_cast at hlo hhi ⊢
  constructor <;> linarith

/-! ## One call of the filter -/

theorem transition_isUnit (trig : Trig ℝ) (yaw v dt : ℝ) : IsUnit (transition trig yaw v dt) := by
  rw [isUnit_iff_isUnit_det]
  have hupper : (transition trig yaw v dt).BlockTriangular id := by
    intro i j hij
    fin_cases i <;> fin_cases j <;> first | rfl | exact absurd hij (by decide)
  rw [det_of_isUpperTriangular hupper]
  simp [transition, Fin.prod_univ_five]

theorem noise_posSemidef (self : VehicleEkf ℝ) : self.noise.PosSemidef := by
  refine PosSemidef.diagonal fun i => ?_
  fin_cases i
  · exact sq_nonneg self.sigmaAccel
  · exact sq_nonneg self.sigmaYawAccel

theorem initialCovariance_posDef : (initialCovariance : Matrix (Fin 5) (Fin 5) ℝ).PosDef := by
  refine PosDef.diagonal fun i => ?_
  fin_cases i <;> norm_num

theorem predict_posDef (trig : Trig ℝ) {self : VehicleEkf ℝ} (hP : self.P.PosDef) (dt accelX : ℝ) :
    (self.predict trig dt accelX).P.PosDef := by
  unfold VehicleEkf.predict
  split
  · exact hP
  · exact Kalman.predict_posDef (transition_isUnit trig _ _ dt) _ (noise_posSemidef self) hP

/-- The noise of a scalar measurement. -/
def noiseOf (variance : ℝ) : Matrix (Fin 1) (Fin 1) ℝ := diagonal fun _ => variance

theorem noiseOf_posDef {variance : ℝ} (hv : 0 < variance) : (noiseOf variance).PosDef := PosDef.diagonal fun _ => hv

theorem noiseOf_isHermitian (variance : ℝ) : (noiseOf variance).IsHermitian := isHermitian_diagonal _

/-- The symmetric part that the source takes changes nothing. -/
theorem josephForm_eq {self : VehicleEkf ℝ} (hP : self.P.IsHermitian) (index : Fin 5) (variance : ℝ)
    (gain : Matrix (Fin 5) (Fin 1) ℝ) :
    self.josephForm index variance gain = Kalman.joseph (measured index) (noiseOf variance) gain self.P := by
  have hnoise : ∀ i j, (gain * gainᵀ) i j * variance = (gain * noiseOf variance * gainᵀ) i j := by
    intro i j
    simp only [mul_apply, Fin.sum_univ_one, noiseOf, diagonal_apply_eq]
    ring
  have hentry : ∀ i j,
      ((1 - gain * measured index) * self.P * (1 - gain * measured index)ᵀ : Matrix (Fin 5) (Fin 5) ℝ) i j +
        (gain * gainᵀ) i j * variance = Kalman.joseph (measured index) (noiseOf variance) gain self.P i j := by
    intro i j
    rw [hnoise]
    rfl
  have hsymm := ((Kalman.isHermitian_sandwich hP (1 - gain * measured index)).add
    (Kalman.isHermitian_sandwich (noiseOf_isHermitian variance) gain)).eq
  rw [conjTranspose_eq_transpose_of_trivial] at hsymm
  ext i j
  have hform : self.josephForm index variance gain i j = 1 / ((2 : ℕ) : ℝ) *
      (Kalman.joseph (measured index) (noiseOf variance) gain self.P i j +
        Kalman.joseph (measured index) (noiseOf variance) gain self.P j i) := by
    rw [← hentry i j, ← hentry j i]
    rfl
  have hji : Kalman.joseph (measured index) (noiseOf variance) gain self.P j i =
      Kalman.joseph (measured index) (noiseOf variance) gain self.P i j := congrFun (congrFun hsymm i) j
  rw [hform, hji]
  push_cast
  ring

theorem innovationVariance_eq (self : VehicleEkf ℝ) (index : Fin 5) (variance : ℝ) :
    self.innovationVariance index variance = Kalman.innovation (measured index) (noiseOf variance) self.P 0 0 := by
  simp [VehicleEkf.innovationVariance, Kalman.innovation, noiseOf]

theorem innovationVariance_pos {self : VehicleEkf ℝ} (hP : self.P.PosDef) (index : Fin 5) {variance : ℝ} (hv : 0 < variance) :
    0 < self.innovationVariance index variance := by
  rw [innovationVariance_eq]
  exact (Kalman.innovation_posDef _ (noiseOf_posDef hv) hP.posSemidef).diag_pos

/-- The gain of the source is the best one. -/
theorem gain_solves {self : VehicleEkf ℝ} (hP : self.P.PosDef) (index : Fin 5) {variance : ℝ} (hv : 0 < variance) :
    self.gain index variance * Kalman.innovation (measured index) (noiseOf variance) self.P = self.P * (measured index)ᵀ := by
  have hS := (innovationVariance_pos hP index hv).ne'
  ext i j
  rw [mul_apply, Fin.sum_univ_one, Fin.fin_one_eq_zero j, ← innovationVariance_eq]
  exact div_mul_cancel₀ _ hS

@[simp] theorem updateScalar_yaw (trig : Trig ℝ) (self : VehicleEkf ℝ) (index : Fin 5) (measurement variance : ℝ) :
    (self.updateScalar trig index measurement variance).x idxYaw =
      wrapAngle trig (self.x idxYaw + self.gain index variance idxYaw 0 * (measurement - self.x index)) := by
  simp [VehicleEkf.updateScalar]

theorem updateScalar_of_ne (trig : Trig ℝ) (self : VehicleEkf ℝ) (index : Fin 5) (measurement variance : ℝ) {i : Fin 5}
    (hi : i ≠ idxYaw) : (self.updateScalar trig index measurement variance).x i =
      self.x i + self.gain index variance i 0 * (measurement - self.x index) := by
  simp [VehicleEkf.updateScalar, Function.update_of_ne hi]

theorem updateScalar_posDef (trig : Trig ℝ) {self : VehicleEkf ℝ} (hP : self.P.PosDef) (index : Fin 5) (measurement : ℝ)
    {variance : ℝ} (hv : 0 < variance) : (self.updateScalar trig index measurement variance).P.PosDef := by
  show (self.josephForm index variance _).PosDef
  rw [josephForm_eq hP.isHermitian]
  exact Kalman.joseph_posDef _ (noiseOf_posDef hv) _ hP

/-! ## The node -/

/-- What holds of the filter between two callbacks. -/
structure Sound (ekf : VehicleEkf ℝ) : Prop where
  definite : ekf.P.PosDef
  wrapped : ekf.x idxYaw ∈ Set.Ico (-Real.pi) Real.pi

theorem sound_reset (ekf : VehicleEkf ℝ) (x y yaw : ℝ) : Sound (ekf.reset realTrig x y yaw) :=
  ⟨initialCovariance_posDef, wrapAngle_mem yaw⟩

theorem Sound.predict {ekf : VehicleEkf ℝ} (h : Sound ekf) (dt accelX : ℝ) : Sound (ekf.predict realTrig dt accelX) := by
  refine ⟨predict_posDef realTrig h.definite dt accelX, ?_⟩
  unfold VehicleEkf.predict
  split
  · exact h.wrapped
  · exact wrapAngle_mem _

theorem Sound.updateScalar {ekf : VehicleEkf ℝ} (h : Sound ekf) (index : Fin 5) (measurement : ℝ) {variance : ℝ}
    (hv : 0 < variance) : Sound (ekf.updateScalar realTrig index measurement variance) := by
  refine ⟨updateScalar_posDef realTrig h.definite index measurement hv, ?_⟩
  rw [updateScalar_yaw]
  exact wrapAngle_mem _

variable {cfg : EkfConfig}

/-- What a message says of its estimate is a positive variance for each part of it. -/
theorem Sound.odometry_pos {ekf : VehicleEkf ℝ} (h : Sound ekf) (now : ℤ) (i : Fin 5) : 0 < (odometry now ekf).covariance i :=
  h.definite.diag_pos

/-- **One callback.** -/
theorem Sound.step (hspeed : 0 < cfg.speedVariance) (hyawRate : 0 < cfg.yawRateVariance) {node next : EkfNode}
    {e : EkfEvent} {new : List Odometry} (h : Sound node.ekf) (hstep : node.step cfg e = some (next, new)) :
    Sound next.ekf ∧ ∀ o ∈ new, ∀ i, 0 < o.covariance i := by
  cases e with
  | initPose x y orientation =>
      simp only [EkfNode.step, Option.some.injEq, Prod.mk.injEq] at hstep
      obtain ⟨rfl, rfl⟩ := hstep
      refine ⟨?_, by simp⟩
      unfold EkfNode.initPoseCb
      split
      · exact sound_reset _ _ _ _
      · exact h
  | imu a w =>
      simp only [EkfNode.step, Option.some.injEq, Prod.mk.injEq] at hstep
      obtain ⟨rfl, rfl⟩ := hstep
      exact ⟨h.updateScalar idxYawRate w hyawRate, by simp⟩
  | wheel names velocity =>
      obtain ⟨node', hnode, heq⟩ := Option.map_eq_some_iff.mp hstep
      obtain ⟨rfl, rfl⟩ := Prod.mk.inj heq
      refine ⟨?_, by simp⟩
      unfold EkfNode.wheelCb at hnode
      split at hnode
      · cases hnode
      · rw [← Option.some.inj hnode]
        exact h
      · rw [← Option.some.inj hnode]
        exact h.updateScalar idxV _ hspeed
      · cases hnode
  | tick now =>
      have hpair := Option.some.inj hstep
      unfold EkfNode.tick at hpair
      split at hpair
      · obtain ⟨rfl, rfl⟩ := Prod.mk.inj hpair
        exact ⟨h, by simp⟩
      · obtain ⟨rfl, rfl⟩ := Prod.mk.inj hpair
        have hnext := h.predict (((now - node.lastPredict : ℤ) : ℝ) / (1000000000 : ℕ)) node.accelX
        refine ⟨hnext, fun o ho i => ?_⟩
        rw [List.mem_singleton.mp ho]
        exact hnext.odometry_pos now i

/-! ## Main results -/

/-- **In every run** the covariance is definite, the heading is wrapped, no correction divides by zero or less, and no message
carries a variance that is not positive. -/
theorem estimate_definite (hspeed : 0 < cfg.speedVariance) (hyawRate : 0 < cfg.yawRateVariance) {start : ℤ}
    {events : List EkfEvent} {node : EkfNode} {published : List Odometry} (hrun : run cfg start events = some (node, published)) :
    node.ekf.P.PosDef ∧ node.ekf.x idxYaw ∈ Set.Ico (-Real.pi) Real.pi ∧
      (∀ index variance, 0 < variance → 0 < node.ekf.innovationVariance index variance) ∧
      ∀ o ∈ published, ∀ i, 0 < o.covariance i := by
  have hinv : Sound node.ekf ∧ ∀ o ∈ published, ∀ i, 0 < o.covariance i := by
    refine ListPass.foldlM_invariant (P := fun st => Sound st.1.ekf ∧ ∀ o ∈ st.2, ∀ i, 0 < o.covariance i)
      ?_ ⟨sound_reset _ _ _ _, by simp⟩ hrun
    rintro ⟨node, published⟩ e st' - ⟨h, hpub⟩ hst
    obtain ⟨⟨next, new⟩, hstep, rfl⟩ := Option.map_eq_some_iff.mp hst
    obtain ⟨hnext, hnew⟩ := h.step hspeed hyawRate hstep
    refine ⟨hnext, fun o ho => ?_⟩
    rcases List.mem_append.mp ho with ho | ho
    · exact hpub o ho
    · exact hnew o ho
  exact ⟨hinv.1.definite, hinv.1.wrapped, fun index _ hv => innovationVariance_pos hinv.1.definite index hv, hinv.2⟩

/-- A node whose parameters are all one, with both rear wheels. -/
noncomputable def unitConfig : EkfConfig where
  wheelRadius := 1
  rearWheelNames := ["rl", "rr"]
  initX := 0
  initY := 0
  initYaw := 0
  initPoseTopic := ""
  sigmaAccel := 1
  sigmaYawAccel := 1
  speedVariance := 1
  yawRateVariance := 1

theorem estimate_definite_unit :
    ∃ node published, run unitConfig 0 [.imu 1 2, .wheel ["rl", "rr"] [3, 4], .tick 5] = some (node, published) ∧
      node.ekf.P.PosDef := by
  obtain ⟨st, hrun⟩ : ∃ st, run unitConfig 0 [.imu 1 2, .wheel ["rl", "rr"] [3, 4], .tick 5] = some st := ⟨_, rfl⟩
  exact ⟨st.1, st.2, hrun, (estimate_definite one_pos one_pos hrun).1⟩

theorem innovationVariance_measured (self : VehicleEkf ℝ) (index : Fin 5) (variance : ℝ) :
    self.innovationVariance index variance = self.P index index + variance := by
  simp [VehicleEkf.innovationVariance, measured, mul_apply]

theorem gain_measured (self : VehicleEkf ℝ) (index i : Fin 5) (variance : ℝ) :
    self.gain index variance i 0 = self.P i index / (self.P index index + variance) := by
  simp [VehicleEkf.gain, innovationVariance_measured, measured, mul_apply]

/-- **The correction of the source is the best there is.** Whatever gain another filter takes, it is left with a covariance at
least as large; no correction adds to the covariance; the measured part moves to the mean of what was known and what was measured,
each weighted by the variance of the other, and keeps the harmonic sum of the two. -/
theorem correction_least {self : VehicleEkf ℝ} (hP : self.P.PosDef) (index : Fin 5) (measurement : ℝ) {variance : ℝ}
    (hv : 0 < variance) :
    let after := self.updateScalar realTrig index measurement variance
    let prior := self.P index index
    (∀ gain, (self.josephForm index variance gain - after.P).PosSemidef) ∧
      (self.P - after.P).PosSemidef ∧
      after.P index index = prior * variance / (prior + variance) ∧
      (index ≠ idxYaw → after.x index = (variance * self.x index + prior * measurement) / (prior + variance)) := by
  intro after prior
  have hS : prior + variance ≠ 0 := (add_pos hP.diag_pos hv).ne'
  have hR := noiseOf_posDef hv
  have hK := gain_solves hP index hv
  have hafter : after.P = Kalman.joseph (measured index) (noiseOf variance) (self.gain index variance) self.P :=
    josephForm_eq hP.isHermitian index variance _
  refine ⟨fun gain => ?_, ?_, ?_, fun hne => ?_⟩
  · rw [hafter, josephForm_eq hP.isHermitian]
    exact Kalman.joseph_least hP.posSemidef hR hK gain
  · rw [hafter]
    exact Kalman.joseph_le hP.posSemidef hR hK
  · rw [hafter, Kalman.joseph_best hP.isHermitian hR.isHermitian hK, Matrix.sub_apply, mul_apply, Fin.sum_univ_one, mul_apply,
      Fin.sum_univ_one, transpose_apply, ← innovationVariance_eq, gain_measured, innovationVariance_measured]
    show prior - prior / (prior + variance) * (prior + variance) * (prior / (prior + variance)) = _
    field_simp
    ring
  · rw [updateScalar_of_ne realTrig self index measurement variance hne, gain_measured]
    show self.x index + prior / (prior + variance) * (measurement - self.x index) = _
    field_simp
    ring

theorem correction_least_unit :
    ((VehicleEkf.init 1 1 : VehicleEkf ℝ).updateScalar realTrig idxV 4 1).x idxV = (1 * 0 + 1 / 10 * 4) / (1 / 10 + 1) := by
  have hP : (VehicleEkf.init 1 1 : VehicleEkf ℝ).P.PosDef := initialCovariance_posDef
  have h := (correction_least hP idxV 4 one_pos).2.2.2 (by decide)
  simpa [VehicleEkf.init, initialCovariance, idxV] using h

section Seed

/-! ## The seed -/

/-- A message that may seed the pose. -/
def EkfEvent.isInitPose : EkfEvent → Bool
  | .initPose .. => true
  | _ => false

/-- The acceleration that an event brings. -/
def EkfEvent.accel? : EkfEvent → Option ℝ
  | .imu a _ => some a
  | _ => none

/-- The time that an event brings. -/
def EkfEvent.time? : EkfEvent → Option ℤ
  | .tick now => some now
  | _ => none

/-- The last of what some events bring. -/
def latest {α : Type} (f : EkfEvent → Option α) (d : α) (events : List EkfEvent) : α := (events.filterMap f).getLast?.getD d

variable {cfg : EkfConfig} {start : ℤ}

theorem latest_concat {α : Type} (f : EkfEvent → Option α) (d : α) (events : List EkfEvent) (e : EkfEvent) :
    latest f d (events ++ [e]) = (f e).getD (latest f d events) := by
  unfold latest
  rw [List.filterMap_append, List.getLast?_append]
  cases h : f e <;> simp [h]

theorem runFrom_append (st : EkfNode × List Odometry) (first second : List EkfEvent) :
    runFrom cfg st (first ++ second) = (runFrom cfg st first).bind fun st' => runFrom cfg st' second :=
  List.foldlM_append

theorem runFrom_cons (st : EkfNode × List Odometry) (e : EkfEvent) (events : List EkfEvent) :
    runFrom cfg st (e :: events) =
      (st.1.step cfg e).bind fun next => runFrom cfg (next.1, st.2 ++ next.2) events := by
  unfold runFrom
  rw [List.foldlM_cons]
  cases st.1.step cfg e <;> rfl

/-- A node that has not been seeded, after some events. -/
structure Waiting (cfg : EkfConfig) (start : ℤ) (before : List EkfEvent) (node : EkfNode) : Prop where
  awaiting : node.awaitingInit = true
  sigmaAccel : node.ekf.sigmaAccel = cfg.sigmaAccel
  sigmaYawAccel : node.ekf.sigmaYawAccel = cfg.sigmaYawAccel
  accelX : node.accelX = latest EkfEvent.accel? 0 before
  lastPredict : node.lastPredict = latest EkfEvent.time? start before

theorem Waiting.step {before : List EkfEvent} {node next : EkfNode} {e : EkfEvent} {new : List Odometry}
    (h : Waiting cfg start before node) (he : e.isInitPose = false) (hstep : node.step cfg e = some (next, new)) :
    Waiting cfg start (before ++ [e]) next ∧ new = [] := by
  cases e with
  | initPose x y orientation => cases he
  | imu a w =>
      simp only [EkfNode.step, Option.some.injEq, Prod.mk.injEq] at hstep
      obtain ⟨rfl, rfl⟩ := hstep
      refine ⟨⟨h.awaiting, h.sigmaAccel, h.sigmaYawAccel, ?_, ?_⟩, rfl⟩
      · rw [latest_concat]
        rfl
      · rw [latest_concat]
        exact h.lastPredict
  | wheel names velocity =>
      obtain ⟨node', hnode, heq⟩ := Option.map_eq_some_iff.mp hstep
      obtain ⟨rfl, rfl⟩ := Prod.mk.inj heq
      -- a wheel message changes the filter at most
      have hframe : node'.awaitingInit = node.awaitingInit ∧ node'.ekf.sigmaAccel = node.ekf.sigmaAccel ∧
          node'.ekf.sigmaYawAccel = node.ekf.sigmaYawAccel ∧ node'.accelX = node.accelX ∧
          node'.lastPredict = node.lastPredict := by
        unfold EkfNode.wheelCb at hnode
        split at hnode <;> cases hnode <;> exact ⟨rfl, rfl, rfl, rfl, rfl⟩
      obtain ⟨h1, h2, h3, h4, h5⟩ := hframe
      refine ⟨⟨h1.trans h.awaiting, h2.trans h.sigmaAccel, h3.trans h.sigmaYawAccel, ?_, ?_⟩, rfl⟩
      · rw [latest_concat, h4]
        exact h.accelX
      · rw [latest_concat, h5]
        exact h.lastPredict
  | tick now =>
      have hpair := Option.some.inj hstep
      unfold EkfNode.tick at hpair
      rw [if_pos h.awaiting] at hpair
      obtain ⟨rfl, rfl⟩ := Prod.mk.inj hpair
      refine ⟨⟨h.awaiting, h.sigmaAccel, h.sigmaYawAccel, ?_, ?_⟩, rfl⟩
      · rw [latest_concat]
        exact h.accelX
      · rw [latest_concat]
        rfl

/-- Until the seed nothing is published. -/
theorem waiting_prefix {events : List EkfEvent} (hpre : ∀ e ∈ events, e.isInitPose = false) {before : List EkfEvent}
    {node node' : EkfNode} {published : List Odometry} (h : Waiting cfg start before node)
    (hrun : runFrom cfg (node, []) events = some (node', published)) :
    Waiting cfg start (before ++ events) node' ∧ published = [] := by
  induction events generalizing before node with
  | nil =>
      obtain ⟨rfl, rfl⟩ := Prod.mk.inj (Option.some.inj hrun)
      rw [List.append_nil]
      exact ⟨h, rfl⟩
  | cons e events ih =>
      rw [runFrom_cons] at hrun
      obtain ⟨⟨next, new⟩, hstep, hrest⟩ := Option.bind_eq_some_iff.mp hrun
      obtain ⟨hnext, rfl⟩ := h.step (hpre e List.mem_cons_self) hstep
      have hall := ih (fun e he => hpre e (List.mem_cons_of_mem _ he)) hnext hrest
      rwa [List.append_assoc] at hall

theorem step_seeded {node next : EkfNode} {e : EkfEvent} {new : List Odometry} (hnode : node.awaitingInit = false)
    (hstep : node.step cfg e = some (next, new)) : next.awaitingInit = false := by
  cases e with
  | initPose x y orientation =>
      simp only [EkfNode.step, EkfNode.initPoseCb, hnode, Option.some.injEq, Prod.mk.injEq] at hstep
      rw [← hstep.1]
      exact hnode
  | imu a w =>
      simp only [EkfNode.step, Option.some.injEq, Prod.mk.injEq] at hstep
      rw [← hstep.1]
      exact hnode
  | wheel names velocity =>
      obtain ⟨node', hnode', heq⟩ := Option.map_eq_some_iff.mp hstep
      rw [← (Prod.mk.inj heq).1]
      unfold EkfNode.wheelCb at hnode'
      split at hnode' <;> cases hnode' <;> exact hnode
  | tick now =>
      have hpair := Option.some.inj hstep
      unfold EkfNode.tick at hpair
      rw [hnode] at hpair
      rw [← (Prod.mk.inj hpair).1]

/-- A seeded node ignores later seeds. -/
theorem seeded_frame {node : EkfNode} (hnode : node.awaitingInit = false) (published : List Odometry) (events : List EkfEvent) :
    runFrom cfg (node, published) events = runFrom cfg (node, published) (events.filter fun e => !e.isInitPose) := by
  induction events generalizing node published with
  | nil => rfl
  | cons e events ih =>
      by_cases he : e.isInitPose = true
      · rw [List.filter_cons_of_neg (by simp [he]), ← ih hnode, runFrom_cons]
        cases e with
        | initPose x y orientation => simp [EkfNode.step, EkfNode.initPoseCb, hnode]
        | imu a w => cases he
        | wheel names velocity => cases he
        | tick now => cases he
      · rw [List.filter_cons_of_pos (by simp [he]), runFrom_cons, runFrom_cons]
        cases hstep : node.step cfg e with
        | none => rfl
        | some next => exact ih (step_seeded hnode hstep) _

/-! ## The quaternion -/

/-- **The heading of an orientation that was made of one** is that heading, but that half a turn to the right is one to the
left. -/
theorem quatToYaw_yawToQuat {yaw : ℝ} (hyaw : yaw ∈ Set.Ico (-Real.pi) Real.pi) :
    PurePursuit.quatToYaw (yawToQuat yaw) = if yaw = -Real.pi then Real.pi else yaw := by
  have hdouble : yaw = 2 * (yaw / 2) := by ring
  have hcos : 1 - 2 * (Real.sin (yaw / 2) * Real.sin (yaw / 2)) = Real.cos yaw := by
    rw [hdouble, Real.cos_two_mul, ← hdouble]
    have := Real.sin_sq_add_cos_sq (yaw / 2)
    nlinarith
  have hsin : 2 * (Real.cos (yaw / 2) * Real.sin (yaw / 2)) = Real.sin yaw := by
    rw [hdouble, Real.sin_two_mul, ← hdouble]
    ring
  have harg : PurePursuit.quatToYaw (yawToQuat yaw) = Complex.arg (Complex.cos yaw + Complex.sin yaw * Complex.I) := by
    simp only [PurePursuit.quatToYaw, Chaining.atan2, yawToQuat]
    push_cast
    rw [zero_mul, add_zero, zero_add, hsin, hcos]
    congr 1
    apply Complex.ext <;> simp [Complex.cos_ofReal_re, Complex.sin_ofReal_re]
  rw [harg]
  split
  case isTrue hedge =>
    rw [hedge]
    simp
  case isFalse hedge =>
    have hmem : yaw ∈ Set.Ioc (-Real.pi) Real.pi := ⟨lt_of_le_of_ne hyaw.1 (Ne.symm hedge), hyaw.2.le⟩
    exact Complex.arg_cos_add_sin_mul_I hmem

/-! ## Main results -/

/-- **The pose is seeded once.** A node that waits for its pose publishes nothing before the first one; from there it is a node
that starts at that pose, with the last acceleration and the last time seen, and every later seed might as well not have come. -/
theorem seeded_once (htopic : cfg.initPoseTopic ≠ "") {before after : List EkfEvent}
    (hbefore : ∀ e ∈ before, e.isInitPose = false) (hok : (run cfg start before).isSome) (x y : ℝ)
    (orientation : PurePursuit.Quaternion) :
    run cfg start (before ++ .initPose x y orientation :: after) =
      runFrom cfg
        ({ ekf := (VehicleEkf.init cfg.sigmaAccel cfg.sigmaYawAccel).reset realTrig x y (PurePursuit.quatToYaw orientation)
           accelX := latest EkfEvent.accel? 0 before
           lastPredict := latest EkfEvent.time? start before
           awaitingInit := false }, [])
        (after.filter fun e => !e.isInitPose) := by
  obtain ⟨⟨node, published⟩, hrun⟩ := Option.isSome_iff_exists.mp hok
  have hinit : Waiting cfg start [] (EkfNode.init cfg start) := ⟨by simp [EkfNode.init, htopic], rfl, rfl, rfl, rfl⟩
  obtain ⟨hwait, rfl⟩ := waiting_prefix hbefore hinit hrun
  rw [List.nil_append] at hwait
  have hseed : node.initPoseCb x y orientation =
      { ekf := (VehicleEkf.init cfg.sigmaAccel cfg.sigmaYawAccel).reset realTrig x y (PurePursuit.quatToYaw orientation)
        accelX := latest EkfEvent.accel? 0 before
        lastPredict := latest EkfEvent.time? start before
        awaitingInit := false } := by
    unfold EkfNode.initPoseCb
    rw [if_pos hwait.awaiting, ← hwait.accelX, ← hwait.lastPredict, ← hwait.sigmaAccel, ← hwait.sigmaYawAccel]
    rfl
  show runFrom cfg _ _ = _
  rw [runFrom_append]
  have hrun' : runFrom cfg (EkfNode.init cfg start, []) before = some (node, []) := hrun
  rw [hrun', Option.bind_some, runFrom_cons]
  show runFrom cfg (node.initPoseCb x y orientation, []) after = _
  rw [hseed]
  exact seeded_frame rfl [] after

/-- The same node, with a topic that seeds its pose. -/
noncomputable def seededConfig : EkfConfig := { unitConfig with initPoseTopic := "/ground_truth" }

theorem seeded_once_unit :
    run seededConfig 0 ([.imu 3 4, .tick 5] ++ .initPose 1 2 (yawToQuat 0) :: [.initPose 7 7 (yawToQuat 1), .tick 9]) =
      runFrom seededConfig
        ({ ekf := (VehicleEkf.init 1 1).reset realTrig 1 2 (PurePursuit.quatToYaw (yawToQuat 0))
           accelX := 3
           lastPredict := 5
           awaitingInit := false }, []) [.tick 9] :=
  seeded_once (by simp [seededConfig]) (by simp [EkfEvent.isInitPose]) rfl 1 2 (yawToQuat 0)

/-- **What the controller reads is what the filter holds.** After any run, the message of the next tick, when it reaches the
controller, sets its position to that of the filter and its heading to that of the filter, up to a full turn. -/
theorem controller_reads_estimate (hspeed : 0 < cfg.speedVariance) (hyawRate : 0 < cfg.yawRateVariance)
    {events : List EkfEvent} {now : ℤ} {node : EkfNode} {published : List Odometry}
    (hrun : run cfg start (events ++ [.tick now]) = some (node, published)) (hseeded : node.awaitingInit = false)
    (st : PurePursuit.Pursuit) :
    ∃ o, published.getLast? = some o ∧ o.stamp = now ∧
      (PurePursuit.odomCb (o.x, o.y) o.orientation st).x = node.ekf.x idxX ∧
      (PurePursuit.odomCb (o.x, o.y) o.orientation st).y = node.ekf.x idxY ∧
      (PurePursuit.odomCb (o.x, o.y) o.orientation st).yaw =
        if node.ekf.x idxYaw = -Real.pi then Real.pi else node.ekf.x idxYaw := by
  have hwrapped := (estimate_definite hspeed hyawRate hrun).2.1
  rw [run, runFrom_append] at hrun
  obtain ⟨⟨prior, old⟩, -, hlast⟩ := Option.bind_eq_some_iff.mp hrun
  have hpair : ((prior.tick now).1, old ++ (prior.tick now).2) = (node, published) := Option.some.inj hlast
  obtain ⟨rfl, rfl⟩ := Prod.mk.inj hpair
  unfold EkfNode.tick at hseeded hwrapped ⊢
  split at hseeded
  case isTrue hwait => exact absurd hwait (by rw [hseeded]; decide)
  case isFalse hwait =>
    rw [if_neg hwait] at hwrapped ⊢
    refine ⟨_, List.getLast?_concat, rfl, rfl, rfl, ?_⟩
    exact quatToYaw_yawToQuat hwrapped

theorem controller_reads_estimate_unit :
    ∃ node published o, run unitConfig 0 ([.imu 1 2] ++ [.tick 5]) = some (node, published) ∧ published.getLast? = some o ∧
      (PurePursuit.odomCb (o.x, o.y) o.orientation ⟨[], 0, 0, 0, false, 0, 0, "", false, none⟩).x = node.ekf.x idxX := by
  obtain ⟨st, hrun⟩ : ∃ st, run unitConfig 0 ([.imu 1 2] ++ [.tick 5]) = some st := ⟨_, rfl⟩
  have hseeded : st.1.awaitingInit = false := by
    rw [← Option.some.inj hrun]
    simp [unitConfig, EkfNode.init, EkfNode.imuCb, EkfNode.tick]
  obtain ⟨o, hlast, -, hx, -⟩ :=
    controller_reads_estimate one_pos one_pos hrun hseeded ⟨[], 0, 0, 0, false, 0, 0, "", false, none⟩
  exact ⟨st.1, st.2, o, hrun, hlast, hx⟩

end Seed

end Lhre.Autonomy.Ekf
