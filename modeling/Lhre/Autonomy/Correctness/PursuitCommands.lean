import Lhre.Autonomy.Pursuit
import Mathlib.Data.List.GetD

/-!
# `Autonomy.Correctness.PursuitCommands` — what the pursuit controller commands

Every way out of the control loop is one of three (`Exit`): a stop, silence, or a command towards a lookahead point. Silence is
for closed paths only, and for none of the ticks on which the car has to stand. The state mirrors the last messages (`Mirrors`),
so what holds of a tick from its state holds of it from the messages before it.

## Contents
- **Helpers.** `IsClosest`, `findClosestIdx_spec`, `findLookahead_spec`, `estimateCurvature_ok`.
- **The planned speed.** `Tuned`, `planSpeed_ok`, `planSpeed_bounds`.
- **Ways out.** `Target`, `Exit`, `controlLoop_exit`, `controlLoop_ok`.
- **Runs.** `latest`, `inputsOf`, `Mirrors`, `run_mirrors`, `run_ok`.
- **Commands.** `TickOutcome`, `pursuit_commands`.
- **Parameters and statuses that nothing checks.** `pursuit_unchecked`.
-/

namespace Lhre.Autonomy.PurePursuit

open Real

/-! ## Helpers -/

@[simp] theorem ok_bind {α β : Type} (a : α) (f : α → Except String β) : (Except.ok a >>= f) = f a := rfl

@[simp] theorem error_bind {α β : Type} (e : String) (f : α → Except String β) : (Except.error e >>= f) = .error e := rfl

theorem divide_ok {a b : ℝ} (h : b ≠ 0) : divide a b = .ok (a / b) := if_neg h

theorem sqrtOf_ok {a : ℝ} (h : 0 ≤ a) : sqrtOf a = .ok √a := if_neg (not_lt.mpr h)

theorem itemAt_ok {path : List Point} {i : ℤ} (hlo : 0 ≤ i) (hhi : i < path.length) : ∃ q, itemAt path i = .ok q := by
  have hlt : i.toNat < path.length := by omega
  unfold itemAt
  simp only [if_neg (not_lt.mpr hlo), List.getElem?_eq_getElem hlt]
  exact ⟨_, rfl⟩

/-- The first of the points closest to the car. -/
structure IsClosest (st : Pursuit) (idx : ℕ) : Prop where
  inside : idx < st.path.length
  least : ∀ j < st.path.length, st.distanceSq (st.pointAt idx) ≤ st.distanceSq (st.pointAt j)
  first : ∀ j < idx, st.distanceSq (st.pointAt idx) < st.distanceSq (st.pointAt j)

theorem closestLoop_spec (st : Pursuit) (rest front : List Point) (hpath : st.path = front ++ rest) {bestIdx : ℕ}
    (hbest : bestIdx < front.length)
    (hleast : ∀ j < front.length, st.distanceSq (st.pointAt bestIdx) ≤ st.distanceSq (st.pointAt j))
    (hfirst : ∀ j < bestIdx, st.distanceSq (st.pointAt bestIdx) < st.distanceSq (st.pointAt j)) :
    IsClosest st (closestLoop st (rest.zipIdx front.length) bestIdx (some (st.distanceSq (st.pointAt bestIdx)))) := by
  induction rest generalizing front bestIdx with
  | nil =>
    rw [List.append_nil] at hpath
    subst hpath
    exact ⟨hbest, hleast, hfirst⟩
  | cons q rest ih =>
    have hpath' : st.path = (front ++ [q]) ++ rest := by rw [hpath, List.append_assoc, List.singleton_append]
    have hlength : front.length + 1 = (front ++ [q]).length := by rw [List.length_append, List.length_singleton]
    have hq : st.pointAt front.length = q := by simp [Pursuit.pointAt, hpath]
    simp only [List.zipIdx_cons, closestLoop, Option.all_some, decide_eq_true_eq]
    rw [hlength]
    split
    · case isTrue hless =>
      rw [← hq] at hless ⊢
      refine ih (front ++ [st.pointAt front.length]) (by rw [hq]; exact hpath') (by simp) (fun j hj => ?_) fun j hj => ?_
      · rcases Nat.lt_succ_iff_lt_or_eq.mp (by simpa using hj) with hj | rfl
        · exact hless.le.trans (hleast j hj)
        · exact le_rfl
      · exact hless.trans_le (hleast j hj)
    · case isFalse hmore =>
      refine ih (front ++ [q]) hpath' (by simp; omega) (fun j hj => ?_) hfirst
      rcases Nat.lt_succ_iff_lt_or_eq.mp (by simpa using hj) with hj | rfl
      · exact hleast j hj
      · rw [hq]
        exact not_lt.mp hmore

theorem findClosestIdx_spec {st : Pursuit} (hne : st.path ≠ []) : IsClosest st (findClosestIdx st) := by
  obtain ⟨q, rest, hpath⟩ := List.exists_cons_of_ne_nil hne
  have hq : st.pointAt 0 = q := by simp [Pursuit.pointAt, hpath]
  have hstart : findClosestIdx st =
      closestLoop st (rest.zipIdx [q].length) 0 (some (st.distanceSq (st.pointAt 0))) := by
    rw [findClosestIdx, hpath, List.zipIdx_cons, closestLoop, hq]
    simp
  rw [hstart]
  refine closestLoop_spec st rest [q] hpath (by simp) (fun j hj => ?_) fun j hj => absurd hj (Nat.not_lt_zero j)
  obtain rfl : j = 0 := by simpa using hj
  exact le_rfl

/-- A point that an open path may be followed to lies ahead of the car. -/
def Ahead (cfg : PursuitConfig) (st : Pursuit) (idx : ℕ) : Prop := cfg.closedPath = false → 1 / (10 : ℕ) < st.forward (st.pointAt idx)

theorem lookaheadLoop_spec (cfg : PursuitConfig) (st : Pursuit) (indices : List ℕ) (lastForward : Option ℕ) :
    (∀ idx, (lookaheadLoop cfg st indices lastForward).1 = some idx → idx ∈ indices ∧ Ahead cfg st idx) ∧
      ∀ idx, (lookaheadLoop cfg st indices lastForward).2 = some idx →
        lastForward = some idx ∨ idx ∈ indices ∧ Ahead cfg st idx := by
  induction indices generalizing lastForward with
  | nil => exact ⟨fun idx h => by simp [lookaheadLoop] at h, fun idx h => Or.inl h⟩
  | cons i rest ih =>
    unfold lookaheadLoop
    by_cases hbehind : cfg.closedPath = false ∧ st.forward (st.pointAt i) ≤ 1 / (10 : ℕ)
    · rw [if_pos hbehind]
      obtain ⟨hreturned, hlast⟩ := ih lastForward
      refine ⟨fun idx h => ?_, fun idx h => ?_⟩
      · exact (hreturned idx h).imp_left (List.mem_cons_of_mem i)
      · exact (hlast idx h).imp_right fun h => h.imp_left (List.mem_cons_of_mem i)
    rw [if_neg hbehind]
    have hahead : Ahead cfg st i := fun hopen => not_le.mp fun hle => hbehind ⟨hopen, hle⟩
    by_cases hfar : st.ld * st.ld ≤ st.distanceSq (st.pointAt i)
    · rw [if_pos hfar]
      refine ⟨fun idx h => ?_, fun idx h => ?_⟩
      · obtain rfl := Option.some.inj h
        exact ⟨List.mem_cons_self, hahead⟩
      · obtain rfl := Option.some.inj h
        exact Or.inr ⟨List.mem_cons_self, hahead⟩
    · rw [if_neg hfar]
      obtain ⟨hreturned, hlast⟩ := ih (some i)
      refine ⟨fun idx h => ?_, fun idx h => ?_⟩
      · exact (hreturned idx h).imp_left (List.mem_cons_of_mem i)
      · rcases hlast idx h with heq | h
        · obtain rfl := Option.some.inj heq
          exact Or.inr ⟨List.mem_cons_self, hahead⟩
        · exact Or.inr (h.imp_left (List.mem_cons_of_mem i))

/-- A point of the path that a command may be computed from. -/
structure Target (cfg : PursuitConfig) (st : Pursuit) (idx : ℕ) : Prop where
  inside : idx < st.path.length
  ahead : Ahead cfg st idx
  onward : cfg.closedPath = false → ∃ closest, IsClosest st closest ∧ closest ≤ idx

theorem findLookahead_spec {cfg : PursuitConfig} {st : Pursuit} {idx : ℕ} (h : findLookahead cfg st = some idx) :
    Target cfg st idx := by
  unfold findLookahead at h
  simp only at h
  split at h
  · cases h
  · case isFalse hne =>
    have hclosest := findClosestIdx_spec fun hnil : st.path = [] => hne (by rw [hnil, List.length_nil])
    have hinside := hclosest.inside
    obtain ⟨hreturned, hlast⟩ :=
      lookaheadLoop_spec cfg st (lookaheadIndices cfg (findClosestIdx st) st.path.length) none
    have hmem (i : ℕ) (hi : i ∈ lookaheadIndices cfg (findClosestIdx st) st.path.length) :
        i < st.path.length ∧ (cfg.closedPath = false → ∃ closest, IsClosest st closest ∧ closest ≤ i) := by
      unfold lookaheadIndices at hi
      split at hi
      · case isTrue hclosed =>
        obtain ⟨j, -, rfl⟩ := List.mem_map.mp hi
        refine ⟨Nat.mod_lt _ (by omega), fun hopen => ?_⟩
        rw [hclosed] at hopen
        cases hopen
      · rw [List.mem_range'_1] at hi
        exact ⟨by omega, fun _ => ⟨_, hclosest, hi.1⟩⟩
    split at h
    · case h_1 i rest hloop =>
      obtain rfl := Option.some.inj h
      obtain ⟨hi, hahead⟩ := hreturned i (by rw [hloop])
      exact ⟨(hmem i hi).1, hahead, (hmem i hi).2⟩
    · case h_2 last hloop =>
      split at h
      · case isTrue hclosed =>
        obtain rfl := Option.some.inj h
        have hopen : ¬ cfg.closedPath = false := by simp [hclosed]
        exact ⟨Nat.mod_lt _ (by omega), fun h => absurd h hopen, fun h => absurd h hopen⟩
      · rcases hlast idx (by rw [hloop]; exact h) with hnone | ⟨hi, hahead⟩
        · cases hnone
        · exact ⟨(hmem idx hi).1, hahead, (hmem idx hi).2⟩

/-- On a closed path there is always a lookahead point. -/
theorem findLookahead_closed {cfg : PursuitConfig} {st : Pursuit} (hclosed : cfg.closedPath = true) (hne : st.path ≠ []) :
    findLookahead cfg st ≠ none := by
  have hlength : st.path.length ≠ 0 := fun h => hne (List.length_eq_zero_iff.mp h)
  unfold findLookahead
  simp only [if_neg hlength, if_pos hclosed]
  split <;> exact Option.some_ne_none _

/-- The indices of the curvature estimate are indices of the path. -/
theorem curvatureIndices_mem (cfg : PursuitConfig) {n idx : ℤ} (hthree : 3 ≤ n) (hlo : 0 ≤ idx) (hhi : idx < n) :
    (0 ≤ (curvatureIndices cfg n idx).1 ∧ (curvatureIndices cfg n idx).1 < n) ∧
      (0 ≤ (curvatureIndices cfg n idx).2.1 ∧ (curvatureIndices cfg n idx).2.1 < n) ∧
        0 ≤ (curvatureIndices cfg n idx).2.2 ∧ (curvatureIndices cfg n idx).2.2 < n := by
  unfold curvatureIndices
  split
  · have hn : 0 < n := by omega
    exact ⟨⟨Int.emod_nonneg _ hn.ne', Int.emod_lt_of_pos _ hn⟩, ⟨hlo, hhi⟩, Int.emod_nonneg _ hn.ne', Int.emod_lt_of_pos _ hn⟩
  · simp only
    omega

/-- The curvature estimate raises nothing. -/
theorem estimateCurvature_ok (cfg : PursuitConfig) {path : List Point} {idx : ℕ} (hidx : idx < path.length) :
    ∃ kappa, estimateCurvature cfg path idx = .ok kappa := by
  unfold estimateCurvature
  split
  · exact ⟨0, rfl⟩
  · case isFalse hthree =>
    have hlong : (3 : ℤ) ≤ path.length := by omega
    obtain ⟨hi, hj, hk⟩ := curvatureIndices_mem cfg hlong (Int.natCast_nonneg idx) (Int.ofNat_lt.mpr hidx)
    obtain ⟨a, ha⟩ := itemAt_ok hi.1 hi.2
    obtain ⟨b, hb⟩ := itemAt_ok hj.1 hj.2
    obtain ⟨c, hc⟩ := itemAt_ok hk.1 hk.2
    simp only [ha, hb, hc, ok_bind]
    split
    · exact ⟨0, rfl⟩
    · case isFalse hdenom =>
      refine ⟨_, divide_ok fun hzero => hdenom ?_⟩
      rw [hzero]
      positivity

/-! ## The planned speed -/

/-- Parameters that make sense: rates and limits that are not negative, and a least curvature above zero. -/
structure Tuned (cfg : PursuitConfig) : Prop where
  hz : 0 < cfg.controlHz
  kappa : 0 < cfg.kappaEps
  lateral : 0 ≤ cfg.aLatMax
  accel : 0 ≤ cfg.maxAccel
  decel : 0 ≤ cfg.maxDecel
  steer : 0 ≤ cfg.maxSteer

theorem remaining_nonneg (st : Pursuit) (closestIdx : ℕ) : 0 ≤ remaining st closestIdx := by
  refine add_nonneg (sqrt_nonneg _) (List.sum_nonneg fun d hd => ?_)
  obtain ⟨pair, -, rfl⟩ := List.mem_map.mp hd
  exact sqrt_nonneg _

theorem stoppingLimit_ok {cfg : PursuitConfig} (h : Tuned cfg) (st : Pursuit) (closestIdx : ℕ) (vDes : ℝ) :
    ∃ v, stoppingLimit cfg st closestIdx vDes = .ok v := by
  have hstopping : 0 ≤ (2 : ℕ) * cfg.maxDecel * remaining st closestIdx :=
    mul_nonneg (mul_nonneg (Nat.cast_nonneg 2) h.decel) (remaining_nonneg st closestIdx)
  unfold stoppingLimit
  split
  · exact ⟨_, rfl⟩
  · rw [sqrtOf_ok hstopping]
    exact ⟨_, rfl⟩

/-- Planning a speed raises nothing. -/
theorem planSpeed_ok {cfg : PursuitConfig} (h : Tuned cfg) (st : Pursuit) (closestIdx : ℕ) (kappa : ℝ) :
    ∃ v, planSpeed cfg st closestIdx kappa = .ok v := by
  have hpos : 0 < max |kappa| cfg.kappaEps := lt_max_of_lt_right h.kappa
  obtain ⟨vDes, hvDes⟩ :=
    stoppingLimit_ok h st closestIdx (max cfg.vMin (min cfg.vMax √(cfg.aLatMax / max |kappa| cfg.kappaEps)))
  unfold planSpeed
  rw [divide_ok hpos.ne', ok_bind, sqrtOf_ok (div_nonneg h.lateral hpos.le), ok_bind, hvDes]
  exact ⟨_, rfl⟩

theorem bind_eq_ok {α β : Type} {e : Except String α} {f : α → Except String β} {b : β} (h : (e >>= f) = .ok b) :
    ∃ a, e = .ok a ∧ f a = .ok b := by
  cases e with
  | error e => cases h
  | ok a => exact ⟨a, rfl, h⟩

/-- A planned speed is the last speed with a limited change, within the limits. -/
theorem planSpeed_eq {cfg : PursuitConfig} {st : Pursuit} {closestIdx : ℕ} {kappa v : ℝ}
    (h : planSpeed cfg st closestIdx kappa = .ok v) :
    ∃ vDes, v = max (if cfg.closedPath then cfg.vMin else 0) (min cfg.vMax (st.vPrev +
      max (-cfg.maxDecel * cfg.dt) (min (cfg.maxAccel * cfg.dt) (vDes - st.vPrev)))) := by
  obtain ⟨ratio, -, h⟩ := bind_eq_ok h
  obtain ⟨lateral, -, h⟩ := bind_eq_ok h
  obtain ⟨vDes, -, h⟩ := bind_eq_ok h
  exact ⟨vDes, (Except.ok.inj h).symm⟩

theorem planSpeed_bounds {cfg : PursuitConfig} (hmin : 0 ≤ cfg.vMin) (hmax : cfg.vMin ≤ cfg.vMax) {st : Pursuit}
    {closestIdx : ℕ} {kappa v : ℝ} (h : planSpeed cfg st closestIdx kappa = .ok v) : 0 ≤ v ∧ v ≤ cfg.vMax := by
  obtain ⟨vDes, rfl⟩ := planSpeed_eq h
  refine ⟨le_max_of_le_left ?_, max_le ?_ (min_le_left _ _)⟩
  · split
    · exact hmin
    · exact le_rfl
  · split
    · exact hmax
    · exact hmin.trans hmax

theorem planSpeed_accel {cfg : PursuitConfig} (htuned : Tuned cfg) {st : Pursuit} (hprev : 0 ≤ st.vPrev)
    {closestIdx : ℕ} {kappa v : ℝ} (h : planSpeed cfg st closestIdx kappa = .ok v) :
    v ≤ st.vPrev + cfg.maxAccel * cfg.dt ∨ cfg.closedPath = true ∧ v = cfg.vMin := by
  obtain ⟨vDes, rfl⟩ := planSpeed_eq h
  have hdt : 0 ≤ cfg.dt := (one_div_pos.mpr htuned.hz).le
  have hstep : 0 ≤ cfg.maxAccel * cfg.dt := mul_nonneg htuned.accel hdt
  have hbrake : -cfg.maxDecel * cfg.dt ≤ cfg.maxAccel * cfg.dt :=
    mul_le_mul_of_nonneg_right (by linarith [htuned.accel, htuned.decel]) hdt
  have hlimited : min cfg.vMax (st.vPrev + max (-cfg.maxDecel * cfg.dt) (min (cfg.maxAccel * cfg.dt) (vDes - st.vPrev))) ≤
      st.vPrev + cfg.maxAccel * cfg.dt :=
    (min_le_right _ _).trans (by linarith [max_le hbrake (min_le_left (cfg.maxAccel * cfg.dt) (vDes - st.vPrev))])
  by_cases hclosed : cfg.closedPath = true
  · rw [if_pos hclosed]
    rcases max_choice cfg.vMin (min cfg.vMax (st.vPrev +
      max (-cfg.maxDecel * cfg.dt) (min (cfg.maxAccel * cfg.dt) (vDes - st.vPrev)))) with heq | heq
    · exact Or.inr ⟨hclosed, heq⟩
    · exact Or.inl (heq.trans_le hlimited)
  · rw [if_neg hclosed]
    exact Or.inl (max_le (add_nonneg hprev hstep) hlimited)

/-! ## Ways out -/

/-- The gate of the mission status. -/
def Held (cfg : PursuitConfig) (st : Pursuit) : Prop :=
  (st.missionStatus ≠ "" ∨ cfg.waitForMission = true) ∧ st.missionStatus ≠ "DRIVING"

/-- The steering angle towards a point. -/
noncomputable def steerTo (cfg : PursuitConfig) (st : Pursuit) (q : Point) : ℝ :=
  max (-cfg.maxSteer) (min cfg.maxSteer (arctan ((2 : ℕ) * (st.toLocal q).2 / st.lookaheadSq q * cfg.wheelbase)))

/-- The speed that goes with a point of the path. -/
def SpeedAt (cfg : PursuitConfig) (st : Pursuit) (idx : ℕ) (v : ℝ) : Prop :=
  ∃ closest kappa, IsClosest st closest ∧ estimateCurvature cfg st.path idx = .ok kappa ∧
    commandedSpeed cfg st closest kappa = .ok v

/-- The ways out of the control loop. -/
inductive Exit (cfg : PursuitConfig) (now : ℤ) (st : Pursuit) : Pursuit → List Cmd → Prop
  | stopped (ld : ℝ) : Exit cfg now st { st with ld := ld, vPrev := 0 } [stopCmd]
  | silent (ld : ℝ) (hgate : ¬ Held cfg st) (hrunning : st.missionComplete = false) (hclosed : cfg.closedPath = true) :
      Exit cfg now st { st with ld := ld } []
  | driven (ld v : ℝ) (idx : ℕ) (hgate : ¬ Held cfg st) (hfresh : cfg.closedPath = false → expired cfg now st = false)
      (target : Target cfg st idx) (hsq : st.lookaheadSq (st.pointAt idx) ≠ 0) (hspeed : SpeedAt cfg st idx v) :
      Exit cfg now st { st with ld := ld, vPrev := v } [⟨v, steerTo cfg st (st.pointAt idx)⟩]

/-- The lookahead distance matters to no way out. -/
theorem exit_adaptLookahead {cfg : PursuitConfig} {now : ℤ} {st st' : Pursuit} {cmds : List Cmd} {kappaNear : ℝ}
    (h : Exit cfg now (adaptLookahead cfg kappaNear st) st' cmds) : Exit cfg now st st' cmds := by
  have hclosest {idx : ℕ} (h : IsClosest (adaptLookahead cfg kappaNear st) idx) : IsClosest st idx :=
    ⟨h.inside, h.least, h.first⟩
  cases h with
  | stopped ld' => exact .stopped ld'
  | silent ld' hgate hrunning hclosed => exact .silent ld' hgate hrunning hclosed
  | driven ld' v idx hgate hfresh target hsq hspeed =>
    have htarget : Target cfg st idx := by
      refine ⟨target.inside, target.ahead, fun hopen => ?_⟩
      obtain ⟨closest, h, hle⟩ := target.onward hopen
      exact ⟨closest, hclosest h, hle⟩
    obtain ⟨closest, kappa, h, hkappa, hv⟩ := hspeed
    exact .driven ld' v idx hgate hfresh htarget hsq ⟨closest, kappa, hclosest h, hkappa, hv⟩

theorem exit_stopIf {cfg : PursuitConfig} {now : ℤ} {st st' : Pursuit} {cmds : List Cmd} (hgate : ¬ Held cfg st)
    {condition : Bool} (hsilent : condition = false → st.missionComplete = false ∧ cfg.closedPath = true)
    (h : Except.ok (stopIf condition st) = (.ok (st', cmds) : Except String _)) : Exit cfg now st st' cmds := by
  obtain ⟨rfl, rfl⟩ := Prod.mk.inj (Except.ok.inj h)
  cases condition with
  | true => exact .stopped st.ld
  | false => exact .silent st.ld hgate (hsilent rfl).1 (hsilent rfl).2

/-- Along the axis of the car a point is as far as it is ahead. -/
theorem lookaheadSq_ahead {st : Pursuit} {q : Point} (h : 1 / (10 : ℕ) < st.forward q) :
    1 / (10 : ℕ) ^ 6 ≤ st.lookaheadSq q := by
  have hforward : (st.toLocal q).1 = st.forward q := by
    simp only [Pursuit.toLocal, Pursuit.forward, cos_neg, sin_neg]
    ring
  unfold Pursuit.lookaheadSq
  rw [hforward]
  rw [Nat.cast_ofNat] at h ⊢
  nlinarith [mul_self_nonneg (st.toLocal q).2]

/-- Following a target: the car is commanded, stopped, or too close to the target of a closed path. -/
theorem follow_exit {cfg : PursuitConfig} {now : ℤ} {st st' : Pursuit} {cmds : List Cmd} {closest idx : ℕ}
    (hgate : ¬ Held cfg st) (hfresh : cfg.closedPath = false → expired cfg now st = false) (hclosest : IsClosest st closest)
    (target : Target cfg st idx) (h : follow cfg st closest idx = .ok (st', cmds)) : Exit cfg now st st' cmds := by
  unfold follow at h
  simp only at h
  split at h
  · case isTrue hnear =>
    refine exit_stopIf hgate (fun hrunning => ⟨hrunning, ?_⟩) h
    -- on an open path the target is ahead, and so not too close
    by_contra hopen
    have hahead := target.ahead (by simpa using hopen)
    exact absurd hnear (not_lt.mpr (lookaheadSq_ahead hahead))
  · case isFalse hfar =>
    have hsq : st.lookaheadSq (st.pointAt idx) ≠ 0 := fun hzero => hfar (by rw [hzero]; positivity)
    obtain ⟨kappa, hkappa⟩ := estimateCurvature_ok cfg target.inside
    rw [divide_ok hsq, ok_bind, hkappa, ok_bind] at h
    obtain ⟨v, hspeed, h⟩ := bind_eq_ok h
    obtain ⟨rfl, rfl⟩ := Prod.mk.inj (Except.ok.inj h)
    exact .driven st.ld v idx hgate hfresh target hsq ⟨closest, kappa, hclosest, hkappa, hspeed⟩

theorem stopIf_silent {cfg : PursuitConfig} {st : Pursuit} (h : (st.missionComplete || !cfg.closedPath) = false) :
    st.missionComplete = false ∧ cfg.closedPath = true := by
  simpa using h

/-- **Every way out of the control loop.** -/
theorem controlLoop_exit {cfg : PursuitConfig} {now : ℤ} {st st' : Pursuit} {cmds : List Cmd}
    (h : controlLoop cfg now st = .ok (st', cmds)) : Exit cfg now st st' cmds := by
  unfold controlLoop at h
  split at h
  · obtain ⟨rfl, rfl⟩ := Prod.mk.inj (Except.ok.inj h)
    exact .stopped st.ld
  case isFalse hgate =>
  split at h
  · exact exit_stopIf hgate stopIf_silent h
  case isFalse hready =>
  rw [not_or] at hready
  split at h
  · obtain ⟨rfl, rfl⟩ := Prod.mk.inj (Except.ok.inj h)
    exact .stopped st.ld
  case isFalse hstale =>
  have hfresh (hopen : cfg.closedPath = false) : expired cfg now st = false := by
    simpa using fun hexpired => hstale ⟨hopen, hexpired⟩
  have hclosest := findClosestIdx_spec hready.1
  obtain ⟨near, hnear⟩ := estimateCurvature_ok cfg hclosest.inside
  simp only [hnear, ok_bind] at h
  split at h
  · exact exit_adaptLookahead (exit_stopIf hgate stopIf_silent h)
  · case h_2 laIdx hlookahead =>
    have hclosest' : IsClosest (adaptLookahead cfg |near| st) (findClosestIdx st) :=
      ⟨hclosest.inside, hclosest.least, hclosest.first⟩
    exact exit_adaptLookahead (follow_exit hgate hfresh hclosest' (findLookahead_spec hlookahead) h)

theorem commandedSpeed_ok {cfg : PursuitConfig} {st : Pursuit} (h : Tuned cfg ∨ st.missionComplete = true) (closestIdx : ℕ)
    (kappa : ℝ) : ∃ v, commandedSpeed cfg st closestIdx kappa = .ok v := by
  unfold commandedSpeed
  split
  · exact ⟨0, rfl⟩
  · case isFalse hrunning => exact planSpeed_ok (h.resolve_right hrunning) st closestIdx kappa

theorem follow_ok {cfg : PursuitConfig} {st : Pursuit} (h : Tuned cfg ∨ st.missionComplete = true) {closest idx : ℕ}
    (hidx : idx < st.path.length) : ∃ st' cmds, follow cfg st closest idx = .ok (st', cmds) := by
  unfold follow
  simp only
  split
  · exact ⟨_, _, rfl⟩
  · case isFalse hfar =>
    obtain ⟨kappa, hkappa⟩ := estimateCurvature_ok cfg hidx
    obtain ⟨v, hv⟩ := commandedSpeed_ok h closest kappa
    rw [divide_ok fun hzero => hfar (by rw [hzero]; positivity), ok_bind, hkappa, ok_bind, hv]
    exact ⟨_, _, rfl⟩

/-- **The control loop raises nothing**, with tuned parameters, or where the car has to stand. -/
theorem controlLoop_ok {cfg : PursuitConfig} {st : Pursuit} (h : Tuned cfg ∨ Held cfg st ∨ st.missionComplete = true)
    (now : ℤ) : ∃ st' cmds, controlLoop cfg now st = .ok (st', cmds) := by
  unfold controlLoop
  split
  · exact ⟨_, _, rfl⟩
  case isFalse hgate =>
  have htuned : Tuned cfg ∨ st.missionComplete = true := h.imp_right fun h => h.resolve_left hgate
  split
  · exact ⟨_, _, rfl⟩
  case isFalse hready =>
  rw [not_or] at hready
  split
  · exact ⟨_, _, rfl⟩
  obtain ⟨near, hnear⟩ := estimateCurvature_ok cfg (findClosestIdx_spec hready.1).inside
  simp only [hnear, ok_bind]
  split
  · exact ⟨_, _, rfl⟩
  · case h_2 laIdx hlookahead =>
    have htuned' : Tuned cfg ∨ (adaptLookahead cfg |near| st).missionComplete = true := htuned
    exact follow_ok htuned' (findLookahead_spec hlookahead).inside

/-! ## Runs -/

section Runs
variable {cfg : PursuitConfig} {events : List (ℤ × PursuitEvent)} {st : Pursuit} {out : List Cmd}

/-- The last message of a kind, with the time it came. -/
def latest {α : Type} (f : PursuitEvent → Option α) (events : List (ℤ × PursuitEvent)) : Option (ℤ × α) :=
  (events.filterMap fun e => (f e.2).map (Prod.mk e.1)).getLast?

theorem latest_concat {α : Type} (f : PursuitEvent → Option α) (events : List (ℤ × PursuitEvent)) (e : ℤ × PursuitEvent) :
    latest f (events ++ [e]) = ((f e.2).map (Prod.mk e.1)).or (latest f events) := by
  unfold latest
  rw [List.filterMap_append, List.getLast?_append]
  cases h : f e.2 <;> simp [h]

/-- The messages of each topic. -/
def PursuitEvent.poses? : PursuitEvent → Option (List Point)
  | .path poses => some poses
  | _ => none

def PursuitEvent.odom? : PursuitEvent → Option (Point × Quaternion)
  | .odom position orientation => some (position, orientation)
  | _ => none

def PursuitEvent.status? : PursuitEvent → Option String
  | .status data => some data
  | _ => none

def PursuitEvent.complete? : PursuitEvent → Option Bool
  | .complete data => some data
  | _ => none

/-- What the state keeps of the messages. -/
structure Inputs where
  path : List Point
  receivedAt : Option ℤ
  pose : Point × ℝ
  haveOdom : Bool
  missionStatus : String
  missionComplete : Bool

/-- The fields that only messages change. -/
def Pursuit.inputs (st : Pursuit) : Inputs where
  path := st.path
  receivedAt := st.pathReceivedAt
  pose := ((st.x, st.y), st.yaw)
  haveOdom := st.haveOdom
  missionStatus := st.missionStatus
  missionComplete := st.missionComplete

/-- The last path, pose, status and completion. -/
noncomputable def inputsOf (events : List (ℤ × PursuitEvent)) : Inputs where
  path := (latest PursuitEvent.poses? events).elim [] Prod.snd
  receivedAt := (latest PursuitEvent.poses? events).map Prod.fst
  pose := (latest PursuitEvent.odom? events).elim ((0, 0), 0) fun m => (m.2.1, quatToYaw m.2.2)
  haveOdom := (latest PursuitEvent.odom? events).isSome
  missionStatus := (latest PursuitEvent.status? events).elim "" Prod.snd
  missionComplete := (latest PursuitEvent.complete? events).elim false Prod.snd

/-- The speed of the last command. -/
def lastSpeed (out : List Cmd) : ℝ := (out.getLast?.map Cmd.speed).getD 0

/-- The state goes by the last messages and the last command. -/
structure Mirrors (events : List (ℤ × PursuitEvent)) (out : List Cmd) (st : Pursuit) : Prop where
  inputs : st.inputs = inputsOf events
  speed : st.vPrev = lastSpeed out
  nonneg : 0 ≤ st.vPrev

theorem mirrors_init (cfg : PursuitConfig) : Mirrors [] [] (Pursuit.init cfg) := ⟨rfl, rfl, le_rfl⟩

theorem commandedSpeed_bounds (hmin : 0 ≤ cfg.vMin) (hmax : cfg.vMin ≤ cfg.vMax) {closest : ℕ} {kappa v : ℝ}
    (h : commandedSpeed cfg st closest kappa = .ok v) : 0 ≤ v ∧ v ≤ cfg.vMax := by
  unfold commandedSpeed at h
  split at h
  · obtain rfl := Except.ok.inj h
    exact ⟨le_rfl, hmin.trans hmax⟩
  · exact planSpeed_bounds hmin hmax h

/-- A message that publishes nothing. -/
theorem Mirrors.message (h : Mirrors events out st) {e : ℤ × PursuitEvent} {st' : Pursuit}
    (hinputs : st'.inputs = inputsOf (events ++ [e])) (hspeed : st'.vPrev = st.vPrev) :
    Mirrors (events ++ [e]) (out ++ []) st' := by
  rw [List.append_nil]
  exact ⟨hinputs, hspeed.trans h.speed, hspeed ▸ h.nonneg⟩

/-- A tick leaves the inputs, and its command is the last one. -/
theorem Mirrors.tick (hmin : 0 ≤ cfg.vMin) (hmax : cfg.vMin ≤ cfg.vMax) (h : Mirrors events out st) {now : ℤ} {st' : Pursuit}
    {cmds : List Cmd} (hexit : Exit cfg now st st' cmds) : Mirrors (events ++ [(now, .tick)]) (out ++ cmds) st' := by
  have hevents : inputsOf (events ++ [(now, .tick)]) = inputsOf events := by
    simp [inputsOf, latest_concat, PursuitEvent.poses?, PursuitEvent.odom?, PursuitEvent.status?, PursuitEvent.complete?]
  cases hexit with
  | stopped ld => exact ⟨h.inputs.trans hevents.symm, by simp [lastSpeed, stopCmd], le_rfl⟩
  | silent ld _ _ _ => exact h.message (h.inputs.trans hevents.symm) rfl
  | driven ld v idx _ _ _ _ hspeed =>
    obtain ⟨closest, kappa, -, -, hv⟩ := hspeed
    exact ⟨h.inputs.trans hevents.symm, by simp [lastSpeed], (commandedSpeed_bounds hmin hmax hv).1⟩

/-- **One event** leaves a state that mirrors the events. -/
theorem step_mirrors (hmin : 0 ≤ cfg.vMin) (hmax : cfg.vMin ≤ cfg.vMax) (h : Mirrors events out st) {e : ℤ × PursuitEvent}
    {st' : Pursuit} {cmds : List Cmd} (hstep : st.step cfg e = .ok (st', cmds)) :
    Mirrors (events ++ [e]) (out ++ cmds) st' := by
  have hinputs := h.inputs
  simp only [Pursuit.inputs, inputsOf, Inputs.mk.injEq] at hinputs
  obtain ⟨now, event⟩ := e
  cases event with
  | tick => exact h.tick hmin hmax (controlLoop_exit hstep)
  | path poses =>
    obtain ⟨rfl, rfl⟩ := Prod.mk.inj (Except.ok.inj hstep)
    refine h.message ?_ rfl
    simp [inputsOf, Pursuit.inputs, pathCb, latest_concat, hinputs, PursuitEvent.poses?, PursuitEvent.odom?,
      PursuitEvent.status?, PursuitEvent.complete?]
  | odom position orientation =>
    obtain ⟨rfl, rfl⟩ := Prod.mk.inj (Except.ok.inj hstep)
    refine h.message ?_ rfl
    simp [inputsOf, Pursuit.inputs, odomCb, latest_concat, hinputs, PursuitEvent.poses?, PursuitEvent.odom?,
      PursuitEvent.status?, PursuitEvent.complete?]
  | status data =>
    obtain ⟨rfl, rfl⟩ := Prod.mk.inj (Except.ok.inj hstep)
    refine h.message ?_ rfl
    simp [inputsOf, Pursuit.inputs, statusCb, latest_concat, hinputs, PursuitEvent.poses?, PursuitEvent.odom?,
      PursuitEvent.status?, PursuitEvent.complete?]
  | complete data =>
    obtain ⟨rfl, rfl⟩ := Prod.mk.inj (Except.ok.inj hstep)
    refine h.message ?_ rfl
    simp [inputsOf, Pursuit.inputs, completeCb, latest_concat, hinputs, PursuitEvent.poses?, PursuitEvent.odom?,
      PursuitEvent.status?, PursuitEvent.complete?]

theorem run_concat (cfg : PursuitConfig) (events : List (ℤ × PursuitEvent)) (e : ℤ × PursuitEvent) :
    run cfg (events ++ [e]) = run cfg events >>= fun st => st.1.step cfg e >>= fun r => .ok (r.1, st.2 ++ r.2) := by
  unfold run
  rw [List.foldlM_append]
  congr 1
  funext st
  rw [List.foldlM_cons]
  cases st.1.step cfg e <;> rfl

/-- **After any run** the state mirrors the events. -/
theorem run_mirrors (hmin : 0 ≤ cfg.vMin) (hmax : cfg.vMin ≤ cfg.vMax) (h : run cfg events = .ok (st, out)) :
    Mirrors events out st := by
  induction events using List.reverseRecOn generalizing st out with
  | nil =>
    obtain ⟨rfl, rfl⟩ := Prod.mk.inj (Except.ok.inj h)
    exact mirrors_init cfg
  | append_singleton events e ih =>
    rw [run_concat] at h
    obtain ⟨before, hbefore, h⟩ := bind_eq_ok h
    obtain ⟨after, hafter, h⟩ := bind_eq_ok h
    obtain ⟨rfl, rfl⟩ := Prod.mk.inj (Except.ok.inj h)
    exact step_mirrors hmin hmax (ih hbefore) hafter

/-- **With tuned parameters** no run raises anything. -/
theorem run_ok (h : Tuned cfg) (events : List (ℤ × PursuitEvent)) : ∃ st out, run cfg events = .ok (st, out) := by
  induction events using List.reverseRecOn with
  | nil => exact ⟨_, _, rfl⟩
  | append_singleton events e ih =>
    obtain ⟨st, out, hrun⟩ := ih
    have hstep : ∃ st' cmds, st.step cfg e = .ok (st', cmds) := by
      obtain ⟨now, event⟩ := e
      cases event with
      | tick => exact controlLoop_ok (Or.inl h) now
      | path poses => exact ⟨_, _, rfl⟩
      | odom position orientation => exact ⟨_, _, rfl⟩
      | status data => exact ⟨_, _, rfl⟩
      | complete data => exact ⟨_, _, rfl⟩
    obtain ⟨st', cmds, hstep⟩ := hstep
    rw [run_concat, hrun, ok_bind, hstep]
    exact ⟨_, _, rfl⟩

/-! ## Commands -/

/-- A status that is not empty has come, or one is required, and the last one is not DRIVING. -/
def Gated (cfg : PursuitConfig) (events : List (ℤ × PursuitEvent)) : Prop :=
  ((inputsOf events).missionStatus ≠ "" ∨ cfg.waitForMission = true) ∧
    ∀ time, latest PursuitEvent.status? events ≠ some (time, "DRIVING")

/-- The last path is older than the timeout. -/
def Stale (cfg : PursuitConfig) (events : List (ℤ × PursuitEvent)) (now : ℤ) : Prop :=
  ∃ received, (inputsOf events).receivedAt = some received ∧ cfg.pathTimeout < ((now - received : ℤ) : ℝ) * (1 / (10 : ℕ) ^ 9)

/-- A command that is computed from a lookahead point of the current path. -/
def Follows (cfg : PursuitConfig) (st : Pursuit) (c : Cmd) : Prop :=
  ∃ idx, Target cfg st idx ∧ c.steering = steerTo cfg st (st.pointAt idx) ∧ SpeedAt cfg st idx c.speed

/-- What a control tick publishes. -/
structure TickOutcome (cfg : PursuitConfig) (events : List (ℤ × PursuitEvent)) (now : ℤ) (st : Pursuit) (out cmds : List Cmd) :
    Prop where
  once : cmds.length ≤ 1
  held : Gated cfg events ∨ (inputsOf events).missionComplete = true → ∃ c, cmds = [c] ∧ c.speed = 0
  opened : cfg.closedPath = false → ∃ c, cmds = [c] ∧
    (st.path = [] ∨ Stale cfg events now ∨ (∀ q ∈ st.path, st.forward q ≤ 1 / (10 : ℕ)) → c.speed = 0)
  bounds : ∀ c ∈ cmds, 0 ≤ c.speed ∧ c.speed ≤ cfg.vMax ∧ |c.steering| ≤ cfg.maxSteer
  accel : ∀ c ∈ cmds, c.speed ≤ lastSpeed out + cfg.maxAccel * cfg.dt ∨ cfg.closedPath = true ∧ c.speed = cfg.vMin
  follows : ∀ c ∈ cmds, c = stopCmd ∨ Follows cfg st c

theorem held_of_gated (h : Mirrors events out st) (hgated : Gated cfg events) : Held cfg st := by
  have hstatus : st.missionStatus = (inputsOf events).missionStatus := congrArg Inputs.missionStatus h.inputs
  refine ⟨hstatus ▸ hgated.1, ?_⟩
  rw [hstatus]
  change (latest PursuitEvent.status? events).elim "" Prod.snd ≠ "DRIVING"
  cases hlatest : latest PursuitEvent.status? events with
  | none => simp
  | some message =>
    obtain ⟨time, data⟩ := message
    rintro rfl
    exact hgated.2 time hlatest

theorem expired_of_stale (h : Mirrors events out st) {now : ℤ} (hstale : Stale cfg events now) : expired cfg now st = true := by
  obtain ⟨received, hreceived, hage⟩ := hstale
  have hat : st.pathReceivedAt = some received := (congrArg Inputs.receivedAt h.inputs).trans hreceived
  simp only [expired, hat, Option.any_some, decide_eq_true_eq]
  exact hage

theorem steerTo_bound (hsteer : 0 ≤ cfg.maxSteer) (q : Point) : |steerTo cfg st q| ≤ cfg.maxSteer := by
  unfold steerTo
  exact abs_le.mpr ⟨le_max_left _ _, max_le (neg_le_self hsteer) (min_le_left _ _)⟩

theorem commandedSpeed_accel (htuned : Tuned cfg) (hprev : 0 ≤ st.vPrev) {closest : ℕ} {kappa v : ℝ}
    (h : commandedSpeed cfg st closest kappa = .ok v) :
    v ≤ st.vPrev + cfg.maxAccel * cfg.dt ∨ cfg.closedPath = true ∧ v = cfg.vMin := by
  unfold commandedSpeed at h
  split at h
  · obtain rfl := Except.ok.inj h
    exact Or.inl (add_nonneg hprev (mul_nonneg htuned.accel (one_div_pos.mpr htuned.hz).le))
  · exact planSpeed_accel htuned hprev h

/-- **Where the car has to stand** a tick commands speed zero, once. -/
theorem Exit.held (h : Mirrors events out st) {now : ℤ} {st' : Pursuit} {cmds : List Cmd} (hexit : Exit cfg now st st' cmds)
    (hstand : Gated cfg events ∨ (inputsOf events).missionComplete = true) : ∃ c, cmds = [c] ∧ c.speed = 0 := by
  have hcomplete (hdone : (inputsOf events).missionComplete = true) : st.missionComplete = true :=
    (congrArg Inputs.missionComplete h.inputs).trans hdone
  cases hexit with
  | stopped ld => exact ⟨stopCmd, rfl, rfl⟩
  | silent ld hgate hrunning _ =>
    rcases hstand with hgated | hdone
    · exact absurd (held_of_gated h hgated) hgate
    · rw [hcomplete hdone] at hrunning
      cases hrunning
  | driven ld v idx hgate _ _ _ hspeed =>
    rcases hstand with hgated | hdone
    · exact absurd (held_of_gated h hgated) hgate
    · obtain ⟨closest, kappa, -, -, hv⟩ := hspeed
      rw [commandedSpeed, if_pos (hcomplete hdone)] at hv
      exact ⟨_, rfl, (Except.ok.inj hv).symm⟩

/-- On an open path a tick is never silent, and stops the car where the path is of no use. -/
theorem Exit.opened (h : Mirrors events out st) {now : ℤ} {st' : Pursuit} {cmds : List Cmd} (hexit : Exit cfg now st st' cmds)
    (hopen : cfg.closedPath = false) : ∃ c, cmds = [c] ∧
      (st.path = [] ∨ Stale cfg events now ∨ (∀ q ∈ st.path, st.forward q ≤ 1 / (10 : ℕ)) → c.speed = 0) := by
  cases hexit with
  | stopped ld => exact ⟨stopCmd, rfl, fun _ => rfl⟩
  | silent ld _ _ hclosed =>
    rw [hopen] at hclosed
    cases hclosed
  | driven ld v idx _ hfresh target _ _ =>
    refine ⟨_, rfl, fun huseless => ?_⟩
    rcases huseless with hempty | hstale | hbehind
    · exact absurd target.inside (by simp [hempty])
    · have hexpired := expired_of_stale h hstale
      rw [hfresh hopen] at hexpired
      cases hexpired
    · have hmem : st.pointAt idx ∈ st.path := by
        rw [Pursuit.pointAt, List.getD_eq_getElem _ _ target.inside]
        exact List.getElem_mem target.inside
      exact absurd (target.ahead hopen) (not_lt.mpr (hbehind _ hmem))

/-- What a tick publishes from a state that mirrors the events. -/
theorem Exit.outcome (htuned : Tuned cfg) (hmin : 0 ≤ cfg.vMin) (hmax : cfg.vMin ≤ cfg.vMax) (h : Mirrors events out st)
    {now : ℤ} {st' : Pursuit} {cmds : List Cmd} (hexit : Exit cfg now st st' cmds) : TickOutcome cfg events now st out cmds := by
  have hstop : 0 ≤ lastSpeed out + cfg.maxAccel * cfg.dt :=
    add_nonneg (h.speed ▸ h.nonneg) (mul_nonneg htuned.accel (one_div_pos.mpr htuned.hz).le)
  have hheld := hexit.held h
  have hopened := hexit.opened h
  cases hexit with
  | stopped ld =>
    refine ⟨le_rfl, hheld, hopened, fun c hc => ?_, fun c hc => ?_, fun c hc => Or.inl (List.mem_singleton.mp hc)⟩
    · rw [List.mem_singleton.mp hc]
      exact ⟨le_rfl, hmin.trans hmax, (abs_zero).trans_le htuned.steer⟩
    · rw [List.mem_singleton.mp hc]
      exact Or.inl hstop
  | silent ld _ _ _ =>
    have hnone (c : Cmd) (hc : c ∈ ([] : List Cmd)) : False := List.not_mem_nil hc
    exact ⟨Nat.zero_le 1, hheld, hopened, fun c hc => (hnone c hc).elim, fun c hc => (hnone c hc).elim,
      fun c hc => (hnone c hc).elim⟩
  | driven ld v idx _ _ target _ hspeed =>
    obtain ⟨closest, kappa, hclosest, hkappa, hv⟩ := hspeed
    refine ⟨le_rfl, hheld, hopened, fun c hc => ?_, fun c hc => ?_, fun c hc => ?_⟩
    · rw [List.mem_singleton.mp hc]
      have hbounds := commandedSpeed_bounds hmin hmax hv
      exact ⟨hbounds.1, hbounds.2, steerTo_bound htuned.steer _⟩
    · rw [List.mem_singleton.mp hc, ← h.speed]
      exact commandedSpeed_accel htuned h.nonneg hv
    · rw [List.mem_singleton.mp hc]
      exact Or.inr ⟨idx, target, rfl, closest, kappa, hclosest, hkappa, hv⟩

/-- The node's own parameters, without a mission manager to wait for. -/
noncomputable def ownParams : PursuitConfig where
  ldMax := (4 : ℕ)
  ldMin := (2 : ℕ)
  ldCurvGain := (3 : ℕ)
  maxSteer := 1 / (2 : ℕ)
  wheelbase := (3 : ℕ) / (2 : ℕ)
  controlHz := (20 : ℕ)
  aLatMax := (6 : ℕ)
  vMin := (2 : ℕ)
  vMax := (12 : ℕ)
  kappaEps := 1 / (1000 : ℕ)
  curvWin := 5
  maxAccel := (2 : ℕ)
  maxDecel := (3 : ℕ)
  closedPath := true
  pathTimeout := 1
  waitForMission := false

theorem tuned_ownParams : Tuned ownParams := by
  constructor <;> norm_num [ownParams]

/-- A point ahead of the car. -/
def ahead : Point := ((10 : ℕ), 0)

/-- **What the pursuit controller commands.** -/
theorem pursuit_commands (cfg : PursuitConfig) (hmin : 0 ≤ cfg.vMin) (hmax : cfg.vMin ≤ cfg.vMax)
    (events : List (ℤ × PursuitEvent)) :
    (∀ st out, run cfg events = .ok (st, out) → Gated cfg events ∨ (inputsOf events).missionComplete = true →
      ∀ now, ∃ st' c, controlLoop cfg now st = .ok (st', [c]) ∧ c.speed = 0) ∧
      (Tuned cfg → ∃ st out, run cfg events = .ok (st, out) ∧ st.inputs = inputsOf events ∧
        ∀ now, ∃ st' cmds, controlLoop cfg now st = .ok (st', cmds) ∧ TickOutcome cfg events now st out cmds) := by
  refine ⟨fun st out hrun hstand now => ?_, fun htuned => ?_⟩
  · have h := run_mirrors hmin hmax hrun
    have hheld : Held cfg st ∨ st.missionComplete = true :=
      hstand.imp (held_of_gated h) (congrArg Inputs.missionComplete h.inputs).trans
    obtain ⟨st', cmds, hloop⟩ := controlLoop_ok (Or.inr hheld) now
    obtain ⟨c, rfl, hspeed⟩ := (controlLoop_exit hloop).held h hstand
    exact ⟨st', c, hloop, hspeed⟩
  · obtain ⟨st, out, hrun⟩ := run_ok htuned events
    have h := run_mirrors hmin hmax hrun
    refine ⟨st, out, hrun, h.inputs, fun now => ?_⟩
    obtain ⟨st', cmds, hloop⟩ := controlLoop_ok (Or.inl htuned) now
    exact ⟨st', cmds, hloop, (controlLoop_exit hloop).outcome htuned hmin hmax h⟩

/-- A car on a circuit of one point. -/
theorem pursuit_commands_alone :
    Tuned ownParams ∧ ∃ st out, run ownParams [(0, .path [ahead]), (0, .odom (0, 0) ⟨1, 0, 0, 0⟩)] = .ok (st, out) ∧
      ∃ st' cmds, controlLoop ownParams 0 st = .ok (st', cmds) ∧
        TickOutcome ownParams [(0, .path [ahead]), (0, .odom (0, 0) ⟨1, 0, 0, 0⟩)] 0 st out cmds := by
  have hspeeds : 0 ≤ ownParams.vMin ∧ ownParams.vMin ≤ ownParams.vMax := by norm_num [ownParams]
  obtain ⟨st, out, hrun, -, htick⟩ := (pursuit_commands ownParams hspeeds.1 hspeeds.2
    [(0, .path [ahead]), (0, .odom (0, 0) ⟨1, 0, 0, 0⟩)]).2 tuned_ownParams
  exact ⟨tuned_ownParams, st, out, hrun, htick 0⟩

end Runs

/-! ## Parameters and statuses that nothing checks -/

/-- A car with one point of a path ahead of it. -/
def alone (yaw : ℝ) : Pursuit where
  path := [ahead]
  x := 0
  y := 0
  yaw := yaw
  haveOdom := true
  ld := 4
  vPrev := 0
  missionStatus := ""
  missionComplete := false
  pathReceivedAt := some 0

theorem lookaheadSq_eq (st : Pursuit) (q : Point) : st.lookaheadSq q = st.distanceSq q := by
  have hunit := sin_sq_add_cos_sq (-st.yaw)
  unfold Pursuit.lookaheadSq Pursuit.distanceSq Pursuit.toLocal
  linear_combination ((q.1 - st.x) ^ 2 + (q.2 - st.y) ^ 2) * hunit

/-- Alone on a closed path the car is driven, at a planned speed. -/
theorem controlLoop_alone (cfg : PursuitConfig) (hclosed : cfg.closedPath = true) (hwait : cfg.waitForMission = false)
    (yaw : ℝ) : ∃ (ld : ℝ) (steering : ℝ), controlLoop cfg 0 (alone yaw) =
      planSpeed cfg { alone yaw with ld := ld } 0 0 >>= fun v =>
        .ok ({ alone yaw with ld := ld, vPrev := v }, [⟨v, steering⟩]) := by
  have hgate : ¬ (((alone yaw).missionStatus ≠ "" ∨ cfg.waitForMission = true) ∧ (alone yaw).missionStatus ≠ "DRIVING") := by
    simp [alone, hwait]
  have hready : ¬ ((alone yaw).path = [] ∨ (alone yaw).haveOdom = false) := by simp [alone]
  have hopen : ¬ (cfg.closedPath = false ∧ expired cfg 0 (alone yaw) = true) := by simp [hclosed]
  have hclosest : findClosestIdx (alone yaw) = 0 := Nat.lt_one_iff.mp (findClosestIdx_spec (by simp [alone])).inside
  have hcurvature : estimateCurvature cfg (alone yaw).path 0 = .ok 0 := if_pos (by simp [alone])
  have hlookahead : findLookahead cfg (adaptLookahead cfg |0| (alone yaw)) = some 0 := by
    cases hfound : findLookahead cfg (adaptLookahead cfg |0| (alone yaw)) with
    | none => exact absurd hfound (findLookahead_closed hclosed (by simp [alone, adaptLookahead]))
    | some idx => rw [Nat.lt_one_iff.mp (findLookahead_spec hfound).inside]
  have hsq : (adaptLookahead cfg |0| (alone yaw)).lookaheadSq ((adaptLookahead cfg |0| (alone yaw)).pointAt 0) = 100 := by
    rw [lookaheadSq_eq]
    norm_num [Pursuit.distanceSq, Pursuit.pointAt, adaptLookahead, alone, ahead]
  refine ⟨(adaptLookahead cfg |0| (alone yaw)).ld, steerTo cfg (adaptLookahead cfg |0| (alone yaw)) ahead, ?_⟩
  rw [controlLoop, if_neg hgate, if_neg hready, if_neg hopen]
  simp only [hclosest, hcurvature, ok_bind, hlookahead]
  rw [follow, if_neg (by rw [hsq]; norm_num), divide_ok (by rw [hsq]; norm_num), ok_bind]
  rfl

/-- An empty status lets the car drive, and no least curvature or a negative lateral limit makes the tick raise. -/
theorem pursuit_unchecked :
    (∃ st out st' c, run ownParams [(0, .status ""), (0, .path [ahead]), (0, .odom (0, 0) ⟨1, 0, 0, 0⟩)] = .ok (st, out) ∧
      controlLoop ownParams 0 st = .ok (st', [c]) ∧ 0 < c.speed) ∧
      (controlLoop { ownParams with kappaEps := 0 } 0 (alone 0) = .error "ZeroDivisionError") ∧
      controlLoop { ownParams with aLatMax := -1 } 0 (alone 0) = .error "ValueError" := by
  refine ⟨?_, ?_, ?_⟩
  · obtain ⟨ld, steering, hloop⟩ := controlLoop_alone ownParams rfl rfl (quatToYaw ⟨1, 0, 0, 0⟩)
    obtain ⟨v, hv⟩ := planSpeed_ok tuned_ownParams { alone (quatToYaw ⟨1, 0, 0, 0⟩) with ld := ld } 0 0
    obtain ⟨vDes, heq⟩ := planSpeed_eq hv
    rw [hv] at hloop
    refine ⟨alone (quatToYaw ⟨1, 0, 0, 0⟩), [], _, _, rfl, hloop, ?_⟩
    have hfloor : ownParams.vMin ≤ v := heq ▸ le_max_left _ _
    have hpos : 0 < ownParams.vMin := by norm_num [ownParams]
    exact hpos.trans_le hfloor
  · obtain ⟨ld, steering, hloop⟩ := controlLoop_alone { ownParams with kappaEps := 0 } rfl rfl 0
    rw [hloop]
    simp [planSpeed, divide]
  · obtain ⟨ld, steering, hloop⟩ := controlLoop_alone { ownParams with aLatMax := -1 } rfl rfl 0
    rw [hloop]
    norm_num [planSpeed, divide, sqrtOf, ownParams]

end Lhre.Autonomy.PurePursuit
