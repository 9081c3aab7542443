import Lhre.Autonomy.CircuitProgress
import Lhre.Theory.Trace

/-!
# `Autonomy.Correctness.ScoredLap` — a scored lap is a real lap

The progress of a lap is a sum over the samples with new stamps. While nothing has invalidated the run, that sum is over an
unbroken chain of samples on course, so what `observe` scores was driven.

## Contents
- **One observation.** `Observed`, `observe_cases`.
- **The samples of a run.** `trail`, the samples with new stamps, newest first; `Follows`, `arcSum`.
- **What a run holds.** `Tracked`, what each kind of sample keeps of it, and `tracked`.
- **The law.** `LapEvidence`, `scored_lap_is_real`.
-/

namespace Lhre.Autonomy

open Trace

variable (hypot : ℚ → ℚ → ℚ) (track : ReferenceTrack) (params : LapParams)

/-! ## One observation -/

/-- A sample that starts a lap. -/
def Starter (s : Stamped) : Prop := s.driving = true ∧ params.startSpeed ≤ s.speed

/-- A sample as `previous` keeps it. -/
def Stamped.passed (s : Stamped) : Passed := ⟨s.x, s.y, s.now, (track.project hypot s.x s.y).arc⟩

/-- The gate a sample sets. -/
def Stamped.gate (s : Stamped) : (ℚ × ℚ) × (ℚ × ℚ) :=
  ((track.project hypot s.x s.y).point, (track.project hypot s.x s.y).tangent)

/-- A sample goes on from the one before it. -/
structure GoesOn (s : Stamped) (p : Passed) : Prop where
  newer : p.now < s.now
  driving : s.driving = true
  gap : s.now - p.now ≤ params.maxGap
  course : chordOnCourse hypot track params p.x p.y s.x s.y = true
  step : |arcStep track (track.project hypot s.x s.y).arc p.arc| ≤
    2 * (hypot (s.x - p.x) (s.y - p.y) + params.corridor) + 1 / 1000000

/-- Where on the chord the gate line is crossed. -/
def crossFraction (gate : (ℚ × ℚ) × (ℚ × ℚ)) (px py x y : ℚ) : ℚ :=
  -gateSide gate px py / (gateSide gate x y - gateSide gate px py)

/-- A chord that crosses the gate, and scores. -/
structure Crosses (gate : (ℚ × ℚ) × (ℚ × ℚ)) (startedAt progress delta : ℚ) (p : Passed) (s : Stamped) : Prop where
  before : gateSide gate p.x p.y < 0
  after : 0 ≤ gateSide gate s.x s.y
  lateral : gateLateral gate p.x p.y s.x s.y (crossFraction gate p.x p.y s.x s.y) ≤ params.gateHalfWidth
  progress : params.minFraction * track.length ≤ progress - (1 - crossFraction gate p.x p.y s.x s.y) * delta
  time : params.minLapTime ≤ p.now + crossFraction gate p.x p.y s.x s.y * (s.now - p.now) - startedAt

/-- What an observation does. -/
inductive Observed (lap : CircuitProgress) (o : Observation) (lap' : CircuitProgress) : Bool → Prop
  | rejects (hinvalid : lap'.invalidReason ≠ none) (hcompleted : lap'.completedAt = lap.completedAt) :
      Observed lap o lap' false
  | spent (hdone : lap.completedAt ≠ none) (hcompleted : lap'.completedAt = lap.completedAt) : Observed lap o lap' false
  | lost (hprevious : lap.previous = none) (hstarted : lap.startedAt ≠ none) (hcompleted : lap'.completedAt = lap.completedAt) :
      Observed lap o lap' false
  | repeats (s : Stamped) (p : Passed) (hfinite : o.finite = some s) (hprevious : lap.previous = some p)
      (hnow : s.now = p.now) (hlap : lap' = lap) : Observed lap o lap' false
  | waits (s : Stamped) (hfinite : o.finite = some s) (hnew : ∀ p, lap.previous = some p → p.now < s.now)
      (hstarted : lap.startedAt = none) (hstarter : ¬ Starter params s)
      (hlap : lap' = { lap with
        gate := some (lap.gate.getD (s.gate hypot track)), previous := some (s.passed hypot track) }) :
      Observed lap o lap' false
  | starts (s : Stamped) (hfinite : o.finite = some s) (hnew : ∀ p, lap.previous = some p → p.now < s.now)
      (hstarted : lap.startedAt = none) (hstarter : Starter params s)
      (hlap : lap' = { lap with
        gate := some (lap.gate.getD (s.gate hypot track)), previous := some (s.passed hypot track)
        startedAt := some s.now }) :
      Observed lap o lap' false
  | counts (s : Stamped) (p : Passed) (startedAt : ℚ) (hfinite : o.finite = some s) (hprevious : lap.previous = some p)
      (hstarted : lap.startedAt = some startedAt) (hgoes : GoesOn hypot track params s p)
      (hlap : lap' = { lap with
        gate := some (lap.gate.getD (s.gate hypot track)), previous := some (s.passed hypot track)
        progress := lap.progress + arcStep track (track.project hypot s.x s.y).arc p.arc }) :
      Observed lap o lap' false
  | scores (s : Stamped) (p : Passed) (startedAt : ℚ) (hfinite : o.finite = some s) (hprevious : lap.previous = some p)
      (hstarted : lap.startedAt = some startedAt) (hvalid : lap.invalidReason = none) (hopen : lap.completedAt = none)
      (hgoes : GoesOn hypot track params s p)
      (hcrosses : Crosses track params (lap.gate.getD (s.gate hypot track)) startedAt
        (lap.progress + arcStep track (track.project hypot s.x s.y).arc p.arc)
        (arcStep track (track.project hypot s.x s.y).arc p.arc) p s)
      (hvalid' : lap'.invalidReason = none)
      (hcompleted : lap'.completedAt = some (p.now +
        crossFraction (lap.gate.getD (s.gate hypot track)) p.x p.y s.x s.y * (s.now - p.now))) :
      Observed lap o lap' true

variable {hypot track params} in
/-- **What an observation can do.** -/
theorem observe_cases (lap : CircuitProgress) (o : Observation) :
    Observed hypot track params lap o (lap.observe hypot track params o).1 (lap.observe hypot track params o).2 := by
  unfold CircuitProgress.observe
  cases hfinite : o.finite with
  | none => exact .rejects (by simp) rfl
  | some s =>
      dsimp only
      split
      · rename_i p hfilter
        rw [Option.filter_eq_some_iff] at hfilter
        obtain ⟨hprevious, hle⟩ := hfilter
        split
        · exact .rejects (by simp) rfl
        · rename_i hnot
          exact .repeats s p hfinite hprevious (le_antisymm (of_decide_eq_true hle) (not_lt.mp hnot)) rfl
      · rename_i hfilter
        have hnew : ∀ p, lap.previous = some p → p.now < s.now := by
          intro p hp
          rw [hp] at hfilter
          by_contra hle
          simp [Option.filter, not_lt.mp hle] at hfilter
        cases hstarted : lap.startedAt with
        | none =>
            dsimp only
            split
            · rename_i hwait
              refine .waits s hfinite hnew hstarted (fun hstarter => ?_) (by rw [hstarted]; rfl)
              simp [hstarter.1, not_lt.mpr hstarter.2] at hwait
            · rename_i hstart
              simp only [Bool.or_eq_true, Bool.not_eq_true', decide_eq_true_eq, not_or, Bool.not_eq_false, not_lt] at hstart
              exact .starts s hfinite hnew hstarted hstart rfl
        | some startedAt =>
            dsimp only
            cases hprevious : lap.previous with
            | none => exact .lost hprevious (by simp [hstarted]) (by cases s.driving <;> rfl)
            | some p =>
                dsimp only
                cases hdriving : s.driving with
                | false =>
                    simp only [Bool.not_false, if_true]
                    rw [if_pos (by simp)]
                    exact .rejects (by simp) rfl
                | true =>
                    simp only [Bool.not_true, Bool.false_eq_true, if_false]
                    split
                    · rename_i hdone
                      rw [Bool.or_eq_true] at hdone
                      rcases hdone with hdone | hdone
                      · exact .spent (Option.isSome_iff_ne_none.mp hdone) rfl
                      · exact .rejects (Option.isSome_iff_ne_none.mp hdone) rfl
                    · rename_i hopen
                      simp only [Bool.or_eq_true, not_or, Bool.not_eq_true, Option.isSome_eq_false_iff,
                        Option.isNone_iff_eq_none] at hopen
                      unfold CircuitProgress.advance
                      dsimp only
                      split
                      · exact .rejects (by simp) rfl
                      · rename_i hgap
                        split
                        · exact .rejects (by simp) rfl
                        · rename_i hstep
                          split
                          · exact .rejects (by simp) rfl
                          · rename_i hcourse
                            have hgoes : GoesOn hypot track params s p :=
                              ⟨hnew p hprevious, hdriving, not_lt.mp hgap, by simpa using hcourse, not_lt.mp hstep⟩
                            split
                            · exact .counts s p startedAt hfinite hprevious hstarted hgoes (by rw [hstarted]; rfl)
                            · unfold CircuitProgress.crossGate
                              dsimp only
                              split
                              · exact .counts s p startedAt hfinite hprevious hstarted hgoes (by rw [hstarted]; rfl)
                              · rename_i hcross
                                rw [not_not] at hcross
                                split
                                · rename_i hscore
                                  exact .scores s p startedAt hfinite hprevious hstarted hopen.2 hopen.1 hgoes
                                    ⟨hcross.1, hcross.2, hscore.1, hscore.2.1, hscore.2.2⟩ hopen.2 rfl
                                · exact .counts s p startedAt hfinite hprevious hstarted hgoes (by rw [hstarted]; rfl)

variable {hypot track params} in
/-- An invalid run stays invalid. -/
theorem valid_before (lap : CircuitProgress) (o : Observation)
    (h : (lap.observe hypot track params o).1.invalidReason = none) : lap.invalidReason = none := by
  revert h
  unfold CircuitProgress.observe CircuitProgress.advance CircuitProgress.crossGate
  dsimp only
  intro h
  by_contra hinvalid
  obtain ⟨reason, hreason⟩ := Option.ne_none_iff_exists'.mp hinvalid
  revert h
  repeat' split
  all_goals simp_all

variable {hypot track params} in
/-- A completed lap stays completed. -/
theorem open_before (lap : CircuitProgress) (o : Observation)
    (h : (lap.observe hypot track params o).1.completedAt = none) : lap.completedAt = none := by
  cases hobserved : (lap.observe hypot track params o).2 with
  | false =>
      have hcases := @observe_cases hypot track params lap o
      rw [hobserved] at hcases
      cases hcases with
      | rejects _ hcompleted => exact hcompleted.symm.trans h
      | spent _ hcompleted => exact hcompleted.symm.trans h
      | lost _ _ hcompleted => exact hcompleted.symm.trans h
      | repeats _ _ _ _ _ hlap => rw [hlap] at h; exact h
      | waits _ _ _ _ _ hlap => rw [hlap] at h; exact h
      | starts _ _ _ _ _ hlap => rw [hlap] at h; exact h
      | counts _ _ _ _ _ _ _ hlap => rw [hlap] at h; exact h
  | true =>
      have hcases := @observe_cases hypot track params lap o
      rw [hobserved] at hcases
      cases hcases with
      | scores _ _ _ _ _ _ _ hopen _ _ _ _ => exact hopen

/-! ## The samples of a run -/

variable (ρ : ℕ → Observation)

/-- The lap after the first `n` observations. -/
def lapAt (n : ℕ) : CircuitProgress := stateAt (fun lap o => (lap.observe hypot track params o).1) {} ρ n

/-- What observation `n` returns. -/
def scoredAt (n : ℕ) : Bool := ((lapAt hypot track params ρ n).observe hypot track params (ρ n)).2

/-- The samples with new stamps among the first `n` observations, newest first. -/
def trail : ℕ → List Stamped
  | 0 => []
  | k + 1 =>
      match (ρ k).finite with
      | none => trail k
      | some s =>
          match (trail k).head? with
          | none => [s]
          | some p => if p.now < s.now then s :: trail k else trail k

/-- The wrapped arc step from one sample to the next. -/
def arcBetween (later earlier : Stamped) : ℚ :=
  arcStep track (track.project hypot later.x later.y).arc (track.project hypot earlier.x earlier.y).arc

/-- The sum of the arc steps over samples, newest first. -/
def arcSum : List Stamped → ℚ
  | later :: earlier :: rest => arcBetween hypot track later earlier + arcSum (earlier :: rest)
  | _ => 0

/-- One sample goes on from another. -/
def Follows (later earlier : Stamped) : Prop := GoesOn hypot track params later (earlier.passed hypot track)

/-! ## What a run holds -/

/-- While a run is valid and not completed, its state is what the samples with new stamps say. -/
structure Tracked (n : ℕ) : Prop where
  previous : (lapAt hypot track params ρ n).previous = (trail ρ n).head?.map (·.passed hypot track)
  gate : (lapAt hypot track params ρ n).gate = (trail ρ n).getLast?.map (·.gate hypot track)
  finite : ∀ k, k < n → ∃ s, (ρ k).finite = some s ∧ ∀ p, (trail ρ k).head? = some p → p.now ≤ s.now
  waiting : (lapAt hypot track params ρ n).startedAt = none →
    (lapAt hypot track params ρ n).progress = 0 ∧ ∀ s ∈ trail ρ n, ¬ Starter params s
  started : ∀ startedAt, (lapAt hypot track params ρ n).startedAt = some startedAt →
    ∃ lap before start, trail ρ n = lap ++ before ∧ lap.getLast? = some start ∧ Starter params start ∧
      startedAt = start.now ∧ (∀ s ∈ before, ¬ Starter params s) ∧ lap.IsChain (Follows hypot track params) ∧
      (lapAt hypot track params ρ n).progress = arcSum hypot track lap

section Run

variable {hypot track params ρ}

theorem lapAt_succ (n : ℕ) :
    lapAt hypot track params ρ (n + 1) = ((lapAt hypot track params ρ n).observe hypot track params (ρ n)).1 := rfl

theorem trail_new {n : ℕ} {s : Stamped} (hfinite : (ρ n).finite = some s)
    (hnew : ∀ p, (trail ρ n).head? = some p → p.now < s.now) : trail ρ (n + 1) = s :: trail ρ n := by
  rw [trail, hfinite]
  dsimp only
  split
  · rename_i hnone
    rw [List.head?_eq_none_iff.mp hnone]
  · rename_i p hp
    rw [if_pos (hnew p hp)]

theorem trail_repeated {n : ℕ} {s p : Stamped} (hfinite : (ρ n).finite = some s) (hhead : (trail ρ n).head? = some p)
    (hold : s.now ≤ p.now) : trail ρ (n + 1) = trail ρ n := by
  rw [trail, hfinite]
  dsimp only
  rw [hhead]
  exact if_neg (not_lt.mpr hold)

/-- The gate is that of the first sample. -/
theorem gate_cons {β : Type*} (f : Stamped → β) (s : Stamped) (l : List Stamped) :
    some ((l.getLast?.map f).getD (f s)) = (s :: l).getLast?.map f := by
  cases l with
  | nil => rfl
  | cons a l =>
      rw [List.getLast?_cons_cons]
      obtain ⟨last, hlast⟩ : ∃ last, (a :: l).getLast? = some last :=
        Option.ne_none_iff_exists'.mp (by simp)
      rw [hlast]
      rfl

/-- A sample newer than `previous` is new in the trail. -/
theorem Tracked.new {n : ℕ} (h : Tracked hypot track params ρ n) {s : Stamped}
    (hnew : ∀ p, (lapAt hypot track params ρ n).previous = some p → p.now < s.now) {p : Stamped}
    (hp : (trail ρ n).head? = some p) : p.now < s.now :=
  hnew (p.passed hypot track) (by rw [h.previous, hp]; rfl)

/-- What a new sample adds to the trail, the gate and the previous sample. -/
theorem Tracked.add {n : ℕ} (h : Tracked hypot track params ρ n) {s : Stamped} (hfinite : (ρ n).finite = some s)
    (hnew : ∀ p, (lapAt hypot track params ρ n).previous = some p → p.now < s.now) :
    trail ρ (n + 1) = s :: trail ρ n ∧
      some (s.passed hypot track) = (trail ρ (n + 1)).head?.map (·.passed hypot track) ∧
      some ((lapAt hypot track params ρ n).gate.getD (s.gate hypot track)) =
        (trail ρ (n + 1)).getLast?.map (·.gate hypot track) ∧
      ∀ k, k < n + 1 → ∃ s, (ρ k).finite = some s ∧ ∀ p, (trail ρ k).head? = some p → p.now ≤ s.now := by
  have htrail := trail_new hfinite fun p hp => h.new hnew hp
  refine ⟨htrail, by rw [htrail]; rfl, ?_, ?_⟩
  · rw [htrail, h.gate]
    exact gate_cons _ s _
  · intro k hk
    rcases Nat.lt_or_eq_of_le (Nat.le_of_lt_succ hk) with hlt | rfl
    · exact h.finite k hlt
    · exact ⟨s, hfinite, fun p hp => (h.new hnew hp).le⟩

/-- A repeated sample changes nothing. -/
theorem Tracked.repeats {n : ℕ} (h : Tracked hypot track params ρ n) {s : Stamped} {p : Passed}
    (hfinite : (ρ n).finite = some s) (hprevious : (lapAt hypot track params ρ n).previous = some p)
    (hnow : s.now = p.now) (hlap : lapAt hypot track params ρ (n + 1) = lapAt hypot track params ρ n) :
    Tracked hypot track params ρ (n + 1) := by
  obtain ⟨q, hq, hqp⟩ : ∃ q, (trail ρ n).head? = some q ∧ q.passed hypot track = p := by
    rw [h.previous] at hprevious
    exact Option.map_eq_some_iff.mp hprevious
  have hsame : q.now = s.now := by
    rw [hnow, ← hqp]
    rfl
  have htrail := trail_repeated hfinite hq hsame.ge
  refine ⟨?_, ?_, ?_, ?_, ?_⟩
  · rw [hlap, htrail]
    exact h.previous
  · rw [hlap, htrail]
    exact h.gate
  · intro k hk
    rcases Nat.lt_or_eq_of_le (Nat.le_of_lt_succ hk) with hlt | rfl
    · exact h.finite k hlt
    · refine ⟨s, hfinite, fun p' hp' => ?_⟩
      obtain rfl : q = p' := Option.some.inj (hq.symm.trans hp')
      exact hsame.le
  · rw [hlap, htrail]
    exact h.waiting
  · rw [hlap, htrail]
    exact h.started

/-- A sample that starts no lap is one more to wait for. -/
theorem Tracked.waits {n : ℕ} (h : Tracked hypot track params ρ n) {s : Stamped} (hfinite : (ρ n).finite = some s)
    (hnew : ∀ p, (lapAt hypot track params ρ n).previous = some p → p.now < s.now)
    (hstarted : (lapAt hypot track params ρ n).startedAt = none) (hstarter : ¬ Starter params s)
    (hlap : lapAt hypot track params ρ (n + 1) = { lapAt hypot track params ρ n with
      gate := some ((lapAt hypot track params ρ n).gate.getD (s.gate hypot track))
      previous := some (s.passed hypot track) }) :
    Tracked hypot track params ρ (n + 1) := by
  obtain ⟨htrail, hprevious, hgate, hfin⟩ := h.add hfinite hnew
  refine ⟨?_, ?_, hfin, ?_, ?_⟩
  · rw [hlap]
    exact hprevious
  · rw [hlap]
    exact hgate
  · intro _
    obtain ⟨hzero, hno⟩ := h.waiting hstarted
    rw [hlap, htrail]
    exact ⟨hzero, fun t ht => (List.mem_cons.mp ht).elim (fun heq => heq ▸ hstarter) (hno t)⟩
  · intro startedAt hstartedAt
    rw [hlap] at hstartedAt
    exact absurd (hstarted.symm.trans hstartedAt) (by simp)

/-- The first sample that starts a lap is the lap so far. -/
theorem Tracked.starts {n : ℕ} (h : Tracked hypot track params ρ n) {s : Stamped} (hfinite : (ρ n).finite = some s)
    (hnew : ∀ p, (lapAt hypot track params ρ n).previous = some p → p.now < s.now)
    (hstarted : (lapAt hypot track params ρ n).startedAt = none) (hstarter : Starter params s)
    (hlap : lapAt hypot track params ρ (n + 1) = { lapAt hypot track params ρ n with
      gate := some ((lapAt hypot track params ρ n).gate.getD (s.gate hypot track))
      previous := some (s.passed hypot track)
      startedAt := some s.now }) :
    Tracked hypot track params ρ (n + 1) := by
  obtain ⟨htrail, hprevious, hgate, hfin⟩ := h.add hfinite hnew
  refine ⟨?_, ?_, hfin, ?_, ?_⟩
  · rw [hlap]
    exact hprevious
  · rw [hlap]
    exact hgate
  · intro hnone
    rw [hlap] at hnone
    exact nomatch hnone
  · intro startedAt hstartedAt
    rw [hlap] at hstartedAt
    obtain rfl := Option.some.inj hstartedAt
    obtain ⟨hzero, hno⟩ := h.waiting hstarted
    refine ⟨[s], trail ρ n, s, htrail, rfl, hstarter, rfl, hno, List.isChain_singleton s, ?_⟩
    rw [hlap]
    exact hzero

/-- A sample that goes on from the last one of the lap adds its step. -/
theorem Tracked.counts {n : ℕ} (h : Tracked hypot track params ρ n) {s : Stamped} {p : Passed} {startedAt : ℚ}
    (hfinite : (ρ n).finite = some s) (hprevious : (lapAt hypot track params ρ n).previous = some p)
    (hstarted : (lapAt hypot track params ρ n).startedAt = some startedAt) (hgoes : GoesOn hypot track params s p)
    (hlap : lapAt hypot track params ρ (n + 1) = { lapAt hypot track params ρ n with
      gate := some ((lapAt hypot track params ρ n).gate.getD (s.gate hypot track))
      previous := some (s.passed hypot track)
      progress := (lapAt hypot track params ρ n).progress + arcStep track (track.project hypot s.x s.y).arc p.arc }) :
    Tracked hypot track params ρ (n + 1) := by
  have hnew : ∀ p, (lapAt hypot track params ρ n).previous = some p → p.now < s.now := by
    intro p' hp'
    obtain rfl : p = p' := Option.some.inj (hprevious.symm.trans hp')
    exact hgoes.newer
  obtain ⟨htrail, hprevious', hgate, hfin⟩ := h.add hfinite hnew
  refine ⟨?_, ?_, hfin, ?_, ?_⟩
  · rw [hlap]
    exact hprevious'
  · rw [hlap]
    exact hgate
  · intro hnone
    rw [hlap] at hnone
    exact absurd (hstarted.symm.trans hnone) (by simp)
  · intro startedAt' hstartedAt'
    rw [hlap] at hstartedAt'
    obtain ⟨lap, before, start, hsplit, hlast, hstarter, htime, hno, hchain, hsum⟩ := h.started startedAt' hstartedAt'
    -- The sample before this one is the newest of the lap so far.
    obtain ⟨q, rest, rfl⟩ : ∃ q rest, lap = q :: rest := by
      cases lap with
      | nil => exact nomatch hlast
      | cons q rest => exact ⟨q, rest, rfl⟩
    have hq : q.passed hypot track = p := by
      rw [h.previous, hsplit] at hprevious
      exact Option.some.inj hprevious
    refine ⟨s :: q :: rest, before, start, by rw [htrail, hsplit]; rfl, ?_, hstarter, htime, hno, ?_, ?_⟩
    · rw [List.getLast?_cons_cons]
      exact hlast
    · refine List.isChain_cons_cons.mpr ⟨?_, hchain⟩
      show GoesOn hypot track params s (q.passed hypot track)
      rw [hq]
      exact hgoes
    · rw [hlap, arcSum, ← hsum, ← hq, add_comm]
      rfl

/-- **While a run is valid and not completed,** its state is what the samples with new stamps say. -/
theorem tracked (n : ℕ) (hvalid : (lapAt hypot track params ρ n).invalidReason = none)
    (hopen : (lapAt hypot track params ρ n).completedAt = none) : Tracked hypot track params ρ n := by
  induction n with
  | zero =>
      exact ⟨rfl, rfl, fun k hk => absurd hk (Nat.not_lt_zero k), fun _ => ⟨rfl, fun s hs => nomatch hs⟩,
        fun _ h => nomatch h⟩
  | succ n ih =>
      have h := ih (valid_before _ _ hvalid) (open_before _ _ hopen)
      have hcases := @observe_cases hypot track params (lapAt hypot track params ρ n) (ρ n)
      rw [← lapAt_succ] at hcases
      generalize hout : ((lapAt hypot track params ρ n).observe hypot track params (ρ n)).2 = out at hcases
      cases hcases with
      | rejects hinvalid _ => exact absurd hvalid hinvalid
      | spent hdone _ => exact absurd (open_before _ _ hopen) hdone
      | lost hprevious hstarted _ =>
          obtain ⟨startedAt, hstartedAt⟩ := Option.ne_none_iff_exists'.mp hstarted
          obtain ⟨lap, before, start, htrail, hlast, -⟩ := h.started startedAt hstartedAt
          rw [h.previous, htrail] at hprevious
          cases lap with
          | nil => exact nomatch hlast
          | cons a lap => exact nomatch hprevious
      | repeats s p hfinite hprevious hnow hlap => exact h.repeats hfinite hprevious hnow hlap
      | waits s hfinite hnew hstarted hstarter hlap => exact h.waits hfinite hnew hstarted hstarter hlap
      | starts s hfinite hnew hstarted hstarter hlap => exact h.starts hfinite hnew hstarted hstarter hlap
      | counts s p startedAt hfinite hprevious hstarted hgoes hlap =>
          exact h.counts hfinite hprevious hstarted hgoes hlap
      | scores s p startedAt _ _ _ _ _ _ _ _ hcompleted => exact absurd (hcompleted.symm.trans hopen) (by simp)

end Run

/-! ## The law -/

/-- What stands behind a scored lap: the samples with new stamps from the start to the crossing, newest first. -/
structure LapEvidence (n : ℕ) (last prev : Stamped) (rest before : List Stamped) (start first : Stamped) (crossed : ℚ) :
    Prop where
  /-- Every observation so far is finite, and none went back behind the newest stamp. -/
  finite : ∀ k, k ≤ n → ∃ s, (ρ k).finite = some s ∧ ∀ p, (trail ρ k).head? = some p → p.now ≤ s.now
  observed : (ρ n).finite = some last
  samples : trail ρ (n + 1) = last :: prev :: rest ++ before
  /-- The oldest of the lap is the first sample that starts one. -/
  oldest : (last :: prev :: rest).getLast? = some start
  starter : Starter params start
  first_starter : ∀ s ∈ before, ¬ Starter params s
  /-- Each sample goes on from the one before it. -/
  chain : (last :: prev :: rest).IsChain (Follows hypot track params)
  driving : ∀ s ∈ last :: prev :: rest, s.driving = true
  course : ∀ s ∈ last :: prev :: rest, isOnCourse hypot track params s.x s.y = true
  /-- The last chord crosses the gate that the first sample set, with enough progress and time. -/
  oldest_of_all : (trail ρ (n + 1)).getLast? = some first
  crosses : Crosses track params (first.gate hypot track) start.now (arcSum hypot track (last :: prev :: rest))
    (arcBetween hypot track last prev) (prev.passed hypot track) last
  completed : (lapAt hypot track params ρ (n + 1)).completedAt = some crossed
  between : prev.now ≤ crossed ∧ crossed ≤ last.now
  time : params.minLapTime ≤ crossed - start.now

/-- When `observe` returns `True`. -/
structure LapLaw : Prop where
  once : ∀ m n, scoredAt hypot track params ρ m = true → scoredAt hypot track params ρ n = true → m = n
  valid : ∀ n, scoredAt hypot track params ρ n = true →
    ∀ k, k ≤ n + 1 → (lapAt hypot track params ρ k).invalidReason = none
  real : ∀ n, scoredAt hypot track params ρ n = true →
    ∃ last prev rest before start first crossed,
      LapEvidence hypot track params ρ n last prev rest before start first crossed

section Law

variable {hypot track params ρ}

/-- What an observation that scores says. -/
theorem scored_cases {n : ℕ} (h : scoredAt hypot track params ρ n = true) :
    Observed hypot track params (lapAt hypot track params ρ n) (ρ n) (lapAt hypot track params ρ (n + 1)) true := by
  have hcases := @observe_cases hypot track params (lapAt hypot track params ρ n) (ρ n)
  rw [← lapAt_succ] at hcases
  have hout : ((lapAt hypot track params ρ n).observe hypot track params (ρ n)).2 = true := h
  rw [hout] at hcases
  exact hcases

theorem scored_open {n : ℕ} (h : scoredAt hypot track params ρ n = true) :
    (lapAt hypot track params ρ n).completedAt = none ∧ (lapAt hypot track params ρ (n + 1)).completedAt ≠ none := by
  cases scored_cases h with
  | scores _ _ _ _ _ _ _ hopen _ _ _ hcompleted =>
      refine ⟨hopen, ?_⟩
      rw [hcompleted]
      exact Option.some_ne_none _

/-- A completed lap stays completed over a run. -/
theorem completed_later {m n : ℕ} (hmn : m ≤ n) (h : (lapAt hypot track params ρ m).completedAt ≠ none) :
    (lapAt hypot track params ρ n).completedAt ≠ none :=
  holds_until (P := fun n => (lapAt hypot track params ρ n).completedAt ≠ none) (R := fun _ => False)
    (fun _ hk _ hnone => hk (open_before _ _ hnone)) hmn h fun _ _ _ => id

/-- A valid run was valid before. -/
theorem valid_earlier {k n : ℕ} (hkn : k ≤ n) (h : (lapAt hypot track params ρ n).invalidReason = none) :
    (lapAt hypot track params ρ k).invalidReason = none := by
  by_contra hinvalid
  exact holds_until (P := fun n => (lapAt hypot track params ρ n).invalidReason ≠ none) (R := fun _ => False)
    (fun _ hk _ hnone => hk (valid_before _ _ hnone)) hkn hinvalid (fun _ _ _ => id) h

/-- A sample that something goes on from, and the one that goes on, are on course. -/
theorem GoesOn.both_on_course {s p : Stamped} (h : Follows hypot track params s p) :
    isOnCourse hypot track params s.x s.y = true ∧ isOnCourse hypot track params p.x p.y = true := by
  have hcourse := h.course
  unfold chordOnCourse at hcourse
  dsimp only at hcourse
  rw [Bool.and_eq_true, List.all_eq_true] at hcourse
  refine ⟨hcourse.1, ?_⟩
  -- The first point of the chord is its beginning.
  have hzero := hcourse.2 0 (List.mem_range.mpr (lt_of_lt_of_le Nat.zero_lt_one (le_max_left _ _)))
  simpa [chordPoint, Stamped.passed] using hzero

/-- All samples of a lap are driving and on course. -/
theorem chain_driven {start : Stamped} (lap : List Stamped) (hchain : lap.IsChain (Follows hypot track params))
    (hlast : lap.getLast? = some start) (hstarter : Starter params start) : ∀ s ∈ lap, s.driving = true := by
  induction lap with
  | nil => exact fun s hs => nomatch hs
  | cons a lap ih =>
      cases lap with
      | nil =>
          intro s hs
          obtain rfl := List.mem_singleton.mp hs
          obtain rfl : s = start := Option.some.inj hlast
          exact hstarter.1
      | cons b lap =>
          rw [List.getLast?_cons_cons] at hlast
          obtain ⟨hfollows, hchain⟩ := List.isChain_cons_cons.mp hchain
          intro s hs
          rcases List.mem_cons.mp hs with rfl | hs
          · exact hfollows.driving
          · exact ih hchain hlast s hs

theorem chain_on_course (a b : Stamped) (lap : List Stamped) (hchain : (a :: b :: lap).IsChain (Follows hypot track params)) :
    ∀ s ∈ a :: b :: lap, isOnCourse hypot track params s.x s.y = true := by
  induction lap generalizing a b with
  | nil =>
      have hboth := GoesOn.both_on_course (List.isChain_cons_cons.mp hchain).1
      intro s hs
      rcases (by simpa using hs : s = a ∨ s = b) with rfl | rfl
      · exact hboth.1
      · exact hboth.2
  | cons c lap ih =>
      obtain ⟨hfollows, hchain⟩ := List.isChain_cons_cons.mp hchain
      intro s hs
      rcases List.mem_cons.mp hs with rfl | hs
      · exact (GoesOn.both_on_course hfollows).1
      · exact ih b c hchain s hs

/-- The crossing is on the chord. -/
theorem crossFraction_mem {gate : (ℚ × ℚ) × (ℚ × ℚ)} {px py x y : ℚ} (hbefore : gateSide gate px py < 0)
    (hafter : 0 ≤ gateSide gate x y) :
    0 ≤ crossFraction gate px py x y ∧ crossFraction gate px py x y ≤ 1 := by
  have hspan : 0 < gateSide gate x y - gateSide gate px py := by linarith
  exact ⟨div_nonneg (by linarith) hspan.le, (div_le_one hspan).mpr (by linarith)⟩

/-- **What stands behind a scored lap.** -/
theorem evidence_of_scored {n : ℕ} (h : scoredAt hypot track params ρ n = true) :
    ∃ last prev rest before start first crossed,
      LapEvidence hypot track params ρ n last prev rest before start first crossed := by
  cases scored_cases h with
  | scores s p startedAt hfinite hprevious hstarted hvalid hopen hgoes hcrosses hvalid' hcompleted =>
      have htracked := tracked n hvalid hopen
      have hnew : ∀ p, (lapAt hypot track params ρ n).previous = some p → p.now < s.now := by
        intro p' hp'
        obtain rfl : p = p' := Option.some.inj (hprevious.symm.trans hp')
        exact hgoes.newer
      obtain ⟨htrail, -, hgate, hfin⟩ := htracked.add hfinite hnew
      obtain ⟨lap, before, start, hsplit, hlast, hstarter, htime, hno, hchain, hsum⟩ := htracked.started startedAt hstarted
      obtain ⟨q, rest, rfl⟩ : ∃ q rest, lap = q :: rest := by
        cases lap with
        | nil => exact nomatch hlast
        | cons q rest => exact ⟨q, rest, rfl⟩
      have hq : q.passed hypot track = p := by
        rw [htracked.previous, hsplit] at hprevious
        exact Option.some.inj hprevious
      have hfollows : Follows hypot track params s q := by
        show GoesOn hypot track params s (q.passed hypot track)
        rw [hq]
        exact hgoes
      have hchain' : (s :: q :: rest).IsChain (Follows hypot track params) :=
        List.isChain_cons_cons.mpr ⟨hfollows, hchain⟩
      have hlast' : (s :: q :: rest).getLast? = some start := by
        rw [List.getLast?_cons_cons]
        exact hlast
      obtain ⟨first, hfirst⟩ : ∃ first, (trail ρ (n + 1)).getLast? = some first := by
        rw [htrail]
        exact Option.ne_none_iff_exists'.mp (by simp)
      have hgate' : (lapAt hypot track params ρ n).gate.getD (s.gate hypot track) = first.gate hypot track := by
        rw [hfirst] at hgate
        exact Option.some.inj hgate
      have hsum' : arcSum hypot track (s :: q :: rest) =
          (lapAt hypot track params ρ n).progress + arcStep track (track.project hypot s.x s.y).arc p.arc := by
        rw [arcSum, ← hsum, ← hq, add_comm]
        rfl
      have hcrosses' : Crosses track params (first.gate hypot track) start.now (arcSum hypot track (s :: q :: rest))
          (arcBetween hypot track s q) (q.passed hypot track) s := by
        rw [hsum', ← hgate', ← htime, hq]
        have hbetween : arcBetween hypot track s q = arcStep track (track.project hypot s.x s.y).arc p.arc := by
          rw [← hq]
          rfl
        rw [hbetween]
        exact hcrosses
      rw [hgate', ← hq] at hcompleted
      obtain ⟨hnonneg, hle⟩ := crossFraction_mem hcrosses'.before hcrosses'.after
      have hspan : 0 ≤ s.now - q.now := sub_nonneg.mpr hfollows.newer.le
      refine ⟨s, q, rest, before, start, first, _, ?_, hfinite, ?_, hlast', hstarter, hno, hchain',
        chain_driven _ hchain' hlast' hstarter, chain_on_course _ _ _ hchain', hfirst, hcrosses', hcompleted, ?_, ?_⟩
      · exact fun k hk => hfin k (Nat.lt_succ_of_le hk)
      · rw [htrail, hsplit]
        rfl
      · show q.now ≤ q.now + _ * (s.now - q.now) ∧ q.now + _ * (s.now - q.now) ≤ s.now
        constructor
        · exact le_add_of_nonneg_right (mul_nonneg hnonneg hspan)
        · have := mul_le_of_le_one_left hspan hle
          linarith
      · exact hcrosses'.time

end Law

/-- **A scored lap is a real lap.** -/
theorem scored_lap_is_real : LapLaw hypot track params ρ where
  once m n hm hn := by
    by_contra hne
    rcases Nat.lt_or_gt_of_ne hne with hlt | hlt
    · exact completed_later hlt (scored_open hm).2 (scored_open hn).1
    · exact completed_later hlt (scored_open hn).2 (scored_open hm).1
  valid n h k hk := by
    cases scored_cases h with
    | scores _ _ _ _ _ _ _ _ _ _ hvalid' _ => exact valid_earlier hk hvalid'
  real _ h := evidence_of_scored h

/-! ## The tolerance of a step -/

/-- `hypot` where one of its arguments is zero. -/
def axisHypot (x y : ℚ) : ℚ := |x| + |y|

/-- The reference around a square of 10 m. -/
def squarePoints : List (List (Option ℚ)) :=
  [[some 0, some 0], [some 10, some 0], [some 10, some 10], [some 0, some 10]]

/-- That reference. -/
def squareTrack : ReferenceTrack where
  points := [(0, 0), (10, 0), (10, 10), (0, 10)]
  closed := true
  segments := [⟨(0, 0), 10, 0, 10, 0⟩, ⟨(10, 0), 0, 10, 10, 10⟩, ⟨(10, 10), -10, 0, 10, 20⟩, ⟨(0, 10), 0, -10, 10, 30⟩]
  length := 40
  segments_ne := List.cons_ne_nil _ _

theorem squareTrack_built : ReferenceTrack.build axisHypot squarePoints true = .ok squareTrack := by
  have hpairs : squarePoints.mapM xyPair = some squareTrack.points := by decide
  have hclean : cleanPoints squareTrack.points = squareTrack.points := by decide
  have harea : ¬ |twiceArea squareTrack.points| < 1 / 1000000000 := by decide +kernel
  have hsegments : segmentsFrom axisHypot 0 (squareTrack.points.zip (squareTrack.points.tail ++ squareTrack.points.take 1)) =
      squareTrack.segments := by decide +kernel
  have hlength : (squareTrack.segments.map (·.length)).sum = squareTrack.length := by decide +kernel
  unfold ReferenceTrack.build
  rw [hpairs]
  dsimp only
  rw [hclean, if_neg (by decide), if_neg (fun h => harea h.2), if_pos rfl]
  simp only [hsegments]
  rw [dif_pos squareTrack.segments_ne, hlength]
  rfl

/-- A car that drives by at a time. -/
def drivingBy (x y now : ℚ) : Observation := ⟨some x, some y, some now, some 5, true⟩

/-- A lap inside the square, which moves to the next side by a hair more than the corridor allows. -/
def insideLap : ℕ → Observation :=
  ofList
    [drivingBy 5 0 0, drivingBy (15 / 2) 0 1, drivingBy (15 / 2) (23 / 10) 2, drivingBy (15 / 2) (3099999 / 1000000) 3,
      drivingBy (15 / 2) 10 4, drivingBy (5 / 2) 10 5, drivingBy (5 / 2) 0 6, drivingBy (15 / 2) 0 7]
    (drivingBy (15 / 2) 0 7)

/-- **A step may exceed twice the distance and corridor,** by the tolerance of the check. -/
theorem not_step_within_corridor :
    ¬ ∀ (hypot : ℚ → ℚ → ℚ) (points : List (List (Option ℚ))) (track : ReferenceTrack) (params : LapParams)
      (ρ : ℕ → Observation) (n : ℕ), ReferenceTrack.build hypot points true = .ok track → params.check = .ok () →
      scoredAt hypot track params ρ n = true →
      ∃ lap before start, trail ρ (n + 1) = lap ++ before ∧ lap.getLast? = some start ∧ Starter params start ∧
        (∀ s ∈ before, ¬ Starter params s) ∧
        lap.IsChain fun later earlier => |arcBetween hypot track later earlier| ≤
          2 * (hypot (later.x - earlier.x) (later.y - earlier.y) + params.corridor) := by
  intro hall
  obtain ⟨lap, before, start, hsplit, -, -, hno, hchain⟩ :=
    hall axisHypot squarePoints squareTrack { onCourse := some fun _ _ => true } insideLap 7 squareTrack_built
      (by norm_num [LapParams.check]) (by decide +kernel)
  have hstarters : ∀ s ∈ trail insideLap 8, s.driving = true ∧ 1 / 10 ≤ s.speed := by decide +kernel
  -- Every sample could start the lap, so the lap goes back to the first one.
  have hbefore : before = [] := by
    refine List.eq_nil_iff_forall_not_mem.mpr fun s hs => hno s hs (hstarters s ?_)
    rw [hsplit]
    exact List.mem_append_right lap hs
  rw [hbefore, List.append_nil] at hsplit
  rw [← hsplit] at hchain
  revert hchain
  decide +kernel

end Lhre.Autonomy
