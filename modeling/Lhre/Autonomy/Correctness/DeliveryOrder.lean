import Mathlib.Data.List.TakeWhile
import Lhre.Autonomy.Alignment

/-!
# `Autonomy.Correctness.DeliveryOrder` — the error of an estimate does not depend on when it is delivered

Truth and estimates are two streams with ascending stamps, delivered interleaved. What the aligner holds is a function of what
was delivered: the truth within the horizon, and the estimates past all truth.

## Contents
- **The law.** `score`, `Waits`, `Covered`, `Delivers`.
- **Truth within the horizon.** `kept`, `mem_kept`, `kept_concat`.
- **One estimate.** `interpolate_eq`, `score_kept`.
- **One delivery.** `drain_eq`, `Reached`, `Reached.truth`, `Reached.estimate`.
- **`order_independent`.**
-/

set_option linter.unusedSectionVars false

namespace Lhre.Autonomy.Alignment

/-! ## The law -/

section Spec

variable {K : Type} [Field K] [LinearOrder K] (hypot : K → K → K) (wrap : K → K)

def truthsOf (events : List (Event K)) : List (Sample K) :=
  events.filterMap fun
    | .truth t => some t
    | .estimate _ => none

def estimatesOf (events : List (Event K)) : List (Sample K) :=
  events.filterMap fun
    | .truth _ => none
    | .estimate e => some e

/-- Samples with strictly increasing stamps. -/
abbrev Ascending (samples : List (Sample K)) : Prop := samples.Pairwise fun a b => a.stamp < b.stamp

/-- The last truth sample that is not past a stamp. -/
def left (truths : List (Sample K)) (stamp : K) : Option (Sample K) :=
  (truths.filter fun t => decide (t.stamp ≤ stamp)).getLast?

/-- The first truth sample at or past a stamp. -/
def right (truths : List (Sample K)) (stamp : K) : Option (Sample K) := truths.find? fun t => decide (stamp ≤ t.stamp)

/-- The error of an estimate against the whole truth: linear between the two samples that bracket its stamp. -/
def score (truths : List (Sample K)) (e : Sample K) : Option (K × K) :=
  (left truths e.stamp).bind fun a => (right truths e.stamp).map fun b => error hypot wrap e (lerp wrap a b e.stamp)

/-- When `e` is delivered, no estimate has waited for truth for more than the horizon. -/
def Waits (horizon : K) (before : List (Event K)) (e : Sample K) : Prop :=
  ∀ q ∈ estimatesOf before, (∀ t ∈ truthsOf before, t.stamp < q.stamp) → e.stamp - q.stamp ≤ horizon

/-- When `e` is delivered, the truth sample before its stamp is not older than the horizon. -/
def Covered (horizon : K) (before : List (Event K)) (e : Sample K) : Prop :=
  ∀ newest ∈ (truthsOf before).getLast?, ∀ a ∈ left (truthsOf before) e.stamp, newest.stamp - a.stamp ≤ horizon

/-- When `e` is delivered, its own stamp is not older than the horizon. -/
def Near (horizon : K) (before : List (Event K)) (e : Sample K) : Prop :=
  ∀ newest ∈ (truthsOf before).getLast?, newest.stamp - e.stamp ≤ horizon

/-- An interleaving of two streams, with each estimate on time. -/
structure Delivers (onTime : List (Event K) → Sample K → Prop) (truths estimates : List (Sample K)) (events : List (Event K)) :
    Prop where
  truths : truthsOf events = truths
  estimates : estimatesOf events = estimates
  onTime : ∀ before e after, events = before ++ .estimate e :: after → onTime before e

end Spec

variable {K : Type} [Field K] [LinearOrder K] [IsStrictOrderedRing K] {hypot : K → K → K} {wrap : K → K} {horizon : K}

/-! ## Truth within the horizon -/

section Kept

variable {ts : List (Sample K)}

/-- The truth that is not older than the horizon. -/
def kept (horizon : K) (ts : List (Sample K)) : List (Sample K) :=
  ts.dropWhile fun t => ts.getLast?.any fun newest => decide (t.stamp < newest.stamp - horizon)

/-- The newest sample is past all others. -/
theorem le_getLast (hts : Ascending ts) {newest t : Sample K} (hnewest : newest ∈ ts.getLast?) (ht : t ∈ ts) :
    t.stamp ≤ newest.stamp := by
  obtain ⟨front, rfl⟩ := List.getLast?_eq_some_iff.mp hnewest
  rcases List.mem_append.mp ht with hfront | hlast
  · exact ((List.pairwise_append.mp hts).2.2 t hfront newest (by simp)).le
  · rw [List.mem_singleton.mp hlast]

/-- What is dropped is older than the horizon, what is kept is not. -/
theorem kept_split (horizon : K) (hts : Ascending ts) : ∃ dropped, ts = dropped ++ kept horizon ts ∧
    (∀ d ∈ dropped, ∀ newest ∈ ts.getLast?, d.stamp < newest.stamp - horizon) ∧
    ∀ d ∈ dropped, ∀ t ∈ kept horizon ts, d.stamp < t.stamp := by
  refine ⟨_, (List.takeWhile_append_dropWhile).symm, ?_, ?_⟩
  · intro d hd newest hnewest
    have hold := List.mem_takeWhile_imp hd
    rw [Option.mem_def.mp hnewest] at hold
    simpa using hold
  · intro d hd t ht
    rw [Ascending, ← List.takeWhile_append_dropWhile
      (p := fun t => ts.getLast?.any fun newest => decide (t.stamp < newest.stamp - horizon)) (l := ts)] at hts
    exact (List.pairwise_append.mp hts).2.2 d hd t ht

theorem mem_kept (hts : Ascending ts) {t newest : Sample K} (ht : t ∈ ts) (hnewest : newest ∈ ts.getLast?)
    (hrecent : newest.stamp - t.stamp ≤ horizon) : t ∈ kept horizon ts := by
  obtain ⟨dropped, heq, hold, -⟩ := kept_split horizon hts
  rw [heq] at ht
  rcases List.mem_append.mp ht with hdropped | hkept
  · have := hold t hdropped newest hnewest
    linarith
  · exact hkept

/-- The newest sample is kept. -/
theorem getLast_kept (hh : 0 ≤ horizon) (hts : Ascending ts) : (kept horizon ts).getLast? = ts.getLast? := by
  cases hlast : ts.getLast? with
  | none =>
      rw [List.getLast?_eq_none_iff] at hlast
      subst hlast
      rfl
  | some newest =>
      have hmem : newest ∈ kept horizon ts := mem_kept hts (List.mem_of_getLast? hlast) hlast (by linarith)
      obtain ⟨dropped, heq, -, -⟩ := kept_split horizon hts
      have happ := hlast
      rw [heq, List.getLast?_append] at happ
      cases hkept : (kept horizon ts).getLast? with
      | none =>
          rw [List.getLast?_eq_none_iff.mp hkept] at hmem
          cases hmem
      | some last =>
          rw [hkept] at happ
          exact happ

theorem dropWhile_eq_self {α : Type} {p : α → Bool} {l : List α} (h : ∀ a ∈ l, p a = false) : l.dropWhile p = l := by
  cases l with
  | nil => rfl
  | cons a l => rw [List.dropWhile_cons_of_neg (by simp [h a])]

/-- One more sample: only what was kept can still be kept. -/
theorem kept_concat {t : Sample K} (hts : Ascending (ts ++ [t])) :
    (kept horizon ts ++ [t]).dropWhile (fun sample => decide (sample.stamp < t.stamp - horizon)) =
      kept horizon (ts ++ [t]) := by
  obtain ⟨hbefore, -, hnewest⟩ := List.pairwise_append.mp hts
  obtain ⟨dropped, heq, hold, -⟩ := kept_split horizon hbefore
  have hpred : kept horizon (ts ++ [t]) =
      (ts ++ [t]).dropWhile fun sample => decide (sample.stamp < t.stamp - horizon) := by
    simp [kept]
  have hdropped : ∀ d ∈ dropped, decide (d.stamp < t.stamp - horizon) = true := by
    intro d hd
    cases hlast : ts.getLast? with
    | none =>
        rw [List.getLast?_eq_none_iff] at hlast
        rw [hlast] at heq
        rw [(List.append_eq_nil_iff.mp heq.symm).1] at hd
        cases hd
    | some newest =>
        have hd' := hold d hd newest hlast
        have ht := hnewest newest (List.mem_of_getLast? hlast) t (by simp)
        exact decide_eq_true (by linarith)
  rw [hpred]
  conv_rhs => rw [heq, List.append_assoc]
  exact (List.dropWhile_append_of_pos hdropped).symm

end Kept

/-! ## One estimate -/

section Score

variable {ts : List (Sample K)} {s : K}

theorem mem_left {a : Sample K} (h : a ∈ left ts s) : a ∈ ts ∧ a.stamp ≤ s := by
  have := List.mem_of_getLast? h
  simpa using this

theorem left_eq_none : left ts s = none ↔ ∀ t ∈ ts, s < t.stamp := by
  simp [left]

theorem right_eq_none : right ts s = none ↔ ∀ t ∈ ts, t.stamp < s := by
  simp [right]

/-- An estimate is scored exactly when there is truth on both sides of its stamp. -/
theorem isSome_score {e : Sample K} :
    (score hypot wrap ts e).isSome ↔ (∃ a ∈ ts, a.stamp ≤ e.stamp) ∧ ∃ b ∈ ts, e.stamp ≤ b.stamp := by
  have hleft : (left ts e.stamp).isSome ↔ ∃ a ∈ ts, a.stamp ≤ e.stamp := by
    rw [Option.isSome_iff_ne_none, ne_eq, left_eq_none]
    simp
  have hright : (right ts e.stamp).isSome ↔ ∃ b ∈ ts, e.stamp ≤ b.stamp := by
    rw [Option.isSome_iff_ne_none, ne_eq, right_eq_none]
    simp
  rw [← hleft, ← hright, score]
  cases left ts e.stamp <;> cases right ts e.stamp <;> simp

/-- At the stamp of a sample the pose is that sample. -/
theorem lerp_self (b : Sample K) : lerp wrap b b b.stamp = b := by
  simp [lerp]

/-- What the aligner interpolates is linear between the samples that bracket the stamp. -/
theorem interpolate_eq (hts : Ascending ts) (hleft : ∃ a ∈ ts, a.stamp ≤ s) :
    interpolate wrap ts s = (left ts s).bind fun a => (right ts s).map fun b => lerp wrap a b s := by
  have hsplit : ts = ts.takeWhile (fun t => decide (t.stamp < s)) ++ ts.dropWhile (fun t => decide (t.stamp < s)) :=
    (List.takeWhile_append_dropWhile).symm
  have hpre : ∀ t ∈ ts.takeWhile (fun t => decide (t.stamp < s)), t.stamp < s := by
    intro t ht
    simpa using List.mem_takeWhile_imp ht
  have hhead := List.head?_dropWhile_not (fun t : Sample K => decide (t.stamp < s)) ts
  unfold interpolate
  generalize ts.takeWhile (fun t => decide (t.stamp < s)) = pre at hsplit hpre
  generalize ts.dropWhile (fun t => decide (t.stamp < s)) = post at hsplit hhead
  subst hsplit
  have hfilter : pre.filter (fun t => decide (t.stamp ≤ s)) = pre :=
    List.filter_eq_self.mpr fun t ht => decide_eq_true (hpre t ht).le
  have hfind : pre.find? (fun t => decide (s ≤ t.stamp)) = none := by
    rw [List.find?_eq_none]
    intro t ht
    simpa using hpre t ht
  cases post with
  | nil =>
      have hnone : right (pre ++ []) s = none := by
        rw [right, List.append_nil, hfind]
      rw [hnone]
      cases left (pre ++ []) s <;> rfl
  | cons b post =>
      have hb : s ≤ b.stamp := by simpa using hhead
      have hright : right (pre ++ b :: post) s = some b := by
        simp [right, List.find?_append, hfind, hb]
      have hpost : post.filter (fun t => decide (t.stamp ≤ s)) = [] := by
        refine List.filter_eq_nil_iff.mpr fun t ht => ?_
        have hbt := (List.pairwise_cons.mp (List.pairwise_append.mp hts).2.1).1 t ht
        simpa using hb.trans_lt hbt
      rw [hright]
      dsimp only
      by_cases heq : b.stamp = s
      · have hlast : left (pre ++ b :: post) s = some b := by
          simp [left, List.filter_append, hfilter, hpost, heq]
        rw [hlast, ← heq]
        simp only [Option.bind_some, Option.map_some, lerp_self, if_true]
        cases pre.getLast? <;> rfl
      · have hlast : left (pre ++ b :: post) s = pre.getLast? := by
          have hnot : ¬ b.stamp ≤ s := fun hle => heq (le_antisymm hle hb)
          simp [left, List.filter_append, hfilter, hpost, hnot]
        rw [hlast]
        cases hpre' : pre.getLast? with
        | some a => simp [heq]
        | none =>
            -- nothing is before `b`, which is past the stamp
            rw [List.getLast?_eq_none_iff] at hpre'
            subst hpre'
            have hnone : left ([] ++ b :: post) s = none := by
              rw [hlast]
              rfl
            obtain ⟨a, ha, has⟩ := hleft
            exact absurd has (not_le.mpr (left_eq_none.mp hnone a ha))

/-- The error that the aligner computes from the truth it has kept. -/
def scoreKept (hypot : K → K → K) (wrap : K → K) (truth : List (Sample K)) (e : Sample K) : Option (K × K) :=
  if truth.head?.any fun first => decide (e.stamp < first.stamp) then none
  else (interpolate wrap truth e.stamp).map (error hypot wrap e)

/-- An estimate scores the same against what was kept, where the sample before its stamp was. -/
theorem score_kept (hts : Ascending ts) {e : Sample K}
    (hcovered : (∃ a ∈ ts, a.stamp ≤ e.stamp) → ∃ a ∈ kept horizon ts, a.stamp ≤ e.stamp) :
    scoreKept hypot wrap (kept horizon ts) e = score hypot wrap ts e := by
  obtain ⟨dropped, heq, -, hbefore⟩ := kept_split horizon hts
  generalize kept horizon ts = truth at heq hbefore hcovered
  subst heq
  obtain ⟨-, htruth, -⟩ := List.pairwise_append.mp hts
  by_cases hleft : ∃ a ∈ truth, a.stamp ≤ e.stamp
  · obtain ⟨a, ha, hae⟩ := hleft
    have hfirst : truth.head?.any (fun first => decide (e.stamp < first.stamp)) = false := by
      cases truth with
      | nil => rfl
      | cons first truth =>
          rcases List.mem_cons.mp ha with rfl | hmem
          · simpa using hae
          · simpa using ((List.pairwise_cons.mp htruth).1 a hmem).le.trans hae
    have hl : left (dropped ++ truth) e.stamp = left truth e.stamp := by
      have hne : (truth.filter fun t => decide (t.stamp ≤ e.stamp)) ≠ [] := by
        refine List.ne_nil_of_mem (a := a) ?_
        simpa using ⟨ha, hae⟩
      rw [left, left, List.filter_append, List.getLast?_append_of_ne_nil _ hne]
    have hr : right (dropped ++ truth) e.stamp = right truth e.stamp := by
      have hnone : dropped.find? (fun t => decide (e.stamp ≤ t.stamp)) = none := by
        rw [List.find?_eq_none]
        intro d hd
        simpa using (hbefore d hd a ha).trans_le hae
      rw [right, right, List.find?_append, hnone, Option.none_or]
    rw [scoreKept, hfirst, if_neg Bool.false_ne_true, interpolate_eq htruth ⟨a, ha, hae⟩, score, hl, hr]
    cases left truth e.stamp <;> cases right truth e.stamp <;> rfl
  · have hnone : left (dropped ++ truth) e.stamp = none :=
      left_eq_none.mpr fun t ht => not_le.mp fun hle => hleft (hcovered ⟨t, ht, hle⟩)
    rw [score, hnone, scoreKept]
    cases truth with
    | nil => rfl
    | cons first truth =>
        have hfirst : e.stamp < first.stamp := not_le.mp fun hle => hleft ⟨first, by simp, hle⟩
        simp [hfirst]

/-- Later truth does not change a score. -/
theorem score_concat {t e : Sample K} (hts : Ascending (ts ++ [t])) (he : ∃ b ∈ ts, e.stamp ≤ b.stamp) :
    score hypot wrap (ts ++ [t]) e = score hypot wrap ts e := by
  obtain ⟨b, hb, heb⟩ := he
  have ht : e.stamp < t.stamp := heb.trans_lt ((List.pairwise_append.mp hts).2.2 b hb t (by simp))
  have hl : left (ts ++ [t]) e.stamp = left ts e.stamp := by
    simp [left, List.filter_append, not_le.mpr ht]
  have hr : right (ts ++ [t]) e.stamp = right ts e.stamp := by
    have hsome : (ts.find? fun t => decide (e.stamp ≤ t.stamp)).isSome := by
      rw [List.find?_isSome]
      exact ⟨b, hb, decide_eq_true heb⟩
    rw [right, right, List.find?_append, Option.or_of_isSome hsome]
  rw [score, score, hl, hr]

end Score

/-! ## One delivery -/

section Step

variable {ts es : List (Sample K)}

/-- **What is drained**: the estimates up to the newest truth, each scored against what was kept. -/
theorem drain_eq (truth pending : List (Sample K)) :
    drain hypot wrap truth pending =
      ((pending.takeWhile fun e => truth.getLast?.any fun last => decide (e.stamp ≤ last.stamp)).filterMap
          (scoreKept hypot wrap truth),
        pending.dropWhile fun e => truth.getLast?.any fun last => decide (e.stamp ≤ last.stamp)) := by
  induction pending with
  | nil => rfl
  | cons e pending ih =>
      rw [drain, List.takeWhile_cons, List.dropWhile_cons]
      split
      · rw [ih]
        dsimp only
        rw [List.filterMap_cons, scoreKept]
        split
        · rfl
        · cases (interpolate wrap truth e.stamp).map (error hypot wrap e) <;> rfl
      · rfl

/-- The aligner and its errors, behind deliveries of the truth `ts` and the estimates `es`. -/
structure Reached (hypot : K → K → K) (wrap : K → K) (horizon : K) (ts es : List (Sample K))
    (state : TruthAligner K × List (K × K)) : Prop where
  horizon_eq : state.1.horizon = horizon
  truth : state.1.truth = kept horizon ts
  split : ∃ scored, es = scored ++ state.1.pending ∧ (∀ e ∈ scored, ∃ b ∈ ts, e.stamp ≤ b.stamp) ∧
    state.2 = scored.filterMap (score hypot wrap ts)
  waiting : ∀ e ∈ state.1.pending, ∀ t ∈ ts, t.stamp < e.stamp

/-- Draining reaches what was delivered, where the estimates up to the newest truth are covered. -/
theorem Reached.drained (hh : 0 ≤ horizon) (hts : Ascending ts) (self : TruthAligner K) {scored : List (Sample K)}
    (hhorizon : self.horizon = horizon) (htruth : self.truth = kept horizon ts) (hes : Ascending (scored ++ self.pending))
    (hscored : ∀ e ∈ scored, ∃ b ∈ ts, e.stamp ≤ b.stamp)
    (hcovered : ∀ e ∈ self.pending, (∃ b ∈ ts, e.stamp ≤ b.stamp) → (∃ a ∈ ts, a.stamp ≤ e.stamp) →
      ∃ a ∈ kept horizon ts, a.stamp ≤ e.stamp) :
    Reached hypot wrap horizon ts (scored ++ self.pending)
      ((self.drained hypot wrap).1, scored.filterMap (score hypot wrap ts) ++ (self.drained hypot wrap).2) := by
  have hready (e : Sample K) : (self.truth.getLast?.any fun last => decide (e.stamp ≤ last.stamp)) = true ↔
      ∃ b ∈ ts, e.stamp ≤ b.stamp := by
    rw [htruth, getLast_kept hh hts]
    cases hlast : ts.getLast? with
    | none =>
        rw [List.getLast?_eq_none_iff] at hlast
        simp [hlast]
    | some newest =>
        constructor
        · intro hle
          exact ⟨newest, List.mem_of_getLast? hlast, by simpa using hle⟩
        · rintro ⟨b, hb, hle⟩
          simpa using hle.trans (le_getLast hts hlast hb)
  set ready := fun e : Sample K => self.truth.getLast?.any fun last => decide (e.stamp ≤ last.stamp) with hreadydef
  have hdrain : self.drained hypot wrap = ({ self with pending := self.pending.dropWhile ready },
      (self.pending.takeWhile ready).filterMap (scoreKept hypot wrap self.truth)) := by
    rw [TruthAligner.drained, drain_eq]
  have hnew : (self.pending.takeWhile ready).filterMap (scoreKept hypot wrap self.truth) =
      (self.pending.takeWhile ready).filterMap (score hypot wrap ts) := by
    refine List.filterMap_congr fun e he => ?_
    have hmem : e ∈ self.pending := (List.takeWhile_prefix ready).subset he
    have hlate : ready e = true := List.mem_takeWhile_imp he
    rw [htruth]
    exact score_kept hts (hcovered e hmem ((hready e).mp hlate))
  rw [hdrain, hnew, ← List.filterMap_append]
  refine ⟨hhorizon, htruth, ⟨scored ++ self.pending.takeWhile ready, ?_, ?_, rfl⟩, ?_⟩
  · show _ = scored ++ self.pending.takeWhile ready ++ self.pending.dropWhile ready
    rw [List.append_assoc, List.takeWhile_append_dropWhile]
  · intro e he
    rcases List.mem_append.mp he with hold | hnew
    · exact hscored e hold
    · have hlate : ready e = true := List.mem_takeWhile_imp hnew
      exact (hready e).mp hlate
  · -- the first estimate that stays is past all truth, and the others are past it
    intro e he t ht
    have hasc : Ascending (self.pending.dropWhile ready) :=
      (List.pairwise_append.mp hes).2.1.sublist (List.dropWhile_sublist ready)
    have hhead := List.head?_dropWhile_not ready self.pending
    cases hrest : self.pending.dropWhile ready with
    | nil =>
        rw [show (self.pending.dropWhile ready) = [] from hrest] at he
        cases he
    | cons first rest =>
        rw [hrest] at hasc hhead
        have hfirst : ∀ b ∈ ts, b.stamp < first.stamp := by
          intro b hb
          refine not_le.mp fun hle => ?_
          have hlate : ready first = true := (hready first).mpr ⟨b, hb, hle⟩
          simp [hlate] at hhead
        have he' : e ∈ first :: rest := hrest ▸ he
        rcases List.mem_cons.mp he' with rfl | hmem
        · exact hfirst t ht
        · exact (hfirst t ht).trans ((List.pairwise_cons.mp hasc).1 e hmem)

variable {state : TruthAligner K × List (K × K)}

/-- A truth sample is delivered. -/
theorem Reached.truth_step (hh : 0 ≤ horizon) (h : Reached hypot wrap horizon ts es state) {t : Sample K}
    (hts : Ascending (ts ++ [t])) (hes : Ascending es) (hgap : ∀ newest ∈ ts.getLast?, t.stamp - newest.stamp ≤ horizon) :
    Reached hypot wrap horizon (ts ++ [t]) es
      ((state.1.addTruth hypot wrap t).1, state.2 ++ (state.1.addTruth hypot wrap t).2) := by
  obtain ⟨hbefore, -, hpast⟩ := List.pairwise_append.mp hts
  obtain ⟨scored, heq, hscored, herrors⟩ := h.split
  have hnewer : ¬ (state.1.truth.getLast?.any fun last => decide (t.stamp ≤ last.stamp)) = true := by
    rw [h.truth, getLast_kept hh hbefore]
    cases hlast : ts.getLast? with
    | none => simp
    | some newest => simpa using hpast newest (List.mem_of_getLast? hlast) t (by simp)
  have hkept : state.1.recent t.stamp (state.1.truth ++ [t]) = kept horizon (ts ++ [t]) := by
    rw [← kept_concat hts, TruthAligner.recent, h.horizon_eq, h.truth]
  have hlater : scored.filterMap (score hypot wrap ts) = scored.filterMap (score hypot wrap (ts ++ [t])) :=
    List.filterMap_congr fun e he => (score_concat hts (hscored e he)).symm
  have hcovered : ∀ e ∈ state.1.pending, (∃ b ∈ ts ++ [t], e.stamp ≤ b.stamp) → (∃ a ∈ ts ++ [t], a.stamp ≤ e.stamp) →
      ∃ a ∈ kept horizon (ts ++ [t]), a.stamp ≤ e.stamp := by
    intro e he _ hleft
    have ht : t ∈ (ts ++ [t]).getLast? := by simp
    cases hlast : ts.getLast? with
    | none =>
        -- the first truth sample is all there is
        obtain ⟨a, ha, hae⟩ := hleft
        rw [List.getLast?_eq_none_iff.mp hlast] at ha
        obtain rfl : a = t := by simpa using ha
        exact ⟨a, mem_kept hts (by simp) ht (by linarith), hae⟩
    | some newest =>
        -- the sample before it is close enough to be kept
        have hmem := List.mem_of_getLast? hlast
        refine ⟨newest, mem_kept hts (List.mem_append_left _ hmem) ht (hgap newest hlast), ?_⟩
        exact (h.waiting e he newest hmem).le
  rw [TruthAligner.addTruth, if_neg hnewer, herrors, hlater, heq]
  rw [heq] at hes
  exact Reached.drained hh hts { state.1 with truth := state.1.recent t.stamp (state.1.truth ++ [t]) } h.horizon_eq hkept hes
    (fun e he => (hscored e he).imp fun b hb => ⟨List.mem_append_left _ hb.1, hb.2⟩) hcovered

/-- An estimate is delivered. -/
theorem Reached.estimate_step (hh : 0 ≤ horizon) (h : Reached hypot wrap horizon ts es state) {e : Sample K}
    (hts : Ascending ts) (hes : Ascending (es ++ [e]))
    (hwaits : ∀ q ∈ es, (∀ t ∈ ts, t.stamp < q.stamp) → e.stamp - q.stamp ≤ horizon)
    (hcovered : ∀ newest ∈ ts.getLast?, ∀ a ∈ left ts e.stamp, newest.stamp - a.stamp ≤ horizon) :
    Reached hypot wrap horizon ts (es ++ [e])
      ((state.1.addEstimate hypot wrap e).1, state.2 ++ (state.1.addEstimate hypot wrap e).2) := by
  obtain ⟨scored, heq, hscored, herrors⟩ := h.split
  have hrecent : state.1.recent e.stamp (state.1.pending ++ [e]) = state.1.pending ++ [e] := by
    refine dropWhile_eq_self fun q hq => decide_eq_false (not_lt.mpr ?_)
    rw [h.horizon_eq]
    rcases List.mem_append.mp hq with hold | hnew
    · have := hwaits q (heq ▸ List.mem_append_right _ hold) (h.waiting q hold)
      linarith
    · rw [List.mem_singleton.mp hnew]
      linarith
  have hkeeps : ∀ q ∈ state.1.pending ++ [e], (∃ b ∈ ts, q.stamp ≤ b.stamp) → (∃ a ∈ ts, a.stamp ≤ q.stamp) →
      ∃ a ∈ kept horizon ts, a.stamp ≤ q.stamp := by
    rintro q hq ⟨b, hb, hqb⟩ hleft
    rcases List.mem_append.mp hq with hold | hnew
    · exact absurd (h.waiting q hold b hb) (not_lt.mpr hqb)
    · obtain rfl := List.mem_singleton.mp hnew
      cases ha : left ts q.stamp with
      | none =>
          obtain ⟨a, hmem, hle⟩ := hleft
          exact absurd hle (not_le.mpr (left_eq_none.mp ha a hmem))
      | some a =>
          obtain ⟨hmem, hle⟩ := mem_left ha
          cases hlast : ts.getLast? with
          | none =>
              rw [List.getLast?_eq_none_iff.mp hlast] at hmem
              cases hmem
          | some newest => exact ⟨a, mem_kept hts hmem hlast (hcovered newest hlast a ha), hle⟩
  have hself : { state.1 with pending := state.1.recent e.stamp (state.1.pending ++ [e]) } =
      { state.1 with pending := state.1.pending ++ [e] } := by rw [hrecent]
  rw [TruthAligner.addEstimate, hself, herrors, heq, List.append_assoc]
  rw [heq, List.append_assoc] at hes
  exact Reached.drained hh hts { state.1 with pending := state.1.pending ++ [e] } h.horizon_eq h.truth hes hscored hkeeps

end Step

/-! ## Runs -/

theorem truthsOf_append (xs ys : List (Event K)) : truthsOf (xs ++ ys) = truthsOf xs ++ truthsOf ys := List.filterMap_append

theorem estimatesOf_append (xs ys : List (Event K)) : estimatesOf (xs ++ ys) = estimatesOf xs ++ estimatesOf ys :=
  List.filterMap_append

theorem run_concat (events : List (Event K)) (event : Event K) :
    run hypot wrap horizon (events ++ [event]) =
      (((run hypot wrap horizon events).1.step hypot wrap event).1,
        (run hypot wrap horizon events).2 ++ ((run hypot wrap horizon events).1.step hypot wrap event).2) := by
  rw [run, List.foldl_append]
  rfl

/-- What the aligner has reached, behind every part of an interleaving. -/
theorem reached (hh : 0 ≤ horizon) {truths estimates : List (Sample K)} (hts : Ascending truths) (hes : Ascending estimates)
    (hgap : truths.IsChain fun a b => b.stamp - a.stamp ≤ horizon) {events : List (Event K)}
    (h : Delivers (fun before e => Waits horizon before e ∧ Covered horizon before e) truths estimates events)
    (done rest : List (Event K)) (hevents : events = done ++ rest) :
    Reached hypot wrap horizon (truthsOf done) (estimatesOf done) (run hypot wrap horizon done) := by
  induction done using List.reverseRecOn generalizing rest with
  | nil => exact ⟨rfl, rfl, ⟨[], rfl, by simp, rfl⟩, fun e he => by cases he⟩
  | append_singleton done event ih =>
      rw [List.append_assoc] at hevents
      have hprev := ih ([event] ++ rest) hevents
      have htruths : truthsOf done ++ truthsOf [event] ++ truthsOf rest = truths := by
        rw [← h.truths, hevents]
        rw [truthsOf_append, truthsOf_append, List.append_assoc]
      have hestimates : estimatesOf done ++ estimatesOf [event] ++ estimatesOf rest = estimates := by
        rw [← h.estimates, hevents]
        rw [estimatesOf_append, estimatesOf_append, List.append_assoc]
      have hts' : Ascending (truthsOf done ++ truthsOf [event]) := by
        rw [← htruths] at hts
        exact (List.pairwise_append.mp hts).1
      have hes' : Ascending (estimatesOf done ++ estimatesOf [event]) := by
        rw [← hestimates] at hes
        exact (List.pairwise_append.mp hes).1
      rw [run_concat, truthsOf_append, estimatesOf_append]
      cases event with
      | truth t =>
          have hnone : estimatesOf [Event.truth t] = [] := rfl
          rw [hnone, List.append_nil] at hes' ⊢
          refine hprev.truth_step hh hts' hes' ?_
          intro newest hnewest
          rw [← htruths, List.append_assoc] at hgap
          exact (List.isChain_append.mp hgap).2.2 newest hnewest t (by simp [truthsOf])
      | estimate e =>
          have hnone : truthsOf [Event.estimate e] = [] := rfl
          rw [hnone, List.append_nil] at hts' ⊢
          obtain ⟨hwaits, hcovered⟩ := h.onTime done e rest hevents
          exact hprev.estimate_step hh hts' hes' hwaits hcovered

/-- The errors of a whole interleaving are the scores against the whole truth. -/
theorem run_errors (hh : 0 ≤ horizon) {truths estimates : List (Sample K)} (hts : Ascending truths)
    (hes : Ascending estimates) (hgap : truths.IsChain fun a b => b.stamp - a.stamp ≤ horizon) {events : List (Event K)}
    (h : Delivers (fun before e => Waits horizon before e ∧ Covered horizon before e) truths estimates events) :
    (run hypot wrap horizon events).2 = estimates.filterMap (score hypot wrap truths) := by
  have hend : Reached hypot wrap horizon _ _ _ := reached hh hts hes hgap h events [] (List.append_nil _).symm
  rw [h.truths, h.estimates] at hend
  obtain ⟨scored, heq, -, herrors⟩ := hend.split
  have hwaiting : (run hypot wrap horizon events).1.pending.filterMap (score hypot wrap truths) = [] := by
    rw [List.filterMap_eq_nil_iff]
    intro e he
    have hnone : right truths e.stamp = none := right_eq_none.mpr (hend.waiting e he)
    rw [score, hnone]
    cases left truths e.stamp <;> rfl
  conv_rhs => rw [heq]
  rw [List.filterMap_append, hwaiting, List.append_nil, herrors]

/-- Truth on both sides of a stamp: the stamp is between the first and the last one. -/
theorem isSome_score_iff {truths : List (Sample K)} (hts : Ascending truths) (e : Sample K) :
    (score hypot wrap truths e).isSome ↔
      (∃ first ∈ truths.head?, first.stamp ≤ e.stamp) ∧ ∃ last ∈ truths.getLast?, e.stamp ≤ last.stamp := by
  rw [isSome_score]
  constructor
  · rintro ⟨⟨a, ha, hae⟩, b, hb, heb⟩
    constructor
    · cases truths with
      | nil => cases ha
      | cons first rest =>
          refine ⟨first, rfl, ?_⟩
          rcases List.mem_cons.mp ha with rfl | hmem
          · exact hae
          · exact ((List.pairwise_cons.mp hts).1 a hmem).le.trans hae
    · cases hlast : truths.getLast? with
      | none =>
          rw [List.getLast?_eq_none_iff.mp hlast] at hb
          cases hb
      | some last => exact ⟨last, rfl, heb.trans (le_getLast hts hlast hb)⟩
  · rintro ⟨⟨first, hfirst, hle⟩, last, hlast, hge⟩
    exact ⟨⟨first, List.mem_of_head? hfirst, hle⟩, last, List.mem_of_getLast? hlast, hge⟩

/-- **The errors do not depend on the order of delivery**: one for each estimate with truth on both sides of its stamp. -/
theorem order_independent (hypot : K → K → K) (wrap : K → K) (hh : 0 ≤ horizon) {truths estimates : List (Sample K)}
    (hts : Ascending truths) (hes : Ascending estimates) (hgap : truths.IsChain fun a b => b.stamp - a.stamp ≤ horizon)
    {events₁ events₂ : List (Event K)}
    (h₁ : Delivers (fun before e => Waits horizon before e ∧ Covered horizon before e) truths estimates events₁)
    (h₂ : Delivers (fun before e => Waits horizon before e ∧ Covered horizon before e) truths estimates events₂) :
    (run hypot wrap horizon events₁).2 = (run hypot wrap horizon events₂).2 ∧
      (run hypot wrap horizon events₁).2 = estimates.filterMap (score hypot wrap truths) ∧
      ∀ e, (score hypot wrap truths e).isSome ↔
        (∃ first ∈ truths.head?, first.stamp ≤ e.stamp) ∧ ∃ last ∈ truths.getLast?, e.stamp ≤ last.stamp := by
  have hrun₁ : (run hypot wrap horizon events₁).2 = _ := run_errors hh hts hes hgap h₁
  have hrun₂ : (run hypot wrap horizon events₂).2 = _ := run_errors hh hts hes hgap h₂
  exact ⟨hrun₁.trans hrun₂.symm, hrun₁, isSome_score_iff hts⟩

/-! ## Fixed streams -/

/-- A stream with one estimate has one delivery to look at. -/
theorem delivers_single {onTime : List (Event K) → Sample K → Prop} (before after : List (Event K)) {e : Sample K}
    (hbefore : estimatesOf before = []) (hafter : estimatesOf after = []) (h : onTime before e) :
    Delivers onTime (truthsOf before ++ truthsOf after) [e] (before ++ .estimate e :: after) := by
  have hcons : Event.estimate e :: after = [.estimate e] ++ after := rfl
  refine ⟨?_, ?_, ?_⟩
  · rw [hcons, truthsOf_append, truthsOf_append]
    rfl
  · rw [hcons, estimatesOf_append, estimatesOf_append, hbefore, hafter]
    rfl
  · intro before' e' after' heq
    have hmem {events xs ys : List (Event K)} (hnone : estimatesOf events = []) (hsplit : events = xs ++ .estimate e' :: ys) :
        False := by
      rw [hsplit, estimatesOf_append] at hnone
      cases (List.append_eq_nil_iff.mp hnone).2
    rcases List.append_eq_append_iff.mp heq with ⟨xs, rfl, hrest⟩ | ⟨xs, hfront, hrest⟩
    · cases xs with
      | nil =>
          obtain ⟨rfl⟩ : e = e' := by simpa using (List.cons.inj hrest).1
          rwa [List.append_nil]
      | cons x xs => exact (hmem hafter (List.cons.inj hrest).2).elim
    · cases xs with
      | nil =>
          obtain ⟨rfl⟩ : e' = e := by simpa using (List.cons.inj hrest).1
          rw [List.append_nil] at hfront
          rwa [← hfront]
      | cons x xs =>
          rw [← (List.cons.inj hrest).1] at hfront
          exact (hmem hbefore hfront).elim

/-- A car on the first axis at 5 m/s. -/
def onAxis (stamp : ℚ) : Sample ℚ := ⟨stamp, 5 * stamp, 0, 0⟩

/-- An estimate that waits for the truth at its stamp, and the same one behind all truth. -/
theorem order_independent_late :
    (run (fun a b => |a| + |b|) id (2 : ℚ) [.truth (onAxis 0), .estimate (onAxis 1), .truth (onAxis 2)]).2 =
        (run (fun a b => |a| + |b|) id 2 [.truth (onAxis 0), .truth (onAxis 2), .estimate (onAxis 1)]).2 ∧
      (run (fun a b => |a| + |b|) id (2 : ℚ) [.truth (onAxis 0), .estimate (onAxis 1), .truth (onAxis 2)]).2 =
        [onAxis 1].filterMap (score (fun a b => |a| + |b|) id [onAxis 0, onAxis 2]) ∧
      ∀ e, (score (fun a b => |a| + |b|) id [onAxis 0, onAxis 2] e).isSome ↔
        (∃ first ∈ [onAxis 0, onAxis 2].head?, first.stamp ≤ e.stamp) ∧
          ∃ last ∈ [onAxis 0, onAxis 2].getLast?, e.stamp ≤ last.stamp := by
  refine order_independent _ _ (by norm_num) (by simp [onAxis]) (by simp) (by simp [onAxis]) ?_ ?_
  · refine delivers_single [.truth (onAxis 0)] [.truth (onAxis 2)] rfl rfl ?_
    simp [Waits, Covered, truthsOf, estimatesOf, left, onAxis]
  · refine delivers_single [.truth (onAxis 0), .truth (onAxis 2)] [] rfl rfl ?_
    simp [Waits, Covered, truthsOf, estimatesOf, left, onAxis]

/-- An estimate that is close to the newest truth, but not to the sample before its stamp, is skipped. -/
theorem order_dependent :
    ¬ ∀ (horizon : ℚ) (truths estimates : List (Sample ℚ)), 0 ≤ horizon → Ascending truths → Ascending estimates →
      (truths.IsChain fun a b => b.stamp - a.stamp ≤ horizon) → ∀ events₁ events₂,
      Delivers (fun before e => Waits horizon before e ∧ Near horizon before e) truths estimates events₁ →
      Delivers (fun before e => Waits horizon before e ∧ Near horizon before e) truths estimates events₂ →
      (run (fun a b => |a| + |b|) id horizon events₁).2 = (run (fun a b => |a| + |b|) id horizon events₂).2 := by
  intro h
  have hbefore : Delivers (fun before e => Waits 2 before e ∧ Near 2 before e) _ [onAxis (3 / 2)] _ :=
    delivers_single [.truth (onAxis 0), .truth (onAxis 2)] [.truth (onAxis 3)] rfl rfl
      (by simp [Waits, Near, truthsOf, estimatesOf, onAxis]; norm_num)
  have hbehind : Delivers (fun before e => Waits 2 before e ∧ Near 2 before e) _ [onAxis (3 / 2)] _ :=
    delivers_single [.truth (onAxis 0), .truth (onAxis 2), .truth (onAxis 3)] [] rfl rfl
      (by simp [Waits, Near, truthsOf, estimatesOf, onAxis]; norm_num)
  have hsame := h 2 _ _ (by norm_num) (by simp [truthsOf, onAxis]; norm_num) (by simp) (by simp [truthsOf, onAxis]; norm_num)
    _ _ hbefore hbehind
  norm_num [run, TruthAligner.step, TruthAligner.addTruth, TruthAligner.addEstimate, TruthAligner.drained, TruthAligner.recent,
    drain, interpolate, onAxis] at hsame

end Lhre.Autonomy.Alignment
