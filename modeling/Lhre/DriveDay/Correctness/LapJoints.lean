import Mathlib.Data.List.Forall2
import Mathlib.Data.List.GetD
import Lhre.DriveDay.Rebuild

/-!
# `DriveDay.Correctness.LapJoints` — where rebuilt laps meet

The samples of a lap are those of the stream from its start to its end. A boundary between two laps is one index of the stream,
and both laps interpolate there between the same two samples.

## Contents
- **The stream.** `pushSample_sorted`, `stream_sorted`, `unroll_times`.
- **Bounds.** `IsLowerBound`, `lowerBound_spec`, `filter_between`.
- **A lap.** `SameFix`, `lapSamples_split`, `Shows`, `mkLap_rebuilt`.
- **A joint.** `boundary`, `mkLap_joined`.
- **The run.** `rebuilt_run`.
-/

namespace Lhre.DriveDay

/-! ## The stream -/

/-- Samples in the order of their times. -/
abbrev InTime (ST : List StreamSample) : Prop := ST.Pairwise fun s s' => s.t < s'.t

theorem pushSample_inTime {t0 : ℚ} {ST : List StreamSample} (p : Point) (h : InTime ST) : InTime (pushSample t0 ST p) := by
  unfold pushSample
  dsimp only
  cases hlast : ST.getLast? with
  | none => exact List.pairwise_singleton _ _
  | some last =>
      dsimp only
      split
      · exact h
      next hlater =>
        refine List.pairwise_append.mpr ⟨h, List.pairwise_singleton _ _, ?_⟩
        intro s hs s' hs'
        rw [List.mem_singleton.mp hs']
        have hle : s.t ≤ last.t := by
          obtain ⟨front, rfl⟩ := List.getLast?_eq_some_iff.mp hlast
          rcases List.mem_append.mp hs with hs | hs
          · exact ((List.pairwise_append.mp h).2.2 s hs last (List.mem_singleton_self last)).le
          · exact (congrArg StreamSample.t (List.mem_singleton.mp hs)).le
        exact hle.trans_lt (not_le.mp hlater)

theorem stream_inTime (L0 : List RawLap) : InTime (stream L0) := by
  have hlap (t0 : ℚ) (points : List Point) (ST : List StreamSample) (h : InTime ST) :
      InTime (points.foldl (pushSample t0) ST) := by
    induction points generalizing ST with
    | nil => exact h
    | cons p points ih => exact ih _ (pushSample_inTime p h)
  have hall (laps : List RawLap) (ST : List StreamSample) (h : InTime ST) :
      InTime (laps.foldl (fun ST l => l.points.foldl (pushSample l.t0) ST) ST) := by
    induction laps generalizing ST with
    | nil => exact h
    | cons l laps ih => exact ih _ (hlap l.t0 l.points ST h)
  exact hall L0 [] List.Pairwise.nil

theorem unrollFrom_times (RL : ℚ) (previous : StreamSample) (ST : List StreamSample) :
    (unrollFrom RL previous ST).map StreamSample.t = ST.map StreamSample.t := by
  induction ST generalizing previous with
  | nil => rfl
  | cons s ST ih => rw [unrollFrom, List.map_cons, List.map_cons, ih]

theorem unroll_times (RL : ℚ) (ST : List StreamSample) : (unroll RL ST).map StreamSample.t = ST.map StreamSample.t := by
  cases ST with
  | nil => rfl
  | cons s ST => rw [unroll, List.map_cons, List.map_cons, unrollFrom_times]

theorem RunData.stream_inTime (D0 : RunData) : InTime D0.stream := by
  have h := DriveDay.stream_inTime (byStart D0.laps)
  rw [InTime, ← List.pairwise_map (f := StreamSample.t) (R := (· < ·))] at h ⊢
  rw [RunData.stream, unroll_times]
  exact h

/-! ## Bounds -/

/-- The samples before an index are before a time, the others are not. -/
structure IsLowerBound (ST : List StreamSample) (t : ℚ) (i : ℕ) : Prop where
  le : i ≤ ST.length
  below : ∀ s ∈ ST.take i, s.t < t
  above : ∀ s ∈ ST.drop i, t ≤ s.t

theorem lowerSearch_spec {ST : List StreamSample} (h : InTime ST) (t : ℚ) (lo hi : ℕ) (hle : lo ≤ hi) (hhi : hi ≤ ST.length)
    (hbelow : ∀ s ∈ ST.take lo, s.t < t) (habove : ∀ s ∈ ST.drop hi, t ≤ s.t) : IsLowerBound ST t (lowerSearch ST t lo hi) := by
  fun_induction lowerSearch ST t lo hi with
  | case1 lo hi hlt m s hs hst ih =>
      have hm : m < ST.length := by omega
      have hsm : ST[m] = s := Option.some.inj ((List.getElem?_eq_getElem hm).symm.trans hs)
      refine ih (by omega) hhi ?_ habove
      intro s' hs'
      obtain ⟨j, hj, rfl⟩ := List.mem_take_iff_getElem.mp hs'
      rcases Nat.lt_or_ge j m with hjm | hjm
      · exact (List.pairwise_iff_getElem.mp h j m (by omega) hm hjm).trans (hsm ▸ hst)
      · obtain rfl : j = m := by omega
        exact hsm ▸ hst
  | case2 lo hi hlt m s hs hst ih =>
      have hm : m < ST.length := by omega
      have hsm : ST[m] = s := Option.some.inj ((List.getElem?_eq_getElem hm).symm.trans hs)
      refine ih (by omega) (by omega) hbelow ?_
      intro s' hs'
      obtain ⟨j, hj, rfl⟩ := List.mem_drop_iff_getElem.mp hs'
      rcases Nat.eq_zero_or_pos j with rfl | hpos
      · exact hsm ▸ not_lt.mp hst
      · exact (hsm ▸ not_lt.mp hst).trans (List.pairwise_iff_getElem.mp h m (m + j) hm (by omega) (by omega)).le
  | case3 lo hi hlt m hnone =>
      have hm : m < ST.length := by omega
      rw [List.getElem?_eq_getElem hm] at hnone
      cases hnone
  | case4 lo hi hge =>
      obtain rfl : lo = hi := by omega
      exact ⟨hhi, hbelow, habove⟩

theorem lowerBound_spec {ST : List StreamSample} (h : InTime ST) (t : ℚ) : IsLowerBound ST t (lowerBound ST t) :=
  lowerSearch_spec h t 0 ST.length (Nat.zero_le _) le_rfl (by simp) (by simp)

/-- **The samples between two bounds** are those of the times between. -/
theorem filter_between {ST : List StreamSample} {t0 t1 : ℚ} {i0 i1 : ℕ} (h0 : IsLowerBound ST t0 i0)
    (h1 : IsLowerBound ST t1 i1)
    (hle : i0 ≤ i1) : (ST.drop i0).take (i1 - i0) = ST.filter fun s => decide (t0 ≤ s.t ∧ s.t < t1) := by
  have hsplit : ST = ST.take i0 ++ ((ST.drop i0).take (i1 - i0) ++ ST.drop i1) := by
    have hdrop : ST.drop i1 = (ST.drop i0).drop (i1 - i0) := by
      rw [List.drop_drop, Nat.add_sub_cancel' hle]
    rw [hdrop, List.take_append_drop, List.take_append_drop]
  have hmid : ∀ s ∈ (ST.drop i0).take (i1 - i0), t0 ≤ s.t ∧ s.t < t1 := by
    intro s hs
    refine ⟨h0.above s (List.mem_of_mem_take hs), h1.below s ?_⟩
    rw [List.take_drop, Nat.add_sub_cancel' hle] at hs
    exact List.mem_of_mem_drop hs
  conv_rhs => rw [hsplit]
  rw [List.filter_append, List.filter_append, List.filter_eq_nil_iff.mpr, List.filter_eq_self.mpr, List.filter_eq_nil_iff.mpr,
    List.nil_append, List.append_nil]
  · intro s hs
    simpa using fun _ => h1.above s hs
  · intro s hs
    simpa using hmid s hs
  · intro s hs
    simpa using fun hge => absurd (h0.below s hs) (not_lt.mpr hge)

/-- The samples up to and with a time, behind the bound. -/
theorem filter_at {ST : List StreamSample} {t0 t1 : ℚ} {i1 : ℕ} (h1 : IsLowerBound ST t1 i1) (hlt : t0 ≤ t1) :
    (ST.filter fun s => decide (t0 ≤ s.t ∧ s.t ≤ t1)) =
      (ST.filter fun s => decide (t0 ≤ s.t ∧ s.t < t1)) ++ (ST.drop i1).filter fun s => decide (s.t = t1) := by
  have hsplit : ST = ST.take i1 ++ ST.drop i1 := (List.take_append_drop i1 ST).symm
  have hfirst : (ST.take i1).filter (fun s => decide (t0 ≤ s.t ∧ s.t ≤ t1)) =
      (ST.take i1).filter fun s => decide (t0 ≤ s.t ∧ s.t < t1) := by
    refine List.filter_congr ?_
    intro s hs
    have := h1.below s hs
    simp [this, this.le]
  have hlast : (ST.drop i1).filter (fun s => decide (t0 ≤ s.t ∧ s.t ≤ t1)) =
      (ST.drop i1).filter fun s => decide (s.t = t1) := by
    refine List.filter_congr ?_
    intro s hs
    have hge := h1.above s hs
    simp only [decide_eq_decide]
    constructor
    · exact fun hs => le_antisymm hs.2 hge
    · exact fun hs => ⟨hs ▸ hlt, hs.le⟩
  have hnone : (ST.drop i1).filter (fun s => decide (t0 ≤ s.t ∧ s.t < t1)) = [] := by
    refine List.filter_eq_nil_iff.mpr ?_
    intro s hs
    simpa using fun _ => h1.above s hs
  conv_lhs => rw [hsplit]
  conv_rhs => enter [1]; rw [hsplit]
  rw [List.filter_append, List.filter_append, hfirst, hlast, hnone, List.append_nil]

/-! ## A lap -/

/-- Two samples that show the same. -/
structure SameFix (s s' : StreamSample) : Prop where
  t : s.t = s'.t
  x : s.x = s'.x
  y : s.y = s'.y
  spd : s.spd = s'.spd
  dev : s.dev = s'.dev
  v : s.v = s'.v
  U : s.U = s'.U

/-- **At the later of two samples** the interpolated sample shows the same. -/
theorem mixAt_later {a b : StreamSample} {t : ℚ} (hab : a.t < b.t) (hbt : b.t = t) : SameFix (mixAt a b t) b := by
  have hone : (t - a.t) / (b.t - a.t) = 1 := by
    rw [hbt]
    exact div_self (sub_ne_zero.mpr (hbt ▸ hab.ne'))
  have hline (p q : ℚ) : p + (q - p) * 1 = q := by ring
  refine ⟨hbt.symm, ?_, ?_, ?_, ?_, ?_, ?_⟩
  · rw [mixAt, hone]; exact hline _ _
  · rw [mixAt, hone]; exact hline _ _
  · rw [mixAt, hone]; exact hline _ _
  · rw [mixAt, hone]; exact hline _ _
  · rw [mixAt, hone]; exact funext fun k => hline _ _
  · rw [mixAt, hone]; exact hline _ _

theorem mixBefore_length (ST : List StreamSample) (i : ℕ) (t : ℚ) : (mixBefore ST i t).length ≤ 1 := by
  unfold mixBefore
  split <;> simp

/-- The sample on the start of a lap, where none of the stream is. -/
def startPart (ST : List StreamSample) (t0 : ℚ) : List StreamSample :=
  let i0 := lowerBound ST t0
  if 0 < i0 ∧ i0 < ST.length ∧ (ST[i0]?.any fun s => decide (t0 < s.t)) then mixBefore ST i0 t0 else []

/-- The sample on the end of a lap. -/
def endPart (ST : List StreamSample) (t1 : ℚ) : List StreamSample :=
  if lowerBound ST t1 < ST.length then mixBefore ST (lowerBound ST t1) t1 else []

theorem lapSamples_eq (ST : List StreamSample) (t0 t1 : ℚ) : lapSamples ST t0 t1 =
    if lowerBound ST t1 < ST.length ∧ lowerBound ST t0 < lowerBound ST t1 ∧
        ((startPart ST t0 ++ (ST.drop (lowerBound ST t0)).take (lowerBound ST t1 - lowerBound ST t0)).getLast?.any
          fun s => decide (s.t < t1)) then
      startPart ST t0 ++ (ST.drop (lowerBound ST t0)).take (lowerBound ST t1 - lowerBound ST t0) ++
        mixBefore ST (lowerBound ST t1) t1
    else startPart ST t0 ++ (ST.drop (lowerBound ST t0)).take (lowerBound ST t1 - lowerBound ST t0) := rfl

/-- **The samples of a lap** of more than one. -/
theorem lapSamples_split {ST : List StreamSample} (h : InTime ST) {t0 t1 : ℚ} (hlength : 2 ≤ (lapSamples ST t0 t1).length) :
    lowerBound ST t0 < lowerBound ST t1 ∧
      lapSamples ST t0 t1 = startPart ST t0 ++ ((ST.filter fun s => decide (t0 ≤ s.t ∧ s.t < t1)) ++ endPart ST t1) := by
  have h0 := lowerBound_spec h t0
  have h1 := lowerBound_spec h t1
  have hstart : (startPart ST t0).length ≤ 1 := by
    unfold startPart
    dsimp only
    split
    · exact mixBefore_length _ _ _
    · simp
  have hunfold := lapSamples_eq ST t0 t1
  by_cases hlt : lowerBound ST t0 < lowerBound ST t1
  · refine ⟨hlt, ?_⟩
    have hmid := filter_between h0 h1 hlt.le
    -- the last sample before the end is one of the stream
    have hlast : ((startPart ST t0 ++ (ST.drop (lowerBound ST t0)).take (lowerBound ST t1 - lowerBound ST t0)).getLast?.any
        fun s => decide (s.t < t1)) = true := by
      have hne : (ST.drop (lowerBound ST t0)).take (lowerBound ST t1 - lowerBound ST t0) ≠ [] := by
        intro hnil
        have hzero := congrArg List.length hnil
        rw [List.length_take, List.length_drop, List.length_nil] at hzero
        have hle := h1.le
        omega
      rw [List.getLast?_append_of_ne_nil _ hne, List.getLast?_eq_some_getLast hne, Option.any_some]
      have hbefore : ∀ s ∈ (ST.drop (lowerBound ST t0)).take (lowerBound ST t1 - lowerBound ST t0), s.t < t1 := by
        rw [hmid]
        intro s hs
        exact (of_decide_eq_true (List.mem_filter.mp hs).2).2
      exact decide_eq_true (hbefore _ (List.getLast_mem hne))
    rw [hunfold, endPart]
    by_cases hend : lowerBound ST t1 < ST.length
    · rw [if_pos ⟨hend, hlt, hlast⟩, if_pos hend, hmid, List.append_assoc]
    · rw [if_neg (fun hcond => hend hcond.1), if_neg hend, hmid, List.append_nil]
  · -- without a sample of the stream the lap has at most one
    have hnil : (ST.drop (lowerBound ST t0)).take (lowerBound ST t1 - lowerBound ST t0) = [] := by
      rw [Nat.sub_eq_zero_of_le (not_lt.mp hlt), List.take_zero]
    rw [hunfold, if_neg (fun hcond => hlt hcond.2.1), hnil, List.append_nil] at hlength
    omega

/-- A point of a lap that shows a sample. -/
structure Shows (RL t0 : ℚ) (s : StreamSample) (p : Point) : Prop where
  t : p.t = roundTo (s.t - t0) 0
  x : p.x = roundTo s.x 2
  y : p.y = roundTo s.y 2
  spd : p.spd = roundTo s.spd 2
  way : p.s = roundTo (wrap s.U RL) 1
  dev : p.dev = roundTo s.dev 2
  v : p.v = s.v

theorem Shows.same {RL t0 : ℚ} {s s' : StreamSample} {p : Point} (h : Shows RL t0 s p) (hsame : SameFix s s') :
    Shows RL t0 s' p where
  t := hsame.t ▸ h.t
  x := hsame.x ▸ h.x
  y := hsame.y ▸ h.y
  spd := hsame.spd ▸ h.spd
  way := hsame.U ▸ h.way
  dev := hsame.dev ▸ h.dev
  v := hsame.v ▸ h.v

theorem lapPoint_shows (RL t0 : ℚ) (s : StreamSample) (u : ℚ) : Shows RL t0 s (lapPoint RL t0 s u) :=
  ⟨rfl, rfl, rfl, rfl, rfl, rfl, rfl⟩

/-- Points over samples and positions of the same number. -/
theorem forall₂_lapPoint (RL t0 : ℚ) (sm : List StreamSample) (us : List ℚ) (hlength : sm.length = us.length) :
    List.Forall₂ (Shows RL t0) sm (List.zipWith (lapPoint RL t0) sm us) ∧
      (List.zipWith (lapPoint RL t0) sm us).map Point.u = us.map fun u => roundTo u 1 := by
  induction sm generalizing us with
  | nil =>
      obtain rfl : us = [] := List.eq_nil_of_length_eq_zero hlength.symm
      exact ⟨List.Forall₂.nil, rfl⟩
  | cons s sm ih =>
      cases us with
      | nil => cases hlength
      | cons u us =>
          obtain ⟨hshows, hus⟩ := ih us (Nat.succ.inj hlength)
          exact ⟨List.Forall₂.cons (lapPoint_shows RL t0 s u) hshows, congrArg (roundTo u 1 :: ·) hus⟩

theorem forall₂_split {α β : Type*} {R : α → β → Prop} {xs xs' : List α} {ys : List β} (h : List.Forall₂ R (xs ++ xs') ys) :
    ∃ k k', ys = k ++ k' ∧ List.Forall₂ R xs k ∧ List.Forall₂ R xs' k' :=
  ⟨ys.take xs.length, ys.drop xs.length, (List.take_append_drop _ _).symm,
    (List.forall₂_take_append ys xs xs' h.flip).flip, (List.forall₂_drop_append ys xs xs' h.flip).flip⟩

theorem forall₂_times {RL t0 : ℚ} {sm : List StreamSample} {points : List Point} (h : List.Forall₂ (Shows RL t0) sm points) :
    points.map Point.t = sm.map fun s => roundTo (s.t - t0) 0 := by
  induction h with
  | nil => rfl
  | cons hshows _ ih => rw [List.map_cons, List.map_cons, hshows.t, ih]

theorem roundTo_mono {a b : ℚ} (h : a ≤ b) (d : ℕ) : roundTo a d ≤ roundTo b d := by
  have hten : (0 : ℚ) < 10 ^ d := by positivity
  have hround : mathRound (a * 10 ^ d) ≤ mathRound (b * 10 ^ d) :=
    Int.floor_le_floor (add_le_add_left (mul_le_mul_of_nonneg_right h hten.le) _)
  exact div_le_div_of_nonneg_right (Int.cast_le.mpr hround) hten.le

theorem roundTo_int (n : ℤ) : roundTo n 0 = n := by
  have hfloor : ⌊(n : ℚ) * 10 ^ 0 + 1 / 2⌋ = n := by
    rw [Int.floor_eq_iff]
    constructor <;> linarith
  rw [roundTo, mathRound, hfloor, pow_zero, div_one]

/-- **The positions of a lap never go back.** -/
theorem lapPositions_sorted (first : StreamSample) (previous v0 : ℚ) (rest : List StreamSample) :
    (lapPositions first previous v0 rest).length = rest.length ∧
      (previous :: lapPositions first previous v0 rest).Pairwise (· ≤ ·) := by
  induction rest generalizing previous with
  | nil => exact ⟨rfl, List.pairwise_singleton _ _⟩
  | cons s rest ih =>
      obtain ⟨hlength, hsorted⟩ := ih (max previous (v0 + (s.U - first.U)))
      refine ⟨congrArg Nat.succ hlength, List.pairwise_cons.mpr ⟨?_, hsorted⟩⟩
      intro u hu
      rcases List.mem_cons.mp hu with rfl | hu
      · exact le_max_left _ _
      · exact (le_max_left _ _).trans ((List.pairwise_cons.mp hsorted).1 u hu)

/-- What a lap keeps of the one it is rebuilt from. -/
structure SameLap (src L : RawLap) : Prop where
  name : L.name = src.name
  kind : L.kind = src.kind
  t0 : L.t0 = src.t0
  t1 : L.t1 = src.t1
  dur : L.dur = src.dur
  wh : L.wh = src.wh
  whOut : L.whOut = src.whOut
  whIn : L.whIn = src.whIn

/-- **A rebuilt lap**: it keeps its ends, duration and energies, shows every sample of its time once, with at most one more
point on its start and one on its end where the stream has none, and its clock and position never go back. -/
structure Rebuilt (RL : ℚ) (ST : List StreamSample) (src L : RawLap) : Prop where
  same : SameLap src L
  shows_ : ∃ front mid back, L.points = front ++ (mid ++ back) ∧
    List.Forall₂ (Shows RL src.t0) (ST.filter fun s => decide (src.t0 ≤ s.t ∧ s.t ≤ src.t1)) mid ∧
    front.length ≤ 1 ∧ back.length ≤ 1 ∧ (front ≠ [] → ∀ s ∈ ST, s.t ≠ src.t0) ∧ (back ≠ [] → ∀ s ∈ ST, s.t ≠ src.t1)
  clock : (L.points.map Point.t).Pairwise (· ≤ ·)
  forward : (L.points.map Point.u).Pairwise (· ≤ ·)

variable {hypot : ℚ → ℚ → ℚ}

theorem mkLap_points {RL : ℚ} {ST : List StreamSample} {src L : RawLap} (h : mkLap hypot RL ST src = some L) :
    4 ≤ (lapSamples ST src.t0 src.t1).length ∧ SameLap src L ∧
      List.Forall₂ (Shows RL src.t0) (lapSamples ST src.t0 src.t1) L.points ∧ (L.points.map Point.u).Pairwise (· ≤ ·) := by
  unfold mkLap at h
  dsimp only at h
  cases hsm : lapSamples ST src.t0 src.t1 with
  | nil => simp [hsm] at h
  | cons first rest =>
      rw [hsm] at h
      dsimp only at h
      by_cases hfew : (first :: rest).length < 4
      · rw [if_pos hfew] at h
        cases h
      · rw [if_neg hfew] at h
        obtain rfl := Option.some.inj h
        refine ⟨not_lt.mp hfew, ⟨rfl, rfl, rfl, rfl, rfl, rfl, rfl, rfl⟩, ?_⟩
        dsimp only
        obtain ⟨v0, hv0⟩ : ∃ v0, v0 = if RL / 2 < wrap first.U RL then wrap first.U RL - RL else wrap first.U RL := ⟨_, rfl⟩
        rw [← hv0]
        obtain ⟨hlength, hsorted⟩ := lapPositions_sorted first v0 v0 rest
        obtain ⟨hshows, hus⟩ := forall₂_lapPoint RL src.t0 (first :: rest) (v0 :: lapPositions first v0 v0 rest)
          (congrArg Nat.succ hlength.symm)
        refine ⟨hshows, ?_⟩
        rw [hus]
        exact List.pairwise_map.mpr (hsorted.imp fun hle => roundTo_mono hle 1)

section Cut
variable {RL : ℚ} {ST : List StreamSample} (hST : InTime ST)
include hST

/-- A boundary inside the stream: the samples around it. -/
theorem boundary {t : ℚ} (hpos : 0 < lowerBound ST t) (hlt : lowerBound ST t < ST.length) :
    ∃ a b rest, ST[lowerBound ST t - 1]? = some a ∧ ST[lowerBound ST t]? = some b ∧ ST.drop (lowerBound ST t) = b :: rest ∧
      a.t < t ∧ t ≤ b.t ∧ (∀ s ∈ rest, t < s.t) ∧ mixBefore ST (lowerBound ST t) t = [mixAt a b t] := by
  have hbound := lowerBound_spec hST t
  have hprevious : lowerBound ST t - 1 < ST.length := by omega
  have hdrop : ST.drop (lowerBound ST t) = ST[lowerBound ST t] :: ST.drop (lowerBound ST t + 1) :=
    (List.getElem_cons_drop hlt).symm
  have hb : t ≤ ST[lowerBound ST t].t := hbound.above _ (hdrop ▸ List.mem_cons_self)
  refine ⟨ST[lowerBound ST t - 1], ST[lowerBound ST t], ST.drop (lowerBound ST t + 1), List.getElem?_eq_getElem hprevious,
    List.getElem?_eq_getElem hlt, hdrop, hbound.below _ ?_, hb, ?_, ?_⟩
  · exact List.mem_take_iff_getElem.mpr ⟨lowerBound ST t - 1, by omega, rfl⟩
  · intro s hs
    have hsorted : (ST.drop (lowerBound ST t)).Pairwise fun s s' => s.t < s'.t := hST.sublist (List.drop_sublist _ _)
    rw [hdrop] at hsorted
    exact hb.trans_lt ((List.pairwise_cons.mp hsorted).1 s hs)
  · simp only [mixBefore, List.getElem?_eq_getElem hprevious, List.getElem?_eq_getElem hlt]

/-- What a lap has before the samples of the stream. -/
theorem startPart_spec (t0 : ℚ) :
    (startPart ST t0).length ≤ 1 ∧ ∀ s ∈ startPart ST t0, s.t = t0 ∧ ∀ s' ∈ ST, s'.t ≠ t0 := by
  have hbound := lowerBound_spec hST t0
  unfold startPart
  dsimp only
  split
  next hcond =>
    obtain ⟨hpos, hlt, hlater⟩ := hcond
    obtain ⟨a, b, rest, ha, hb, hdrop, hat, -, hrest, hmix⟩ := boundary hST hpos hlt
    rw [hb, Option.any_some] at hlater
    refine ⟨mixBefore_length _ _ _, ?_⟩
    intro s hs
    rw [hmix] at hs
    rw [List.mem_singleton.mp hs]
    refine ⟨rfl, ?_⟩
    intro s' hs'
    rw [← List.take_append_drop (lowerBound ST t0) ST, hdrop] at hs'
    rcases List.mem_append.mp hs' with hs' | hs'
    · exact (hbound.below s' hs').ne
    · rcases List.mem_cons.mp hs' with rfl | hs'
      · exact (of_decide_eq_true hlater).ne'
      · exact (hrest s' hs').ne'
  next => simp

/-- What a lap has behind the samples of the stream. -/
theorem endPart_spec (t1 : ℚ) (hpos : 0 < lowerBound ST t1) :
    (endPart ST t1).length ≤ 1 ∧ (∀ s ∈ endPart ST t1, s.t = t1) ∧
      ((∃ s s', endPart ST t1 = [s] ∧ (ST.drop (lowerBound ST t1)).filter (fun s => decide (s.t = t1)) = [s'] ∧ SameFix s s') ∨
        (ST.drop (lowerBound ST t1)).filter (fun s => decide (s.t = t1)) = [] ∧ ∀ s ∈ ST, s.t ≠ t1) := by
  have hbound := lowerBound_spec hST t1
  -- no sample at the end: none behind the bound is
  have hnone (habove : ∀ s ∈ ST.drop (lowerBound ST t1), t1 < s.t) :
      (ST.drop (lowerBound ST t1)).filter (fun s => decide (s.t = t1)) = [] ∧ ∀ s ∈ ST, s.t ≠ t1 := by
    refine ⟨List.filter_eq_nil_iff.mpr fun s hs => by simpa using (habove s hs).ne', ?_⟩
    intro s hs
    rw [← List.take_append_drop (lowerBound ST t1) ST] at hs
    rcases List.mem_append.mp hs with hs | hs
    · exact (hbound.below s hs).ne
    · exact (habove s hs).ne'
  by_cases hlt : lowerBound ST t1 < ST.length
  · obtain ⟨a, b, rest, -, -, hdrop, hat, htb, hrest, hmix⟩ := boundary hST hpos hlt
    rw [endPart, if_pos hlt, hmix]
    refine ⟨le_rfl, by simp [mixAt, mix], ?_⟩
    rcases htb.eq_or_lt with heq | hlater
    · refine Or.inl ⟨_, b, rfl, ?_, mixAt_later (heq ▸ hat) heq.symm⟩
      have hbehind : rest.filter (fun s => decide (s.t = t1)) = [] :=
        List.filter_eq_nil_iff.mpr fun s hs => by simpa using (hrest s hs).ne'
      rw [hdrop, List.filter_cons_of_pos (by simp [heq]), hbehind]
    · refine Or.inr (hnone ?_)
      rw [hdrop]
      exact List.forall_mem_cons.mpr ⟨hlater, hrest⟩
  · rw [endPart, if_neg hlt]
    refine ⟨by simp, by simp, Or.inr (hnone ?_)⟩
    rw [List.drop_eq_nil_of_le (not_lt.mp hlt)]
    simp

/-- Between two different bounds there is a sample. -/
theorem exists_between {t0 t1 : ℚ} (hlt : lowerBound ST t0 < lowerBound ST t1) : ∃ s ∈ ST, t0 ≤ s.t ∧ s.t < t1 := by
  have hle := (lowerBound_spec hST t1).le
  have hin : lowerBound ST t0 < ST.length := by omega
  refine ⟨ST[lowerBound ST t0], List.getElem_mem hin, (lowerBound_spec hST t0).above _ ?_, (lowerBound_spec hST t1).below _ ?_⟩
  · exact List.mem_drop_iff_getElem.mpr ⟨0, by omega, rfl⟩
  · exact List.mem_take_iff_getElem.mpr ⟨lowerBound ST t0, by omega, rfl⟩

/-- The samples of a lap, in the order of their times. -/
theorem lapSamples_clock {t0 t1 : ℚ} (hlength : 2 ≤ (lapSamples ST t0 t1).length) :
    (lapSamples ST t0 t1).Pairwise fun s s' => s.t ≤ s'.t := by
  obtain ⟨hlt, hsplit⟩ := lapSamples_split hST hlength
  obtain ⟨hone, hstart⟩ := startPart_spec hST t0
  obtain ⟨hone', hend, -⟩ := endPart_spec hST t1 (Nat.zero_lt_of_lt hlt)
  have hshort {l : List StreamSample} (h : l.length ≤ 1) : l.Pairwise fun s s' => s.t ≤ s'.t := by
    rcases l with _ | ⟨s, _ | ⟨s', l⟩⟩
    · exact List.Pairwise.nil
    · exact List.pairwise_singleton _ _
    · simp at h
  have hinner : ∀ s ∈ ST.filter (fun s => decide (t0 ≤ s.t ∧ s.t < t1)), t0 ≤ s.t ∧ s.t < t1 := fun s hs =>
    of_decide_eq_true (List.mem_filter.mp hs).2
  obtain ⟨s, -, hge, hbefore⟩ := exists_between hST hlt
  have hle : t0 ≤ t1 := hge.trans hbefore.le
  rw [hsplit]
  refine List.pairwise_append.mpr ⟨hshort hone, List.pairwise_append.mpr
    ⟨(hST.sublist List.filter_sublist).imp le_of_lt, hshort hone', ?_⟩, ?_⟩
  · intro s hs s' hs'
    exact (hinner s hs).2.le.trans (hend s' hs').ge
  · intro s hs s' hs'
    rw [(hstart s hs).1]
    rcases List.mem_append.mp hs' with hs' | hs'
    · exact (hinner s' hs').1
    · exact hle.trans (hend s' hs').ge

/-- **A kept lap is rebuilt.** -/
theorem mkLap_rebuilt {src L : RawLap} (h : mkLap hypot RL ST src = some L) : Rebuilt RL ST src L := by
  obtain ⟨hfour, hsame, hshows, hforward⟩ := mkLap_points h
  have htwo : 2 ≤ (lapSamples ST src.t0 src.t1).length := by omega
  obtain ⟨hlt, hsplit⟩ := lapSamples_split hST htwo
  obtain ⟨hone, hstart⟩ := startPart_spec hST src.t0
  obtain ⟨hone', -, hend⟩ := endPart_spec hST src.t1 (Nat.zero_lt_of_lt hlt)
  refine ⟨hsame, ?_, ?_, hforward⟩
  · obtain ⟨s, -, hge, hbefore⟩ := exists_between hST hlt
    have hle : src.t0 ≤ src.t1 := hge.trans hbefore.le
    rw [hsplit] at hshows
    obtain ⟨front, k, hpoints, hfront, hk⟩ := forall₂_split hshows
    obtain ⟨mid, back, rfl, hmid, hback⟩ := forall₂_split hk
    have hfrontEmpty : front ≠ [] → ∀ s ∈ ST, s.t ≠ src.t0 := by
      intro hne
      cases hparts : startPart ST src.t0 with
      | nil =>
          rw [hparts] at hfront
          exact absurd (List.forall₂_nil_left_iff.mp hfront) hne
      | cons s rest => exact (hstart s (hparts ▸ List.mem_cons_self)).2
    rw [filter_at (lowerBound_spec hST src.t1) hle]
    rcases hend with ⟨s, s', hfin, hat, hsame'⟩ | ⟨hat, hno⟩
    · -- the point on the end shows the sample that is there
      rw [hfin] at hback
      cases hback with
      | cons hs hnil =>
          cases hnil
          refine ⟨front, mid ++ [_], [], by simpa using hpoints, ?_, hfront.length_eq ▸ hone, by simp, hfrontEmpty, by simp⟩
          rw [hat]
          exact List.rel_append hmid (List.Forall₂.cons (hs.same hsame') List.Forall₂.nil)
    · refine ⟨front, mid, back, hpoints, ?_, hfront.length_eq ▸ hone, hback.length_eq ▸ hone', hfrontEmpty, fun _ => hno⟩
      rw [hat, List.append_nil]
      exact hmid
  · rw [forall₂_times hshows]
    exact List.pairwise_map.mpr ((lapSamples_clock hST htwo).imp fun hle => roundTo_mono (sub_le_sub_right hle _) 0)

/-- The first sample of a kept lap that begins inside the stream shows what is interpolated there. -/
theorem lapSamples_head {t0 t1 : ℚ} (hlength : 2 ≤ (lapSamples ST t0 t1).length) (hpos : 0 < lowerBound ST t0)
    {a b : StreamSample}
    {rest : List StreamSample} (hb : ST[lowerBound ST t0]? = some b) (hdrop : ST.drop (lowerBound ST t0) = b :: rest)
    (hat : a.t < t0) (htb : t0 ≤ b.t) (hmix : mixBefore ST (lowerBound ST t0) t0 = [mixAt a b t0]) :
    ∃ s more, lapSamples ST t0 t1 = s :: more ∧ SameFix (mixAt a b t0) s := by
  obtain ⟨hlt, hsplit⟩ := lapSamples_split hST hlength
  have hin : lowerBound ST t0 < ST.length := (List.getElem?_eq_some_iff.mp hb).1
  rcases htb.eq_or_lt with heq | hlater
  · -- a sample of the stream is on the start
    have hnone : startPart ST t0 = [] := by
      refine if_neg ?_
      rintro ⟨-, -, hlater⟩
      rw [hb, Option.any_some] at hlater
      exact (of_decide_eq_true hlater).ne heq
    obtain ⟨k, hk⟩ : ∃ k, lowerBound ST t1 - lowerBound ST t0 = k + 1 := ⟨lowerBound ST t1 - lowerBound ST t0 - 1, by omega⟩
    rw [hnone, ← filter_between (lowerBound_spec hST t0) (lowerBound_spec hST t1) hlt.le, hdrop, hk,
      List.take_succ_cons] at hsplit
    exact ⟨b, _, hsplit, mixAt_later (heq ▸ hat) heq.symm⟩
  · have hone : startPart ST t0 = [mixAt a b t0] := by
      rw [← hmix]
      exact if_pos ⟨hpos, hin, by rw [hb, Option.any_some]; exact decide_eq_true hlater⟩
    rw [hone] at hsplit
    exact ⟨_, _, hsplit, ⟨rfl, rfl, rfl, rfl, rfl, rfl, rfl⟩⟩

/-- **Where two laps meet**: the last point of one and the first of the other show the same, at the shared time. -/
structure Joined (A B : RawLap) (p q : Point) : Prop where
  last : A.points.getLast? = some p
  first : B.points.head? = some q
  x : p.x = q.x
  y : p.y = q.y
  spd : p.spd = q.spd
  way : p.s = q.s
  dev : p.dev = q.dev
  v : p.v = q.v
  clock : p.t = roundTo (A.t1 - A.t0) 0
  clock' : q.t = 0
  shared : (∃ n : ℤ, A.t1 - A.t0 = n) → A.t0 + p.t = A.t1

/-- **Two kept laps that share a time are joined.** -/
theorem mkLap_joined {srcA srcB A B : RawLap} (hA : mkLap hypot RL ST srcA = some A) (hB : mkLap hypot RL ST srcB = some B)
    (hshared : A.t1 = B.t0) : ∃ p q, Joined A B p q := by
  obtain ⟨hfourA, hsameA, hshowsA, -⟩ := mkLap_points hA
  obtain ⟨hfourB, hsameB, hshowsB, -⟩ := mkLap_points hB
  have htwoA : 2 ≤ (lapSamples ST srcA.t0 srcA.t1).length := by omega
  have htwoB : 2 ≤ (lapSamples ST srcB.t0 srcB.t1).length := by omega
  obtain ⟨hltA, hsplitA⟩ := lapSamples_split hST htwoA
  obtain ⟨hltB, -⟩ := lapSamples_split hST htwoB
  have ht : srcA.t1 = srcB.t0 := by rw [← hsameA.t1, hshared, hsameB.t0]
  rw [ht] at hltA hsplitA
  have hle := (lowerBound_spec hST srcB.t1).le
  have hpos : 0 < lowerBound ST srcB.t0 := Nat.zero_lt_of_lt hltA
  have hin : lowerBound ST srcB.t0 < ST.length := by omega
  obtain ⟨a, b, rest, -, hb, hdrop, hat, htb, -, hmix⟩ := boundary hST hpos hin
  obtain ⟨s, more, hhead, hsame⟩ := lapSamples_head hST htwoB hpos hb hdrop hat htb hmix
  rw [ht, hsplitA, endPart, if_pos hin, hmix, ← List.append_assoc] at hshowsA
  rw [hhead] at hshowsB
  obtain ⟨front, back, hpointsA, -, hback⟩ := forall₂_split hshowsA
  cases hback with
  | cons hp hnil =>
      cases hnil
      rename_i p
      cases hpointsB : B.points with
      | nil =>
          rw [hpointsB] at hshowsB
          cases hshowsB
      | cons q points =>
          rw [hpointsB] at hshowsB
          cases hshowsB with
          | cons hq _ =>
              have hclock : p.t = roundTo (A.t1 - A.t0) 0 := by
                rw [hp.t, hsameA.t0, hshared, hsameB.t0]
                rfl
              refine ⟨p, q, by rw [hpointsA, List.getLast?_concat], by rw [hpointsB]; rfl, ?_, ?_, ?_, ?_, ?_, ?_, hclock,
                ?_, ?_⟩
              · rw [hp.x, hq.x, hsame.x]
              · rw [hp.y, hq.y, hsame.y]
              · rw [hp.spd, hq.spd, hsame.spd]
              · rw [hp.way, hq.way, hsame.U]
              · rw [hp.dev, hq.dev, hsame.dev]
              · rw [hp.v, hq.v, hsame.v]
              · have hzero : s.t - srcB.t0 = 0 := by
                  rw [← hsame.t]
                  exact sub_self _
                rw [hq.t, hzero]
                exact_mod_cast roundTo_int 0
              · rintro ⟨n, hn⟩
                rw [hclock, hn, roundTo_int, ← hn]
                ring

end Cut

/-! ## The run -/

/-- The runs that are rebuilt. -/
structure Rebuilds (hypot : ℚ → ℚ → ℚ) (D0 : RunData) : Prop where
  laps : D0.laps ≠ []
  closed : D0.isOpen = false
  samples : 8 ≤ D0.stream.length
  timed : ((D0.kept hypot).filter fun l => l.kind = .lap) ≠ []

/-- The laps of a rebuilt run are those that are kept. -/
theorem mem_rebuildRun {D0 : RunData} (h : Rebuilds hypot D0) {L : RawLap} (hL : L ∈ (rebuildRun hypot D0).laps) :
    ∃ src ∈ D0.laps, mkLap hypot D0.RL D0.stream src = some L := by
  have hguard : ¬ (D0.laps = [] ∨ D0.isOpen = true) := by simp [h.laps, h.closed]
  have hkept : L ∈ D0.kept hypot := by
    unfold rebuildRun at hL
    dsimp only at hL
    rw [if_neg hguard, if_neg (not_lt.mpr h.samples), if_neg h.timed] at hL
    rcases List.mem_append.mp hL with hL | hL
    · exact List.mem_of_mem_filter hL
    · exact List.mem_of_mem_filter (List.mem_mergeSort.mp hL)
  obtain ⟨src, hsrc, hmk⟩ := List.mem_filterMap.mp hkept
  exact ⟨src, List.mem_mergeSort.mp hsrc, hmk⟩

/-- **Rebuilding a run loses no time between laps.** -/
theorem rebuilt_run (hypot : ℚ → ℚ → ℚ) (D0 : RunData) (h : Rebuilds hypot D0) :
    (∀ L ∈ (rebuildRun hypot D0).laps, ∃ src ∈ D0.laps, Rebuilt D0.RL D0.stream src L) ∧
      ∀ A ∈ (rebuildRun hypot D0).laps, ∀ B ∈ (rebuildRun hypot D0).laps, A.t1 = B.t0 → ∃ p q, Joined A B p q := by
  constructor
  · intro L hL
    obtain ⟨src, hsrc, hmk⟩ := mem_rebuildRun h hL
    exact ⟨src, hsrc, mkLap_rebuilt D0.stream_inTime hmk⟩
  · intro A hA B hB hshared
    obtain ⟨srcA, -, hmkA⟩ := mem_rebuildRun h hA
    obtain ⟨srcB, -, hmkB⟩ := mem_rebuildRun h hB
    exact mkLap_joined D0.stream_inTime hmkA hmkB hshared

/-! ## Laps of half a millisecond -/

def plainLap (name : String) (t0 t1 : ℚ) (ts : List ℚ) : RawLap :=
  { points := ts.map fun t =>
      { t := t, u := t, v := fun _ => 0, cells := [], x := t0 + t, y := 0, spd := 0, s := t0 + t, dev := 0 }
    name := name, kind := .lap, t0 := t0, t1 := t1, dur := t1 - t0, sec := fun _ => none, dist := 0, vmax := 0, vavg := 0
    dev := 0, wh := none, whOut := none, whIn := none }

/-- Two laps that meet between two milliseconds. -/
def halfRun : RunData :=
  { RL := 90, isOpen := false
    laps := [plainLap "1" 0 (7 / 2) [0, 1, 2, 3], plainLap "2" (7 / 2) 8 [1 / 2, 3 / 2, 5 / 2, 7 / 2]] }

theorem halfRun_times : halfRun.stream.map StreamSample.t = [0, 1, 2, 3, 4, 5, 6, 7] := by
  have hsorted : byStart halfRun.laps = halfRun.laps := by
    refine List.mergeSort_of_pairwise ?_
    norm_num [halfRun, plainLap]
  rw [RunData.stream, hsorted, unroll_times]
  norm_num [stream, halfRun, plainLap, pushSample]

theorem lowerBound_count {ST : List StreamSample} (hST : InTime ST) (t : ℚ) :
    lowerBound ST t = (ST.map StreamSample.t).countP fun x => decide (x < t) := by
  have hbound := lowerBound_spec hST t
  have hbefore : (ST.take (lowerBound ST t)).countP (fun s => decide (s.t < t)) = lowerBound ST t := by
    rw [List.countP_eq_length.mpr fun s hs => decide_eq_true (hbound.below s hs), List.length_take, min_eq_left hbound.le]
  have hbehind : (ST.drop (lowerBound ST t)).countP (fun s => decide (s.t < t)) = 0 :=
    List.countP_eq_zero.mpr fun s hs => by simpa using hbound.above s hs
  have hsplit : ST.countP (fun s => decide (s.t < t)) = lowerBound ST t + 0 := by
    conv_lhs => rw [← List.take_append_drop (lowerBound ST t) ST]
    rw [List.countP_append, hbefore, hbehind]
  rw [List.countP_map]
  exact hsplit.symm

/-- A lap with four samples of the stream is kept. -/
theorem mkLap_kept (hypot : ℚ → ℚ → ℚ) (RL : ℚ) {ST : List StreamSample} (hST : InTime ST) {src : RawLap}
    (hfour : 4 ≤ lowerBound ST src.t1 - lowerBound ST src.t0) : ∃ L, mkLap hypot RL ST src = some L ∧ SameLap src L := by
  have hle := (lowerBound_spec hST src.t1).le
  have hlength : 4 ≤ (lapSamples ST src.t0 src.t1).length := by
    have hmid : 4 ≤ (startPart ST src.t0 ++
        (ST.drop (lowerBound ST src.t0)).take (lowerBound ST src.t1 - lowerBound ST src.t0)).length := by
      rw [List.length_append, List.length_take, List.length_drop]
      omega
    rw [lapSamples_eq]
    split
    · rw [List.length_append]
      omega
    · exact hmid
  obtain ⟨L, hL⟩ : ∃ L, mkLap hypot RL ST src = some L := by
    unfold mkLap
    dsimp only
    cases hsm : lapSamples ST src.t0 src.t1 with
    | nil =>
        rw [hsm] at hlength
        cases hlength
    | cons first rest =>
        rw [hsm] at hlength
        dsimp only
        rw [if_neg (not_lt.mpr hlength)]
        exact ⟨_, rfl⟩
  exact ⟨L, hL, (mkLap_points hL).2.1⟩

theorem halfRun_kept (hypot : ℚ → ℚ → ℚ) :
    ∀ src ∈ halfRun.laps, ∃ L, mkLap hypot halfRun.RL halfRun.stream src = some L ∧ SameLap src L := by
  have hcount (t : ℚ) := lowerBound_count halfRun.stream_inTime t
  rw [halfRun_times] at hcount
  intro src hsrc
  refine mkLap_kept hypot halfRun.RL halfRun.stream_inTime ?_
  rw [hcount, hcount]
  simp only [halfRun, List.mem_cons, List.not_mem_nil, or_false] at hsrc
  rcases hsrc with rfl | rfl <;> norm_num [plainLap, List.countP, List.countP.go]

theorem halfRun_rebuilds (hypot : ℚ → ℚ → ℚ) : Rebuilds hypot halfRun := by
  refine ⟨by simp [halfRun], rfl, ?_, ?_⟩
  · have hlength := congrArg List.length halfRun_times
    rw [List.length_map] at hlength
    exact hlength.ge
  · obtain ⟨L, hL, hsame⟩ := halfRun_kept hypot _ List.mem_cons_self
    refine List.ne_nil_of_mem (a := L) (List.mem_filter.mpr ⟨List.mem_filterMap.mpr ⟨_, ?_, hL⟩, ?_⟩)
    · exact List.mem_mergeSort.mpr List.mem_cons_self
    · exact decide_eq_true hsame.kind

/-- The laps of the run that is rebuilt. -/
theorem halfRun_mem (hypot : ℚ → ℚ → ℚ) {src L : RawLap} (hsrc : src ∈ halfRun.laps) (hkind : src.kind = .lap)
    (hL : mkLap hypot halfRun.RL halfRun.stream src = some L) (hsame : SameLap src L) : L ∈
        (rebuildRun hypot halfRun).laps := by
  have h := halfRun_rebuilds hypot
  have hguard : ¬ (halfRun.laps = [] ∨ halfRun.isOpen = true) := by simp [h.laps, h.closed]
  unfold rebuildRun
  dsimp only
  rw [if_neg hguard, if_neg (not_lt.mpr h.samples), if_neg h.timed]
  refine List.mem_append_left _ (List.mem_filter.mpr ⟨List.mem_filterMap.mpr ⟨src, List.mem_mergeSort.mpr hsrc, hL⟩, ?_⟩)
  exact decide_eq_true (hsame.kind.trans hkind)

/-- The two laps of the run share a time. -/
theorem halfRun_pair :
    ∃ A ∈ (rebuildRun (fun _ _ => 0) halfRun).laps, ∃ B ∈ (rebuildRun (fun _ _ => 0) halfRun).laps,
      (A.t0 = 0 ∧ A.t1 = 7 / 2) ∧ A.t1 = B.t0 := by
  obtain ⟨A, hA, hsameA⟩ := halfRun_kept (fun _ _ => 0) (plainLap "1" 0 (7 / 2) [0, 1, 2, 3]) (by simp [halfRun])
  obtain ⟨B, hB, hsameB⟩ := halfRun_kept (fun _ _ => 0) (plainLap "2" (7 / 2) 8 [1 / 2, 3 / 2, 5 / 2, 7 / 2])
      (by simp [halfRun])
  have hshared : A.t1 = B.t0 := by
    rw [hsameA.t1, hsameB.t0]
    rfl
  exact ⟨A, halfRun_mem _ (by simp [halfRun]) rfl hA hsameA, B, halfRun_mem _ (by simp [halfRun]) rfl hB hsameB,
    ⟨hsameA.t0, hsameA.t1⟩, hshared⟩

/-- The two laps of the run, rebuilt. -/
theorem rebuilt_run_half :
    ∃ A ∈ (rebuildRun (fun _ _ => 0) halfRun).laps, ∃ B ∈ (rebuildRun (fun _ _ => 0) halfRun).laps,
      A.t1 = B.t0 ∧ ∃ p q, Joined A B p q := by
  obtain ⟨A, hA, B, hB, -, hshared⟩ := halfRun_pair
  exact ⟨A, hA, B, hB, hshared, (rebuilt_run (fun _ _ => 0) halfRun (halfRun_rebuilds _)).2 A hA B hB hshared⟩

/-- **A joint between two milliseconds**: the last point of a lap is not at the shared time. -/
theorem joint_rounded :
    ¬ ∀ (D0 : RunData), Rebuilds (fun _ _ => 0) D0 → ∀ A ∈ (rebuildRun (fun _ _ => 0) D0).laps,
      ∀ B ∈ (rebuildRun (fun _ _ => 0) D0).laps, A.t1 = B.t0 → ∃ p, A.points.getLast? = some p ∧ A.t0 + p.t = A.t1 := by
  intro h
  obtain ⟨A, hA, B, hB, ⟨ht0, ht1⟩, hshared⟩ := halfRun_pair
  obtain ⟨p, hp, hat⟩ := h halfRun (halfRun_rebuilds _) A hA B hB hshared
  obtain ⟨_, -, hmkA⟩ := mem_rebuildRun (halfRun_rebuilds _) hA
  obtain ⟨_, -, hmkB⟩ := mem_rebuildRun (halfRun_rebuilds _) hB
  obtain ⟨p', q, hjoined⟩ := mkLap_joined halfRun.stream_inTime hmkA hmkB hshared
  obtain rfl : p = p' := Option.some.inj (hp.symm.trans hjoined.last)
  rw [hjoined.clock, ht0, ht1] at hat
  have hround : roundTo (7 / 2 - 0) 0 = 4 := by
    norm_num [roundTo, mathRound]
  rw [hround] at hat
  norm_num at hat

end Lhre.DriveDay
