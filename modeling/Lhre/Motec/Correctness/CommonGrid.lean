import Lhre.Motec.Resample

/-!
# `Motec.Correctness.CommonGrid` — when all channels are on one grid

With a rate every channel gets the same grid. Without one each channel takes its own, and the grids agree only where the rates
do, or where the log is too short for a second point. The values are interpolated in any case.

## Contents
- **The law.** `Interpolates`, `OneGrid`.
- **One channel.** `advance_spec`, `resampleLoop_spec`.
- **Grids.** `grid`, `grid_increasing`, `grid_eq_iff`.
- **`one_grid_iff`.**
-/

namespace Lhre.Motec

/-! ## The law -/

/-- A value on the line through the samples, held constant outside them. -/
def Interpolates (samples : List Sample) (t : ℚ) (value : Option ℚ) : Prop :=
  (∃ first ∈ samples.head?, t ≤ first.t ∧ value = first.value) ∨ (∃ last ∈ samples.getLast?, last.t ≤ t ∧ value = last.value) ∨
    ∃ front a b back, samples = front ++ a :: b :: back ∧ a.t < t ∧ t ≤ b.t ∧
      value = a.value.bind fun x => b.value.map fun y => x + (y - x) * ((t - a.t) / (b.t - a.t))

/-- What a resampled log promises. -/
structure OneGrid (log after : DataLog) : Prop where
  same : ∀ c ∈ after.written, ∀ d ∈ after.written, c.samples.map (·.t) = d.samples.map (·.t)
  increasing : ∀ c ∈ after.written, c.samples.Pairwise fun a b => a.t < b.t
  within : ∀ c ∈ after.written, ∀ s ∈ c.samples, log.start ≤ s.t ∧ s.t ≤ log.finish
  values : List.Forall₂ (fun c c' => ∀ s ∈ c'.samples, Interpolates c.samples s.t s.value) log.channels after.channels
  /-- A row of the table is full, and of one time. -/
  rows : ∀ i, ∀ c ∈ after.written, ∀ s ∈ c.samples[i]?, s.t = csvElapsed after.written i ∧
    ∀ d ∈ after.written, i < d.samples.length

/-! ## One channel -/

section Channel

variable {source : List Sample}

/-- The index stops at the two samples around `t`. -/
theorem advance_spec {t : ℚ} {last : Sample} (hlast : t < last.t) (rest front : List Sample) (hrest : source = front ++ rest)
    {a : Sample} {more : List Sample} (ha : rest = a :: more) (hat : a.t < t) (hend : rest.getLast? = some last) :
    ∃ front' a' b back, advance t rest = a' :: b :: back ∧ source = front' ++ a' :: b :: back ∧ a'.t < t ∧ t ≤ b.t ∧
      (a' :: b :: back).getLast? = some last := by
  induction more generalizing a rest front with
  | nil =>
      subst ha
      obtain rfl : a = last := by simpa using hend
      exact absurd hat (not_lt.mpr hlast.le)
  | cons b more ih =>
      subst ha
      rw [advance]
      by_cases hb : b.t < t
      · rw [if_pos hb]
        refine ih (b :: more) (front ++ [a]) ?_ rfl hb ?_
        · rw [hrest, List.append_assoc]
          rfl
        · rwa [List.getLast?_cons_cons] at hend
      · rw [if_neg hb]
        exact ⟨front, a, b, more, rfl, hrest, hat, not_lt.mp hb, hend⟩

/-- What the loop writes: the points of the grid, each with the interpolated value. -/
theorem resampleLoop_spec {first last : Sample} (start finish : ℚ) {step : ℚ} (hfirst : source.head? = some first)
    (hlast : source.getLast? = some last) (hstep : 0 ≤ step) (count n : ℕ) (front rest : List Sample)
    (hrest : source = front ++ rest) {a : Sample} {more : List Sample} (ha : rest = a :: more)
    (hindex : front = [] ∨ a.t < min finish (start + n * step)) :
    (resampleLoop first last start finish step count n rest).map (·.t) =
        (List.range count).map (fun i => min finish (start + ((n + i : ℕ) : ℚ) * step)) ∧
      ∀ s ∈ resampleLoop first last start finish step count n rest, Interpolates source s.t s.value := by
  induction count generalizing n front rest a more with
  | zero => exact ⟨rfl, fun s hs => by cases hs⟩
  | succ count ih =>
      have hlater {x : ℚ} (hx : x < min finish (start + n * step)) : x < min finish (start + ((n + 1 : ℕ) : ℚ) * step) := by
        refine hx.trans_le (min_le_min_left finish ?_)
        push_cast
        linarith [mul_nonneg (by norm_num : (0 : ℚ) ≤ 1) hstep]
      have hgrid : (List.range (count + 1)).map (fun i => min finish (start + ((n + i : ℕ) : ℚ) * step)) =
          min finish (start + n * step) ::
            (List.range count).map fun i => min finish (start + ((n + 1 + i : ℕ) : ℚ) * step) := by
        rw [List.range_succ_eq_map, List.map_cons, List.map_map]
        congr 1
        refine List.map_congr_left fun i _ => ?_
        rw [Function.comp, show n + Nat.succ i = n + 1 + i by omega]
      rw [resampleLoop, hgrid]
      dsimp only
      split
      · rename_i hle
        obtain ⟨htimes, hvalues⟩ := ih (n + 1) front rest hrest ha (hindex.imp_right hlater)
        refine ⟨by rw [List.map_cons, htimes], ?_⟩
        intro s hs
        rcases List.mem_cons.mp hs with rfl | hs
        · exact Or.inl ⟨first, hfirst, hle, rfl⟩
        · exact hvalues s hs
      · rename_i hpast
        split
        · rename_i hge
          obtain ⟨htimes, hvalues⟩ := ih (n + 1) front rest hrest ha (hindex.imp_right hlater)
          refine ⟨by rw [List.map_cons, htimes], ?_⟩
          intro s hs
          rcases List.mem_cons.mp hs with rfl | hs
          · exact Or.inr (Or.inl ⟨last, hlast, hge, rfl⟩)
          · exact hvalues s hs
        · rename_i hbefore
          have hat : a.t < min finish (start + n * step) := by
            rcases hindex with rfl | hlt
            · have heq : a = first := by
                rw [hrest, ha] at hfirst
                simpa using hfirst
              rw [heq]
              exact not_le.mp hpast
            · exact hlt
          have hend : rest.getLast? = some last := by
            rw [hrest, ha, List.getLast?_append_of_ne_nil _ (List.cons_ne_nil a more)] at hlast
            rwa [ha]
          obtain ⟨front', a', b, back, hadvance, hsource, hat', hbt, -⟩ :=
            advance_spec (not_le.mp hbefore) rest front hrest ha hat hend
          rw [hadvance]
          dsimp only
          obtain ⟨htimes, hvalues⟩ := ih (n + 1) front' (a' :: b :: back) hsource rfl (Or.inr (hlater hat'))
          refine ⟨by rw [List.map_cons, htimes], ?_⟩
          intro s hs
          rcases List.mem_cons.mp hs with rfl | hs
          · refine Or.inr (Or.inr ⟨front', a', b, back, hsource, hat', hbt, ?_⟩)
            exact if_neg (not_le.mpr (hat'.trans_le hbt))
          · exact hvalues s hs

end Channel

/-! ## Grids -/

section Grid

variable {start finish hz : ℚ}

/-- The points of a grid. -/
def grid (start finish hz : ℚ) : List ℚ := (List.range (gridCount start finish hz)).map fun i : ℕ => start + (i : ℚ) * (1 / hz)

/-- Which points a grid has. -/
theorem lt_gridCount (hspan : start < finish) (hhz : 0 < hz) {n : ℕ} :
    n < gridCount start finish hz ↔ (n : ℚ) ≤ (finish - start) * hz := by
  have hpos : 0 < (finish - start) * hz := mul_pos (sub_pos.mpr hspan) hhz
  have hfloor : 0 ≤ ⌊(finish - start) * hz⌋ := Int.floor_nonneg.mpr hpos.le
  have hle : (n : ℚ) ≤ (finish - start) * hz ↔ (n : ℤ) ≤ ⌊(finish - start) * hz⌋ := by
    rw [Int.le_floor, Int.cast_natCast]
  rw [hle, gridCount]
  omega

theorem one_le_gridCount : 1 ≤ gridCount start finish hz := le_max_left _ _

/-- No point of a grid is cut off at the end. -/
theorem grid_le (hspan : start < finish) (hhz : 0 < hz) {n : ℕ} (hn : n < gridCount start finish hz) :
    start + (n : ℚ) * (1 / hz) ≤ finish := by
  have hle := (lt_gridCount hspan hhz).mp hn
  have hdiv : (n : ℚ) * (1 / hz) ≤ finish - start := by
    rw [mul_one_div, div_le_iff₀ hhz]
    exact hle
  linarith

theorem grid_increasing (hhz : 0 < hz) : (grid start finish hz).Pairwise (· < ·) := by
  rw [grid, List.pairwise_map]
  refine List.pairwise_lt_range.imp fun {i j} hij => ?_
  have hcast : (i : ℚ) < j := Nat.cast_lt.mpr hij
  have hstep : 0 < 1 / hz := one_div_pos.mpr hhz
  linarith [mul_lt_mul_of_pos_right hcast hstep]

theorem grid_within (hspan : start < finish) (hhz : 0 < hz) {t : ℚ} (ht : t ∈ grid start finish hz) :
    start ≤ t ∧ t ≤ finish := by
  obtain ⟨n, hn, rfl⟩ := List.mem_map.mp ht
  refine ⟨?_, grid_le hspan hhz (List.mem_range.mp hn)⟩
  have : 0 ≤ (n : ℚ) * (1 / hz) := by positivity
  linarith

/-- **Two grids** are the same where the rates are, or where neither has a second point. -/
theorem grid_eq_iff {hz' : ℚ} (hspan : start < finish) (hhz : 0 < hz) (hhz' : 0 < hz') :
    grid start finish hz = grid start finish hz' ↔
      hz = hz' ∨ ((finish - start) * hz < 1 ∧ (finish - start) * hz' < 1) := by
  have hone {x : ℚ} (hx : 0 < x) : gridCount start finish x = 1 ↔ (finish - start) * x < 1 := by
    have hsecond := lt_gridCount hspan hx (n := 1)
    have hleast : 1 ≤ gridCount start finish x := one_le_gridCount
    rw [Nat.cast_one] at hsecond
    rw [← not_le, ← hsecond]
    omega
  constructor
  · intro heq
    have hcount : gridCount start finish hz = gridCount start finish hz' := by
      have := congrArg List.length heq
      simpa [grid] using this
    by_cases hshort : (finish - start) * hz < 1
    · exact Or.inr ⟨hshort, (hone hhz').mp (hcount.symm.trans ((hone hhz).mpr hshort))⟩
    · left
      have hsecond : 1 < gridCount start finish hz := by
        have hleast : 1 ≤ gridCount start finish hz := one_le_gridCount
        have hne := mt (hone hhz).mp hshort
        omega
      have hpoint := congrArg (·[1]?) heq
      simp only [grid, List.getElem?_map, List.getElem?_range hsecond, List.getElem?_range (hcount ▸ hsecond),
        Option.map_some] at hpoint
      have hstep : 1 / hz = 1 / hz' := by
        have := Option.some.inj hpoint
        push_cast at this
        linarith
      simpa using hstep
  · rintro (rfl | ⟨hshort, hshort'⟩)
    · rfl
    · rw [grid, grid, (hone hhz).mpr hshort, (hone hhz').mpr hshort']
      simp

/-- A resampled channel is on its grid, and its values are interpolated. -/
theorem resample_spec {c : Channel} (hne : c.samples ≠ []) {f : Option ℚ} (hspan : start < finish) (hhz : 0 < c.targetHz f) :
    (c.resample start finish f).samples.map (·.t) = grid start finish (c.targetHz f) ∧
      ∀ s ∈ (c.resample start finish f).samples, Interpolates c.samples s.t s.value := by
  obtain ⟨first, rest, hfirst⟩ := List.exists_cons_of_ne_nil hne
  obtain ⟨last, hlast⟩ : ∃ last, c.samples.getLast? = some last := ⟨_, List.getLast?_eq_some_getLast hne⟩
  have hhead : c.samples.head? = some first := by rw [hfirst]; rfl
  have hgo : ¬ (c.targetHz f ≤ 0 ∨ finish ≤ start) := not_or.mpr ⟨not_le.mpr hhz, not_le.mpr hspan⟩
  have hsamples : (c.resample start finish f).samples =
      resampleLoop first last start finish (1 / c.targetHz f) (gridCount start finish (c.targetHz f)) 0 c.samples := by
    rw [Channel.resample, hhead, hlast]
    dsimp only
    rw [if_neg hgo]
  obtain ⟨htimes, hvalues⟩ := resampleLoop_spec start finish hhead hlast (one_div_pos.mpr hhz).le
    (gridCount start finish (c.targetHz f)) 0 [] c.samples rfl hfirst (Or.inl rfl)
  rw [hsamples]
  refine ⟨htimes.trans (List.map_congr_left fun i hi => ?_), hvalues⟩
  rw [Nat.zero_add]
  exact min_eq_right (grid_le hspan hhz (List.mem_range.mp hi))

end Grid

/-! ## The log -/

theorem one_le_ownHz (c : Channel) : 1 ≤ c.ownHz := le_max_left _ _

/-- A channel with samples is resampled to one with samples, and an empty one stays. -/
theorem samples_ne_nil {c : Channel} {start finish : ℚ} {f : Option ℚ} (hspan : start < finish) (hhz : 0 < c.targetHz f) :
    (c.resample start finish f).samples ≠ [] ↔ c.samples ≠ [] := by
  by_cases hne : c.samples = []
  · rw [Channel.resample, hne]
    simp [hne]
  · refine iff_of_true ?_ hne
    have htimes := (resample_spec hne hspan hhz).1
    intro hnil
    rw [hnil] at htimes
    have hlength := congrArg List.length htimes
    have hleast : 1 ≤ gridCount start finish (c.targetHz f) := one_le_gridCount
    simp [grid] at hlength
    omega

theorem mem_written {log : DataLog} {c : Channel} : c ∈ log.written ↔ c ∈ log.channels ∧ c.samples ≠ [] := by
  simp [DataLog.written]

/-- The channels of the resampled log. -/
theorem mem_written_resample {log : DataLog} {f : Option ℚ} (hspan : log.start < log.finish)
    (hhz : ∀ c ∈ log.channels, 0 < c.targetHz f) {c' : Channel} :
    c' ∈ (log.resample f).written ↔ ∃ c ∈ log.written, c' = c.resample log.start log.finish f := by
  rw [mem_written, DataLog.resample, List.mem_map]
  constructor
  · rintro ⟨⟨c, hc, rfl⟩, hne⟩
    exact ⟨c, mem_written.mpr ⟨hc, (samples_ne_nil hspan (hhz c hc)).mp hne⟩, rfl⟩
  · rintro ⟨c, hc, rfl⟩
    obtain ⟨hmem, hne⟩ := mem_written.mp hc
    exact ⟨⟨c, hmem, rfl⟩, (samples_ne_nil hspan (hhz c hmem)).mpr hne⟩

/-- The time of a row, where all channels have the same times. -/
theorem csvElapsed_eq {channels : List Channel}
    (hsame : ∀ c ∈ channels, ∀ d ∈ channels, c.samples.map (·.t) = d.samples.map (·.t)) {c : Channel} (hc : c ∈ channels)
    {i : ℕ} {s : Sample} (hs : c.samples[i]? = some s) : s.t = csvElapsed channels i := by
  rw [csvElapsed]
  cases hfirst : channels.findSome? fun c => c.samples[i]? with
  | none =>
      rw [List.findSome?_eq_none_iff] at hfirst
      rw [hfirst c hc] at hs
      cases hs
  | some s' =>
      obtain ⟨front, d, back, heq, hs', -⟩ := List.findSome?_eq_some_iff.mp hfirst
      have hd : d ∈ channels := by
        rw [heq]
        simp
      have htimes := congrArg (·[i]?) (hsame c hc d hd)
      simp only [List.getElem?_map, hs, hs', Option.map_some] at htimes
      exact Option.some.inj htimes

theorem targetHz_pos {f : Option ℚ} (hf : ∀ hz ∈ f, 0 < hz) (c : Channel) : 0 < c.targetHz f := by
  unfold Channel.targetHz
  split
  · exact zero_lt_one.trans_le (one_le_ownHz c)
  · rename_i hz
    rw [if_neg (hf hz rfl).ne']
    exact hf hz rfl

/-- The grids of all channels are the same where a rate is given, or where their own rates are, or reach no second point. -/
theorem grids_agree_iff {log : DataLog} (hspan : log.start < log.finish) {f : Option ℚ} (hf : ∀ hz ∈ f, 0 < hz) :
    (∀ c ∈ log.written, ∀ d ∈ log.written,
      grid log.start log.finish (c.targetHz f) = grid log.start log.finish (d.targetHz f)) ↔
        f.isSome ∨ ∀ c ∈ log.written, ∀ d ∈ log.written, c.ownHz = d.ownHz ∨
          ((log.finish - log.start) * c.ownHz < 1 ∧ (log.finish - log.start) * d.ownHz < 1) := by
  cases f with
  | none =>
      have hiff (c d : Channel) := grid_eq_iff hspan (targetHz_pos hf c) (targetHz_pos hf d)
      simp only [Channel.targetHz] at hiff ⊢
      simp only [hiff, Option.isSome_none, Bool.false_eq_true, false_or]
  | some hz =>
      refine iff_of_true ?_ (Or.inl rfl)
      intro c _ d _
      have hne : hz ≠ 0 := (hf hz rfl).ne'
      simp only [Channel.targetHz, if_neg hne]

/-- **All channels are on one grid** exactly when a rate is given, or the channels' own rates agree, or no rate reaches a second
point. -/
theorem one_grid_iff {log : DataLog} (hspan : log.start < log.finish) {f : Option ℚ} (hf : ∀ hz ∈ f, 0 < hz) :
    OneGrid log (log.resample f) ↔ f.isSome ∨ ∀ c ∈ log.written, ∀ d ∈ log.written, c.ownHz = d.ownHz ∨
      ((log.finish - log.start) * c.ownHz < 1 ∧ (log.finish - log.start) * d.ownHz < 1) := by
  have hwritten {c' : Channel} : c' ∈ (log.resample f).written ↔ ∃ c ∈ log.written, c' = c.resample log.start log.finish f :=
    mem_written_resample hspan fun c _ => targetHz_pos hf c
  have htimes {c : Channel} (hc : c ∈ log.written) :
      (c.resample log.start log.finish f).samples.map (·.t) = grid log.start log.finish (c.targetHz f) :=
    (resample_spec (mem_written.mp hc).2 hspan (targetHz_pos hf c)).1
  rw [← grids_agree_iff hspan hf]
  constructor
  · intro h c hc d hd
    have := h.same _ (hwritten.mpr ⟨c, hc, rfl⟩) _ (hwritten.mpr ⟨d, hd, rfl⟩)
    rwa [htimes hc, htimes hd] at this
  · intro h
    have hsame : ∀ c ∈ (log.resample f).written, ∀ d ∈ (log.resample f).written,
        c.samples.map (·.t) = d.samples.map (·.t) := by
      intro c' hc' d' hd'
      obtain ⟨c, hc, rfl⟩ := hwritten.mp hc'
      obtain ⟨d, hd, rfl⟩ := hwritten.mp hd'
      rw [htimes hc, htimes hd]
      exact h c hc d hd
    refine ⟨hsame, ?_, ?_, ?_, ?_⟩
    · intro c' hc'
      obtain ⟨c, hc, rfl⟩ := hwritten.mp hc'
      have hincreasing : (grid log.start log.finish (c.targetHz f)).Pairwise _ := grid_increasing (targetHz_pos hf c)
      rw [← htimes hc, List.pairwise_map] at hincreasing
      exact hincreasing
    · intro c' hc' s hs
      obtain ⟨c, hc, rfl⟩ := hwritten.mp hc'
      refine grid_within hspan (targetHz_pos hf c) ?_
      rw [← htimes hc]
      exact List.mem_map_of_mem hs
    · rw [DataLog.resample, List.forall₂_map_right_iff, List.forall₂_same]
      intro c hc s hs
      by_cases hne : c.samples = []
      · have hempty : (c.resample log.start log.finish f).samples = [] := not_not.mp fun h =>
          (samples_ne_nil hspan (targetHz_pos hf c)).mp h hne
        rw [hempty] at hs
        cases hs
      · exact (resample_spec hne hspan (targetHz_pos hf c)).2 s hs
    · intro i c hc s hs
      refine ⟨csvElapsed_eq hsame hc hs, ?_⟩
      intro d hd
      have hlength := congrArg List.length (hsame c hc d hd)
      rw [List.length_map, List.length_map] at hlength
      rw [← hlength]
      exact (List.getElem?_eq_some_iff.mp hs).1

/-! ## Two rates -/

def slow : Channel where
  name := "slow"
  samples := [⟨0, some 0⟩, ⟨1, some 1⟩]

def fast : Channel where
  name := "fast"
  samples := [⟨0, some 0⟩, ⟨1 / 2, some 2⟩, ⟨1, some 0⟩]

/-- A channel of 1 Hz beside one of 2 Hz. -/
def twoRates : DataLog := ⟨"run", [slow, fast]⟩

theorem twoRates_span : twoRates.start = 0 ∧ twoRates.finish = 1 := by
  simp [twoRates, slow, fast, DataLog.start, DataLog.finish, DataLog.written, Channel.start, Channel.finish, List.min?,
    List.max?]

theorem one_grid_iff_twoRates :
    OneGrid twoRates (twoRates.resample (some 10)) ↔
      (some (10 : ℚ)).isSome ∨ ∀ c ∈ twoRates.written, ∀ d ∈ twoRates.written, c.ownHz = d.ownHz ∨
        ((twoRates.finish - twoRates.start) * c.ownHz < 1 ∧ (twoRates.finish - twoRates.start) * d.ownHz < 1) :=
  one_grid_iff (by rw [twoRates_span.1, twoRates_span.2]; norm_num) (by simp)

/-- Without a rate, the second row of the table has a value of 1 s beside one of 0.5 s. -/
theorem one_grid_null : ¬ OneGrid twoRates (twoRates.resample none) := by
  intro h
  have hspan : twoRates.start < twoRates.finish := by
    rw [twoRates_span.1, twoRates_span.2]
    norm_num
  have hslow : slow.targetHz none = 1 := by
    norm_num [slow, Channel.targetHz, Channel.ownHz, Channel.averageFrequency, mathRound]
  have hfast : fast.targetHz none = 2 := by
    norm_num [fast, Channel.targetHz, Channel.ownHz, Channel.averageFrequency, mathRound]
  have hmem (c : Channel) (hc : c ∈ twoRates.written) (hhz : ∀ c ∈ twoRates.channels, 0 < c.targetHz none) :
      c.resample twoRates.start twoRates.finish none ∈ (twoRates.resample none).written :=
    (mem_written_resample hspan hhz).mpr ⟨c, hc, rfl⟩
  have hhz : ∀ c ∈ twoRates.channels, 0 < c.targetHz none := by
    simp [twoRates, hslow, hfast]
  have hsame := h.same _ (hmem slow (mem_written.mpr (by simp [twoRates, slow])) hhz) _
    (hmem fast (mem_written.mpr (by simp [twoRates, fast])) hhz)
  rw [(resample_spec (by simp [slow]) hspan (by rw [hslow]; norm_num)).1,
    (resample_spec (by simp [fast]) hspan (by rw [hfast]; norm_num)).1, hslow, hfast,
    grid_eq_iff hspan (by norm_num) (by norm_num), twoRates_span.1, twoRates_span.2] at hsame
  norm_num at hsame

end Lhre.Motec
