import Lhre.DriveDay.Sectors
import Lhre.Theory.Spells

/-!
# `DriveDay.Alerts` — the moments a limit was crossed

`viewer_tool/src/lib/driveday`: of `analysis.ts` the alerts, `numSetup`, `limit`, `computeAlerts` and `activeAlerts`, and of
`session.ts` the laps in time order and the start of the session. What number a text of the setup form is, is a parameter.

The fixes of all laps in time order are one list. The alerts of a definition are the spells of that list beyond its limit,
also where a spell goes on over the line into the next lap. The panel of a moment reads between two fixes, and what it lists
is in an alert of the list.

## Contents
- **The session.** `TLAPS`, `T0`.
- **Limits.** `AlertDef`, `ALERT_DEFS`, `numSetup`, `limit`.
- **Alerts.** `AlertDef.bad`, `alertStep`, `alertsOf`, `computeAlerts`, `activeAlerts`.
- **The fixes.** `fixes`, `alertsOf_eq`.
- **One alert.** `AlertOf`, `alertOf_stretch`.
- **The list.** `computeAlerts_perm`, `alerts_spells`.
- **The moment.** `interp_between`, `exists_bad`, `active_alerts`.
-/

namespace Lhre.DriveDay

/-! ## The session -/

/-- `TLAPS`: every lap, in time order. -/
def TLAPS (laps : List RawLap) : List RawLap := laps.mergeSort fun a b => decide (a.t0 ≤ b.t0)

/-- `T0`: the start of the first lap. -/
def T0 (laps : List RawLap) : ℚ := ((TLAPS laps).head?.map RawLap.t0).getD 0

/-! ## Limits -/

/-- `dir`: whether an alert is above its limit or below it. -/
inductive AlertDir
  | above
  | below
deriving DecidableEq, Repr

/-- `AlertDef`. -/
structure AlertDef where
  k : String
  ch : ChKey
  label : String
  dir : AlertDir
  temp : Bool
deriving DecidableEq, Repr

/-- `ALERT_DEFS`. -/
def ALERT_DEFS : List AlertDef :=
  [{ k := "aCellT", ch := .cellT, label := "Hottest cell", dir := .above, temp := true },
    { k := "aInvT", ch := .invT, label := "Inverter hotspot", dir := .above, temp := true },
    { k := "aMotT", ch := .motT, label := "Motor", dir := .above, temp := true },
    { k := "aCoolT", ch := .coolT, label := "Coolant", dir := .above, temp := true },
    { k := "aCellV", ch := .cellV, label := "Lowest cell", dir := .below, temp := false },
    { k := "aPackV", ch := .packv, label := "Pack voltage", dir := .below, temp := false }]

/-- What a field of the setup form holds. -/
inductive SetupValue
  | text (s : String)
  | number (x : ℚ)
deriving DecidableEq, Repr

/-- The fields of the setup form that are filled in. -/
abbrev Setup := String → Option SetupValue

/-- A text as a number, where it is one. -/
abbrev ToNumber := String → Option ℚ

/-- `numSetup`. -/
def numSetup (number : ToNumber) (setup : Setup) (k : String) : Option ℚ :=
  match setup k with
  | none => none
  | some (.text s) => if s = "" then none else number s
  | some (.number x) => some x

/-- `limit`. -/
def limit (number : ToNumber) (setup : Setup) (d : AlertDef) : Option ℚ := numSetup number setup d.k

/-! ## Alerts -/

/-- `Alert`. -/
structure Alert where
  d : AlertDef
  t : ℚ
  lap : RawLap
  val : ℚ
  lim : ℚ

/-- `bad`: beyond the limit. A low reading of half a unit or less is no reading. -/
def AlertDef.bad (d : AlertDef) (lim v : ℚ) : Bool :=
  match d.dir with
  | .above => decide (lim < v)
  | .below => decide (v < lim) && decide (1 / 2 < v)

/-- Further beyond the limit than another value. -/
def AlertDef.worse (d : AlertDef) (v w : ℚ) : Bool :=
  match d.dir with
  | .above => decide (w < v)
  | .below => decide (v < w)

/-- One index of a lap in `computeAlerts`. -/
def alertStep (start lim : ℚ) (d : AlertDef) (l : RawLap) (s : Spells.Pass Alert) (p : Point) : Spells.Pass Alert :=
  let c := p.v d.ch
  if d.bad lim c then
    match s.cur with
    | none => { s with cur := some { d := d, t := l.t0 - start + p.t, lap := l, val := c, lim := lim } }
    | some cur => if d.worse c cur.val then { s with cur := some { cur with val := c } } else s
  else
    match s.cur with
    | some cur => { cur := none, out := s.out ++ [cur] }
    | none => s

/-- The alerts of one definition: the alert goes on from one lap to the next. -/
def alertsOf (laps : List RawLap) (d : AlertDef) (lim : ℚ) : List Alert :=
  let s := (TLAPS laps).foldl (fun s l => l.points.foldl (alertStep (T0 laps) lim d l) s) { cur := none, out := [] }
  match s.cur with
  | some cur => s.out ++ [cur]
  | none => s.out

/-- `computeAlerts`. -/
def computeAlerts (number : ToNumber) (setup : Setup) (laps : List RawLap) : List Alert :=
  let out := ALERT_DEFS.flatMap fun d => (limit number setup d).elim [] (alertsOf laps d)
  out.mergeSort fun a b => decide (a.t ≤ b.t)

/-! ## The moment -/

/-- `activeAlerts`: a lap without a fix has no value to compare. -/
def activeAlerts (number : ToNumber) (setup : Setup) (L : RawLap) (rel : ℚ) : List (AlertDef × ℚ) :=
  if L.points = [] then []
  else
    ALERT_DEFS.filterMap fun d =>
      (limit number setup d).bind fun lim =>
        let v := interp L.times (L.points.map fun p => p.v d.ch) rel
        if d.bad lim v then some (d, v) else none

open Spells

variable {laps : List RawLap} {d : AlertDef} {lim v w : ℚ} {number : ToNumber} {setup : Setup}

/-! ## The fixes -/

/-- The fixes of all laps, each with its lap, in the order the alerts go through them. -/
def fixes (laps : List RawLap) : List (RawLap × Point) := (TLAPS laps).flatMap fun l => l.points.map fun p => (l, p)

/-- Whether a fix is beyond a limit. -/
def Beyond (d : AlertDef) (lim : ℚ) (f : RawLap × Point) : Bool := d.bad lim (f.2.v d.ch)

/-- The alert a fix starts. -/
def Alert.first (start lim : ℚ) (d : AlertDef) (f : RawLap × Point) : Alert :=
  { d := d, t := f.1.t0 - start + f.2.t, lap := f.1, val := f.2.v d.ch, lim := lim }

/-- An alert after one more fix beyond the limit. -/
def Alert.grow (d : AlertDef) (cur : Alert) (f : RawLap × Point) : Alert :=
  if d.worse (f.2.v d.ch) cur.val then { cur with val := f.2.v d.ch } else cur

theorem alertStep_eq (start lim : ℚ) (d : AlertDef) (l : RawLap) (s : Pass Alert) (p : Point) :
    alertStep start lim d l s p = s.step (Beyond d lim) (Alert.first start lim d) (Alert.grow d) (l, p) := by
  obtain ⟨cur, out⟩ := s
  unfold alertStep Pass.step
  dsimp only
  have hbeyond : Beyond d lim (l, p) = d.bad lim (p.v d.ch) := rfl
  rw [hbeyond]
  cases d.bad lim (p.v d.ch) with
  | true =>
      cases cur with
      | none => rfl
      | some cur =>
          cases hworse : d.worse (p.v d.ch) cur.val with
          | true => simp [Alert.grow, hworse]
          | false => simp [Alert.grow, hworse]
  | false => cases cur <;> simp

/-- **The loops of `computeAlerts`** are one pass over the fixes. -/
theorem alertsOf_eq (laps : List RawLap) (d : AlertDef) (lim : ℚ) :
    alertsOf laps d lim = Spells.pass (Beyond d lim) (Alert.first (T0 laps) lim d) (Alert.grow d) (fixes laps) := by
  have hloop : ∀ (ls : List RawLap) (s : Pass Alert),
      ls.foldl (fun s l => l.points.foldl (alertStep (T0 laps) lim d l) s) s =
        (ls.flatMap fun l => l.points.map fun p => (l, p)).foldl
          (Pass.step (Beyond d lim) (Alert.first (T0 laps) lim d) (Alert.grow d)) s := by
    intro ls
    induction ls with
    | nil => exact fun _ => rfl
    | cons l ls ih =>
        intro s
        rw [List.foldl_cons, ih, List.flatMap_cons, List.foldl_append, List.foldl_map]
        congr 2
        funext s p
        exact alertStep_eq (T0 laps) lim d l s p
  have hfixes : ((TLAPS laps).flatMap fun l => l.points.map fun p => (l, p)) = fixes laps := rfl
  unfold alertsOf Spells.pass
  rw [hloop, hfixes]
  obtain ⟨cur, out⟩ := (fixes laps).foldl (Pass.step (Beyond d lim) (Alert.first (T0 laps) lim d) (Alert.grow d))
    { cur := none, out := [] }
  cases cur <;> simp

/-! ## One alert -/

/-- An alert that says what the fixes from `ij.1` to before `ij.2` come to. -/
structure AlertOf (laps : List RawLap) (d : AlertDef) (lim : ℚ) (ij : ℕ × ℕ) (a : Alert) : Prop where
  kind : a.d = d
  lim_eq : a.lim = lim
  start : ∃ p, (fixes laps)[ij.1]? = some (a.lap, p) ∧ a.t = a.lap.t0 - T0 laps + p.t
  val : ∃ k f, ij.1 ≤ k ∧ k < ij.2 ∧ (fixes laps)[k]? = some f ∧ a.val = f.2.v d.ch
  worst : ∀ k f, ij.1 ≤ k → k < ij.2 → (fixes laps)[k]? = some f → d.worse (f.2.v d.ch) a.val = false

theorem worse_self : d.worse v v = false := by
  unfold AlertDef.worse
  cases d.dir <;> simp

theorem not_worse_trans {x : ℚ} (h : d.worse v w = false) (h' : d.worse w x = false) : d.worse v x = false := by
  unfold AlertDef.worse at h h' ⊢
  cases hdir : d.dir with
  | above =>
      simp only [hdir, decide_eq_false_iff_not, not_lt] at h h' ⊢
      exact h.trans h'
  | below =>
      simp only [hdir, decide_eq_false_iff_not, not_lt] at h h' ⊢
      exact h'.trans h

theorem not_worse_of_worse (h : d.worse v w = true) : d.worse w v = false := by
  unfold AlertDef.worse at h ⊢
  cases hdir : d.dir with
  | above =>
      simp only [hdir, decide_eq_true_eq, decide_eq_false_iff_not, not_lt] at h ⊢
      exact h.le
  | below =>
      simp only [hdir, decide_eq_true_eq, decide_eq_false_iff_not, not_lt] at h ⊢
      exact h.le

/-- An alert that grew over some fixes keeps all but its value, which is the worst of what it saw. -/
theorem grow_foldl (fs : List (RawLap × Point)) (a : Alert) :
    (fs.foldl (Alert.grow d) a).d = a.d ∧ (fs.foldl (Alert.grow d) a).t = a.t ∧ (fs.foldl (Alert.grow d) a).lap = a.lap ∧
      (fs.foldl (Alert.grow d) a).lim = a.lim ∧
      ((fs.foldl (Alert.grow d) a).val = a.val ∨ ∃ f ∈ fs, (fs.foldl (Alert.grow d) a).val = f.2.v d.ch) ∧
      d.worse a.val (fs.foldl (Alert.grow d) a).val = false ∧
      ∀ f ∈ fs, d.worse (f.2.v d.ch) (fs.foldl (Alert.grow d) a).val = false := by
  induction fs generalizing a with
  | nil => exact ⟨rfl, rfl, rfl, rfl, Or.inl rfl, worse_self, fun f hf => absurd hf List.not_mem_nil⟩
  | cons f fs ih =>
      obtain ⟨hd, ht, hlap, hlim, hval, hworst, hall⟩ := ih (Alert.grow d a f)
      rw [List.foldl_cons]
      cases hworse : d.worse (f.2.v d.ch) a.val with
      | true =>
          have hgrow : Alert.grow d a f = { a with val := f.2.v d.ch } := if_pos hworse
          rw [hgrow] at hd ht hlap hlim hval hworst hall ⊢
          refine ⟨hd, ht, hlap, hlim, Or.inr ?_, not_worse_trans (not_worse_of_worse hworse) hworst, ?_⟩
          · rcases hval with heq | ⟨g, hg, heq⟩
            · exact ⟨f, List.mem_cons_self, heq⟩
            · exact ⟨g, List.mem_cons_of_mem _ hg, heq⟩
          · exact List.forall_mem_cons.mpr ⟨hworst, hall⟩
      | false =>
          have hgrow : Alert.grow d a f = a := by simp [Alert.grow, hworse]
          rw [hgrow] at hd ht hlap hlim hval hworst hall ⊢
          refine ⟨hd, ht, hlap, hlim, ?_, hworst, List.forall_mem_cons.mpr ⟨not_worse_trans hworse hworst, hall⟩⟩
          rcases hval with heq | ⟨g, hg, heq⟩
          · exact Or.inl heq
          · exact Or.inr ⟨g, List.mem_cons_of_mem _ hg, heq⟩

/-- What the pass leaves of a stretch is the alert of it. -/
theorem alertOf_stretch {ij : ℕ × ℕ} {a : Alert}
    (h : stretch (Alert.first (T0 laps) lim d) (Alert.grow d) (fixes laps) ij.1 ij.2 = some a) : AlertOf laps d lim ij a := by
  unfold stretch at h
  cases hdrop : ((fixes laps).take ij.2).drop ij.1 with
  | nil =>
      rw [hdrop] at h
      exact absurd h (by simp)
  | cons f fs =>
      rw [hdrop] at h
      obtain rfl := Option.some.inj h
      obtain ⟨hd, ht, hlap, hlim, hval, hworst, hall⟩ := grow_foldl (d := d) fs (Alert.first (T0 laps) lim d f)
      -- the items of the stretch, by their indices
      have hget : ∀ n g, (f :: fs)[n]? = some g ↔ ij.1 + n < ij.2 ∧ (fixes laps)[ij.1 + n]? = some g := by
        intro n g
        rw [← hdrop, List.getElem?_drop, List.getElem?_take]
        split <;> simp_all
      have hmem : ∀ g ∈ f :: fs, ∃ k, ij.1 ≤ k ∧ k < ij.2 ∧ (fixes laps)[k]? = some g := by
        intro g hg
        obtain ⟨n, hn⟩ := List.mem_iff_getElem?.mp hg
        exact ⟨ij.1 + n, Nat.le_add_right _ _, (hget n g).mp hn⟩
      have hfirst := (hget 0 f).mp rfl
      refine ⟨hd, hlim, ⟨f.2, ?_, ?_⟩, ?_, ?_⟩
      · rw [hlap]
        exact hfirst.2
      · rw [ht, hlap]
        rfl
      · rcases hval with heq | ⟨g, hg, heq⟩
        · exact ⟨ij.1, f, le_rfl, hfirst.1, hfirst.2, heq⟩
        · obtain ⟨k, hk, hk', hkg⟩ := hmem g (List.mem_cons_of_mem _ hg)
          exact ⟨k, g, hk, hk', hkg, heq⟩
      · intro k g hk hk' hkg
        obtain ⟨n, rfl⟩ := Nat.exists_eq_add_of_le hk
        rcases List.mem_cons.mp (List.mem_of_getElem? ((hget n g).mpr ⟨hk', hkg⟩)) with rfl | hg
        · exact hworst
        · exact hall g hg

/-- **The alerts of a definition**: one for each spell, in order. -/
theorem alertsOf_spells (laps : List RawLap) (d : AlertDef) (lim : ℚ) :
    ∃ bs : List (ℕ × ℕ), (∀ i j, (i, j) ∈ bs ↔ IsSpell (Beyond d lim) (fixes laps) i j) ∧
      (bs.Pairwise fun a b => a.2 < b.1) ∧ List.Forall₂ (AlertOf laps d lim) bs (alertsOf laps d lim) := by
  obtain ⟨bs, hmem, hapart, hout⟩ := pass_spells (Beyond d lim) (Alert.first (T0 laps) lim d) (Alert.grow d)
    (fixes laps)
  rw [alertsOf_eq]
  exact ⟨bs, hmem, hapart, hout.imp fun _ _ => alertOf_stretch⟩

/-! ## The list -/

/-- What alerts come with their own definition, a filter finds again. -/
theorem filter_flatMap_kind {defs : List AlertDef} {f : AlertDef → List Alert} (hnodup : defs.Nodup)
    (hf : ∀ d, ∀ a ∈ f d, a.d = d) : (defs.flatMap f).filter (fun a => decide (a.d = d)) = if d ∈ defs then f d else [] := by
  induction defs with
  | nil => rfl
  | cons e defs ih =>
      obtain ⟨hnot, hnodup⟩ := List.nodup_cons.mp hnodup
      rw [List.flatMap_cons, List.filter_append, ih hnodup]
      rcases eq_or_ne d e with rfl | hne
      · rw [List.filter_eq_self.mpr fun a ha => decide_eq_true (hf d a ha), if_neg hnot, if_pos List.mem_cons_self,
          List.append_nil]
      · have hnone : (f e).filter (fun a => decide (a.d = d)) = [] := by
          apply List.filter_eq_nil_iff.mpr
          intro a ha
          simpa [hf e a ha] using hne.symm
        rw [hnone, List.nil_append]
        simp [hne]

theorem alertsOf_kind (laps : List RawLap) (d : AlertDef) (lim : ℚ) : ∀ a ∈ alertsOf laps d lim, a.d = d := by
  obtain ⟨bs, -, -, hall⟩ := alertsOf_spells laps d lim
  intro a ha
  obtain ⟨ij, -, hof⟩ := exists_left hall ha
  exact hof.kind

theorem computeAlerts_perm : (computeAlerts number setup laps).Perm
    (ALERT_DEFS.flatMap fun d => (limit number setup d).elim [] (alertsOf laps d)) :=
  List.mergeSort_perm _ _

/-- The alerts of a definition in the list. -/
theorem filter_computeAlerts (number : ToNumber) (setup : Setup) (laps : List RawLap) (hd : d ∈ ALERT_DEFS) :
    ((limit number setup d).elim [] (alertsOf laps d)).Perm
      ((computeAlerts number setup laps).filter fun a => decide (a.d = d)) := by
  have hkind : ∀ e, ∀ a ∈ (limit number setup e).elim [] (alertsOf laps e), a.d = e := by
    intro e a ha
    cases hlim : limit number setup e with
    | none =>
        rw [hlim] at ha
        exact absurd ha List.not_mem_nil
    | some lim =>
        rw [hlim] at ha
        exact alertsOf_kind laps e lim a ha
  have hfilter := filter_flatMap_kind (d := d) (show ALERT_DEFS.Nodup by decide) hkind
  rw [if_pos hd] at hfilter
  exact hfilter ▸ (computeAlerts_perm.filter _).symm

/-- **The alerts** are in the order of their times, and those of a definition with a limit are one for each longest stretch of
fixes beyond it, with the time and the lap of its first fix and the worst value in it. -/
theorem alerts_spells (number : ToNumber) (setup : Setup) (laps : List RawLap) :
    (computeAlerts number setup laps).Pairwise (fun a b => a.t ≤ b.t) ∧
      (∀ a ∈ computeAlerts number setup laps, a.d ∈ ALERT_DEFS ∧ limit number setup a.d = some a.lim) ∧
      ∀ d ∈ ALERT_DEFS, ∀ lim, limit number setup d = some lim →
        ∃ (bs : List (ℕ × ℕ)) (as : List Alert),
          (∀ i j, (i, j) ∈ bs ↔ IsSpell (Beyond d lim) (fixes laps) i j) ∧ (bs.Pairwise fun a b => a.2 < b.1) ∧
            as.Perm ((computeAlerts number setup laps).filter fun a => decide (a.d = d)) ∧
            List.Forall₂ (AlertOf laps d lim) bs as := by
  refine ⟨?_, fun a ha => ?_, fun d hd lim hlim => ?_⟩
  · have htrans : ∀ a b c : Alert, decide (a.t ≤ b.t) = true → decide (b.t ≤ c.t) = true → decide (a.t ≤ c.t) = true :=
      fun a b c hab hbc => decide_eq_true ((of_decide_eq_true hab).trans (of_decide_eq_true hbc))
    have htotal : ∀ a b : Alert, (decide (a.t ≤ b.t) || decide (b.t ≤ a.t)) = true :=
      fun a b => by simpa using le_total a.t b.t
    exact (List.pairwise_mergeSort htrans htotal _).imp fun h => of_decide_eq_true h
  · obtain ⟨d, hd, ha⟩ := List.mem_flatMap.mp (computeAlerts_perm.subset ha)
    cases hlim : limit number setup d with
    | none =>
        rw [hlim] at ha
        exact absurd ha List.not_mem_nil
    | some lim =>
        rw [hlim] at ha
        obtain ⟨bs, -, -, hall⟩ := alertsOf_spells laps d lim
        obtain ⟨ij, -, hof⟩ := exists_left hall ha
        rw [hof.kind, hof.lim_eq]
        exact ⟨hd, hlim⟩
  · obtain ⟨bs, hmem, hapart, hall⟩ := alertsOf_spells laps d lim
    have hperm := filter_computeAlerts number setup laps hd
    rw [hlim] at hperm
    exact ⟨bs, alertsOf laps d lim, hmem, hapart, hperm, hall⟩

/-! ## The moment -/

/-- The line between two points reads between their values. -/
theorem line_between {t t' x y z : ℚ} (hle : t ≤ x) (hlt : x < t') :
    min y z ≤ y + (z - y) * (x - t) / (t' - t) ∧ y + (z - y) * (x - t) / (t' - t) ≤ max y z := by
  have hwidth : 0 < t' - t := sub_pos.mpr (hle.trans_lt hlt)
  rw [mul_div_assoc]
  have h0 : 0 ≤ (x - t) / (t' - t) := div_nonneg (sub_nonneg.mpr hle) hwidth.le
  have h1 : (x - t) / (t' - t) ≤ 1 := (div_le_one hwidth).mpr (by linarith)
  rcases le_total y z with hup | hdown
  · rw [min_eq_left hup, max_eq_right hup]
    constructor
    · exact le_add_of_nonneg_right (mul_nonneg (sub_nonneg.mpr hup) h0)
    · linarith [mul_le_mul_of_nonneg_left h1 (sub_nonneg.mpr hup)]
  · rw [min_eq_right hdown, max_eq_left hdown]
    constructor
    · linarith [mul_le_mul_of_nonneg_left h1 (sub_nonneg.mpr hdown)]
    · linarith [mul_nonneg (sub_nonneg.mpr hdown) h0]

/-- `interp` reads between two of the values. -/
theorem interp_between {xs ys : List ℚ} (x : ℚ) (hlen : xs.length = ys.length) (hpos : 0 < ys.length) :
    ∃ y ∈ ys, ∃ y' ∈ ys, y ≤ interp xs ys x ∧ interp xs ys x ≤ y' := by
  have hget : ∀ i, i < ys.length → ys.getD i 0 ∈ ys := by
    intro i hi
    rw [List.getD_eq_getElem?_getD, List.getElem?_eq_getElem hi]
    exact List.getElem_mem hi
  rcases interp_cases xs ys x with ⟨-, heq⟩ | ⟨-, -, heq⟩ | ⟨i, hi, -, hle, hlt, heq⟩
  · exact ⟨_, hget 0 hpos, _, hget 0 hpos, heq.ge, heq.le⟩
  · have hlast := hget (xs.length - 1) (by omega)
    exact ⟨_, hlast, _, hlast, heq.ge, heq.le⟩
  · obtain ⟨hlow, hhigh⟩ := line_between (y := ys.getD i 0) (z := ys.getD (i + 1) 0) hle hlt
    rw [← heq] at hlow hhigh
    have hfirst := hget i (by omega)
    have hsecond := hget (i + 1) (by omega)
    refine ⟨_, ?_, _, ?_, hlow, hhigh⟩
    · rcases min_choice (ys.getD i 0) (ys.getD (i + 1) 0) with hmin | hmin <;> rw [hmin] <;> assumption
    · rcases max_choice (ys.getD i 0) (ys.getD (i + 1) 0) with hmax | hmax <;> rw [hmax] <;> assumption

/-- What the panel reads beyond a limit, a fix of the lap reads too, and as far beyond it. -/
theorem exists_bad {L : RawLap} {rel : ℚ} (hpos : 0 < L.points.length)
    (hread : d.dir = .below → ∀ p ∈ L.points, 1 / 2 < p.v d.ch)
    (hbad : d.bad lim (interp L.times (L.points.map fun p => p.v d.ch) rel) = true) :
    ∃ p ∈ L.points, d.bad lim (p.v d.ch) = true ∧
      d.worse (interp L.times (L.points.map fun p => p.v d.ch) rel) (p.v d.ch) = false := by
  have hlen : L.times.length = (L.points.map fun p => p.v d.ch).length := by simp [RawLap.times]
  obtain ⟨y, hy, y', hy', hlow, hhigh⟩ := interp_between rel hlen (by simpa using hpos)
  obtain ⟨p, hp, rfl⟩ := List.mem_map.mp hy
  obtain ⟨p', hp', rfl⟩ := List.mem_map.mp hy'
  unfold AlertDef.bad at hbad ⊢
  unfold AlertDef.worse
  cases hdir : d.dir with
  | above =>
      simp only [hdir, decide_eq_true_eq] at hbad
      refine ⟨p', hp', ?_, ?_⟩
      · simpa using hbad.trans_le hhigh
      · simpa using hhigh
  | below =>
      simp only [hdir, Bool.and_eq_true, decide_eq_true_eq] at hbad
      refine ⟨p, hp, ?_, ?_⟩
      · simpa using ⟨hlow.trans_lt hbad.1, by simpa using hread hdir p hp⟩
      · simpa using hlow

theorem mem_activeAlerts {L : RawLap} {rel : ℚ} : (d, v) ∈ activeAlerts number setup L rel ↔
    L.points ≠ [] ∧ d ∈ ALERT_DEFS ∧ ∃ lim, limit number setup d = some lim ∧ d.bad lim v = true ∧
      v = interp L.times (L.points.map fun p => p.v d.ch) rel := by
  unfold activeAlerts
  split
  · simp_all
  · rename_i hne
    simp only [List.mem_filterMap, Option.bind_eq_some_iff, Option.ite_none_right_eq_some, Option.some.injEq, Prod.mk.injEq]
    constructor
    · rintro ⟨e, he, lim, hlim, hbad, rfl, rfl⟩
      exact ⟨hne, he, lim, hlim, hbad, rfl⟩
    · rintro ⟨-, hd, lim, hlim, hbad, rfl⟩
      exact ⟨d, hd, lim, hlim, hbad, rfl, rfl⟩

/-- The fixes of a lap of the session are fixes of the session. -/
theorem mem_fixes {L : RawLap} {p : Point} (hL : L ∈ laps) (hp : p ∈ L.points) : (L, p) ∈ fixes laps :=
  List.mem_flatMap.mpr ⟨L, List.mem_mergeSort.mpr hL, List.mem_map_of_mem hp⟩

/-- Between two neighbouring times `interp` reads between their values. -/
theorem interp_neighbours {xs : List ℚ} (ys : List ℚ) {x : ℚ} {m : ℕ} (hmono : xs.Pairwise (· ≤ ·)) (hm : m + 1 < xs.length)
    (hfrom : xs.getD m 0 < x) (hto : x < xs.getD (m + 1) 0) :
    min (ys.getD m 0) (ys.getD (m + 1) 0) ≤ interp xs ys x ∧ interp xs ys x ≤ max (ys.getD m 0) (ys.getD (m + 1) 0) := by
  have hle_get : ∀ i j, i ≤ j → j < xs.length → xs.getD i 0 ≤ xs.getD j 0 := by
    intro i j hij hj
    rcases hij.eq_or_lt with rfl | hlt
    · exact le_rfl
    · simp only [List.getD_eq_getElem?_getD, List.getElem?_eq_getElem hj, List.getElem?_eq_getElem (hlt.trans hj)]
      exact List.pairwise_iff_getElem.mp hmono i j (hlt.trans hj) hj hlt
  have hlt_of : ∀ i j, i < xs.length → xs.getD i 0 < xs.getD j 0 → i < j := by
    intro i j hi hlt
    by_contra hge
    exact absurd (hle_get j i (not_lt.mp hge) hi) (not_le.mpr hlt)
  rcases interp_cases xs ys x with ⟨hx, -⟩ | ⟨-, hx, -⟩ | ⟨i, hi, -, hle, hlt, heq⟩
  · exact absurd (hlt_of m 0 (by omega) (hfrom.trans_le hx)) (Nat.not_lt_zero m)
  · have hlast := hlt_of (xs.length - 1) (m + 1) (by omega) (hx.trans_lt hto)
    omega
  · have hmi := hlt_of m (i + 1) (by omega) (hfrom.trans hlt)
    have him := hlt_of i (m + 1) (by omega) (hle.trans_lt hto)
    obtain rfl : i = m := by omega
    exact heq ▸ line_between hle hlt

/-- What is between two values beyond a limit is beyond it. -/
theorem bad_between {x : ℚ} (hv : d.bad lim v = true) (hw : d.bad lim w = true) (hlow : min v w ≤ x) (hhigh : x ≤ max v w) :
    d.bad lim x = true := by
  unfold AlertDef.bad at hv hw ⊢
  cases hdir : d.dir with
  | above =>
      simp only [hdir, decide_eq_true_eq] at hv hw ⊢
      exact (lt_min hv hw).trans_le hlow
  | below =>
      simp only [hdir, Bool.and_eq_true, decide_eq_true_eq] at hv hw ⊢
      exact ⟨hhigh.trans_lt (max_lt hv.1 hw.1), (lt_min hv.2 hw.2).trans_le hlow⟩

/-- What the panel shows at a moment of a lap is in an alert over a fix of that lap. -/
theorem exists_alert {L : RawLap} (hL : L ∈ laps) {rel : ℚ} (hactive : (d, v) ∈ activeAlerts number setup L rel)
    (hread : d.dir = .below → ∀ p ∈ L.points, 1 / 2 < p.v d.ch) :
    ∃ a ∈ computeAlerts number setup laps, a.d = d ∧ d.worse v a.val = false ∧
      ∃ i j k p, IsSpell (Beyond d a.lim) (fixes laps) i j ∧ AlertOf laps d a.lim (i, j) a ∧ i ≤ k ∧ k < j ∧
        (fixes laps)[k]? = some (L, p) := by
  obtain ⟨hne, hd, lim, hlim, hbad, rfl⟩ := mem_activeAlerts.mp hactive
  obtain ⟨p, hp, hbad, hworse⟩ := exists_bad (List.length_pos_iff.mpr hne) hread hbad
  obtain ⟨k, hk⟩ := List.mem_iff_getElem?.mp (mem_fixes hL hp)
  obtain ⟨i, j, hspell, hik, hkj⟩ := exists_isSpell (p := Beyond d lim) ⟨(L, p), hk, hbad⟩
  obtain ⟨bs, hmem, -, hall⟩ := alertsOf_spells laps d lim
  obtain ⟨a, ha, hof⟩ := exists_right hall ((hmem i j).mpr hspell)
  have hperm := filter_computeAlerts number setup laps hd
  rw [hlim] at hperm
  refine ⟨a, (List.mem_filter.mp (hperm.subset ha)).1, hof.kind, ?_, i, j, k, p, ?_, ?_, hik, hkj, hk⟩
  · exact not_worse_trans hworse (hof.worst k (L, p) hik hkj hk)
  · exact hof.lim_eq.symm ▸ hspell
  · exact hof.lim_eq.symm ▸ hof

/-- **The panel and the list** agree at every moment of a lap. What the panel shows is in an alert of the list over a fix of
the lap, which is at least as far beyond the limit, and between two neighbouring fixes beyond a limit the panel shows it. A
definition from below needs readings that are all real ones, since the panel may read between a missing one and a good one. -/
theorem active_alerts {L : RawLap} (hL : L ∈ laps) (hmono : L.times.Pairwise (· ≤ ·)) (rel : ℚ) :
    (∀ d v, (d, v) ∈ activeAlerts number setup L rel → (d.dir = .below → ∀ p ∈ L.points, 1 / 2 < p.v d.ch) →
        ∃ a ∈ computeAlerts number setup laps, a.d = d ∧ d.worse v a.val = false ∧
          ∃ i j k p, IsSpell (Beyond d a.lim) (fixes laps) i j ∧ AlertOf laps d a.lim (i, j) a ∧ i ≤ k ∧ k < j ∧
            (fixes laps)[k]? = some (L, p)) ∧
      ∀ d ∈ ALERT_DEFS, ∀ lim, limit number setup d = some lim →
        ∀ m p q, L.points[m]? = some p → L.points[m + 1]? = some q → p.t < rel → rel < q.t →
          Beyond d lim (L, p) = true → Beyond d lim (L, q) = true → ∃ v, (d, v) ∈ activeAlerts number setup L rel := by
  refine ⟨fun d v hactive hread => exists_alert hL hactive hread, ?_⟩
  intro d hd lim hlim m p q hp hq hfrom hto hbad hbad'
  have hlt : m + 1 < L.points.length := (List.getElem?_eq_some_iff.mp hq).1
  have htime : ∀ (f : Point → ℚ) (n : ℕ) (r : Point), L.points[n]? = some r → (L.points.map f).getD n 0 = f r := by
    intro f n r hr
    simp [List.getD_eq_getElem?_getD, hr]
  obtain ⟨hlow, hhigh⟩ := interp_neighbours (L.points.map fun p => p.v d.ch) hmono (by simpa [RawLap.times] using hlt)
    ((htime Point.t m p hp).trans_lt hfrom) (hto.trans_eq (htime Point.t (m + 1) q hq).symm)
  rw [htime _ m p hp, htime _ (m + 1) q hq] at hlow hhigh
  refine ⟨_, mem_activeAlerts.mpr ⟨?_, hd, lim, hlim, bad_between hbad hbad' hlow hhigh, rfl⟩⟩
  exact List.ne_nil_of_length_pos (by omega)

/-- A lap on which the motor gets hot. -/
def hotLap : RawLap :=
  { points := [0, 1000].map fun t =>
      { t := t, u := 0, v := fun _ => 80 + t / 25, cells := [], x := 0, y := 0, spd := 0, s := 0, dev := 0 }
    name := "", kind := .lap, t0 := 0, t1 := 1000, dur := 1000, sec := fun _ => none, dist := 0, vmax := 0, vavg := 0, dev := 0
    wh := none, whOut := none, whIn := none }

/-- A limit for the motor. -/
def motorLimit : Setup := fun k => if k = "aMotT" then some (.number 100) else none

/-- The motor of `ALERT_DEFS`. -/
def motorAlert : AlertDef := { k := "aMotT", ch := .motT, label := "Motor", dir := .above, temp := true }

/-- At the end of the lap the panel shows the motor, and the list has it. -/
theorem active_alerts_motor :
    ∃ a ∈ computeAlerts (fun _ => none) motorLimit [hotLap], a.d = motorAlert ∧ motorAlert.worse 120 a.val = false ∧
      ∃ i j k p, IsSpell (Beyond motorAlert a.lim) (fixes [hotLap]) i j ∧ AlertOf [hotLap] motorAlert a.lim (i, j) a ∧ i ≤ k ∧
        k < j ∧ (fixes [hotLap])[k]? = some (hotLap, p) := by
  have hactive : (motorAlert, (120 : ℚ)) ∈ activeAlerts (fun _ => none) motorLimit hotLap 1000 := by
    refine mem_activeAlerts.mpr ⟨by simp [hotLap], by decide, 100, rfl, ?_, ?_⟩
    · norm_num [AlertDef.bad, motorAlert]
    · norm_num [interp, hotLap, RawLap.times]
  exact (active_alerts List.mem_cons_self (by norm_num [hotLap, RawLap.times]) 1000).1 motorAlert 120 hactive (by simp [motorAlert])

end Lhre.DriveDay
