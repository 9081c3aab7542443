import Mathlib.Tactic
import Lhre.DriveDay.Convert

/-!
# `DriveDay.Correctness.LapsConserved` — no lap gets lost in a conversion

A lap goes through four stages: it is timed, its route can be drawn, it is a run on some course, and it is one clean
circuit of it. A stage keeps it or says why it does not; a course without a clean lap is reported as a whole.

## Contents
- **Reports.** `Warning.names`, `Reported`.
- **Stages.** `timedLaps_nodup`, `planCourses_perm`, `convertCourse_some`.
- **All courses.** `convert_courses`.
- **The conversion.** `laps_conserved`.
-/

namespace Lhre.DriveDay.Convert

/-! ## Reports -/

/-- A warning that is about a lap. -/
def Warning.names (o : Timed) : Warning → Prop
  | .unavailable laps | .leftOut laps => o ∈ laps
  | .fewFixes lap _ | .missedPress lap _ _ _ => lap = o
  | _ => False

/-- A lap is reported by a warning about it, or its course is reported as left out. -/
def Reported (warnings : List Warning) (o : Timed) : Prop :=
  (∃ w ∈ warnings, w.names o) ∨
    ∃ planned label laps noun, Warning.courses planned ∈ warnings ∧ (label, laps) ∈ planned ∧ o ∈ laps ∧
      Warning.skippedCourse label noun ∈ warnings

/-- The timed laps of a run, by their times. -/
def Run.times (r : Run) : List (ℚ × ℚ) := (r.laps.filter fun l => l.kind = .lap).map fun l => (l.t0, l.t1)

def Timed.times (o : Timed) : ℚ × ℚ := (o.startMs, o.endMs)

/-- The timed laps of a session are those of the runs, each in one run and there once with its times, and laps that are
    reported. -/
def LapsConserved (J : SessionExport) (out : List Run) : Prop :=
  ((timedLaps J).map Timed.i).Nodup ∧
  ∃ (mapped : List (List Timed)) (rest : List Timed),
    List.Forall₂ (fun r laps => Run.times r = laps.map Timed.times) out mapped ∧
    (mapped.flatten ++ rest).Perm (timedLaps J) ∧
    ∀ o ∈ rest, Reported (out.flatMap Run.warnings) o

def Course.laps (course : Course) : List Timed := course.legs.map fun l => l.x.o

variable {rt : Runtime}

/-! ## Stages -/

theorem timedLap_i {l : LiveLap} {i : ℕ} {o : Timed} (h : timedLap l i = some o) : o.i = i := by
  unfold timedLap at h
  split at h
  · split at h
    · rw [← Option.some.inj h]
    · exact nomatch h
  · exact nomatch h

/-- The timed laps are told apart by their place in the export. -/
theorem timedLaps_nodup (J : SessionExport) : ((timedLaps J).map Timed.i).Nodup := by
  have hperm : (timedLaps J).Perm (J.laps.zipIdx.filterMap fun p => timedLap p.1 p.2) := List.perm_insertionSort _ _
  refine (hperm.map Timed.i).nodup_iff.mpr ?_
  have hsub : ∀ l : List (LiveLap × ℕ),
      ((l.filterMap fun p => timedLap p.1 p.2).map Timed.i).Sublist (l.map Prod.snd) := by
    intro l
    induction l with
    | nil => exact List.Sublist.slnil
    | cons p l ih =>
        rw [List.filterMap_cons, List.map_cons]
        cases h : timedLap p.1 p.2 with
        | none => exact ih.cons _
        | some o =>
            rw [List.map_cons, timedLap_i h]
            exact ih.cons_cons _
  refine (hsub J.laps.zipIdx).nodup ?_
  rw [List.zipIdx_map_snd]
  exact List.nodup_range'

@[simp] theorem legOf_x (pr : Fix → XY) (x : Prepared) : (legOf rt pr x).x = x := rfl

theorem closeLoops_x (rt : Runtime) (runs : List Leg) : (closeLoops rt runs).map Leg.x = runs.map Leg.x := by
  unfold closeLoops
  rw [List.map_map]
  conv_rhs => rw [← List.zipIdx_map_fst 0 runs, List.map_map]
  rfl

/-- A run is put into one group. -/
theorem insertRun_perm (same : Leg → Leg → Bool) (groups : List (List Leg)) (l : Leg) :
    (insertRun same groups l).flatten.Perm (groups.flatten ++ [l]) := by
  induction groups with
  | nil => exact List.Perm.refl _
  | cons g groups ih =>
      unfold insertRun
      split
      · rw [List.flatten_cons, List.flatten_cons, List.append_assoc, List.append_assoc]
        exact List.perm_append_comm.append_left g
      · rw [List.flatten_cons, List.flatten_cons, List.append_assoc]
        exact ih.append_left g

theorem groups_perm (same : Leg → Leg → Bool) (runs : List Leg) (groups : List (List Leg)) :
    (runs.foldl (insertRun same) groups).flatten.Perm (groups.flatten ++ runs) := by
  induction runs generalizing groups with
  | nil => simp
  | cons l runs ih =>
      rw [List.foldl_cons]
      refine (ih _).trans ?_
      have hl := (insertRun_perm same groups l).append_right runs
      rwa [List.append_assoc, List.singleton_append] at hl

/-- The courses that are labelled by their place have the laps of their groups. -/
theorem labelled_laps (isOpen : Bool) (groups : List (List Leg)) : ((groups.zipIdx.map fun (g, k) =>
    ({ legs := g, isOpen := isOpen, label := courseLabel rt isOpen groups g k } : Course)).flatMap Course.laps) =
      groups.flatten.map fun l => l.x.o := by
  rw [List.flatMap_map, List.map_flatten]
  conv_rhs => rw [← List.zipIdx_map_fst 0 groups, List.map_map]
  rfl

/-- **Planning conserves laps**: each is on one course, or left. -/
theorem planCourses_perm (prep : List Prepared) (pr : Fix → XY) :
    ((planCourses rt prep pr).1.flatMap Course.laps ++ (planCourses rt prep pr).2.map fun l => l.x.o).Perm
      (prep.map Prepared.o) := by
  unfold planCourses
  dsimp only
  set legs := prep.map (legOf rt pr) with hlegs
  set runs := if legs.any (runLike legs) then legs.filter (runLike legs) else legs with hruns
  set left := if legs.any (runLike legs) then legs.filter fun l => !runLike legs l else [] with hleft
  have hsplit : (runs ++ left).Perm legs := by
    rw [hruns, hleft]
    split
    · exact List.filter_append_perm _ legs
    · rw [List.append_nil]
  generalize decide (2 * ((closeLoops rt runs).filter Leg.loop).length < (closeLoops rt runs).length) = isOpen
  generalize hgroups : (closeLoops rt runs).foldl (insertRun (sameCourse rt isOpen)) [] = groups
  have hflat : (groups.flatten.map fun l => l.x.o).Perm (runs.map fun l => l.x.o) := by
    have hperm := groups_perm (sameCourse rt isOpen) (closeLoops rt runs) []
    rw [hgroups] at hperm
    have hx := hperm.map fun l => l.x.o
    have hclose : ((closeLoops rt runs).map fun l => l.x.o) = runs.map fun l => l.x.o := by
      have hmap := congrArg (List.map Prepared.o) (closeLoops_x rt runs)
      rwa [List.map_map, List.map_map] at hmap
    rw [List.flatten_nil, List.nil_append, hclose] at hx
    exact hx
  rw [labelled_laps]
  refine (hflat.append_right _).trans ?_
  rw [← List.map_append]
  refine (hsplit.map fun l => l.x.o).trans ?_
  rw [hlegs, List.map_map]
  rfl

/-- What the loop over the laps of a course has made of those before: the kept are its laps, in order, and each of the
    others is named by a warning. -/
structure Collected (group : List Timed) (acc : Laps) (kept dropped : List Timed) : Prop where
  perm : (kept ++ dropped).Perm group
  times : (acc.laps.map fun l => (l.t0, l.t1)) = kept.map Timed.times
  kind : ∀ l ∈ acc.laps, l.kind = .lap
  named : ∀ o ∈ dropped, ∃ w ∈ acc.cw, w.names o

theorem Collected.step {group kept dropped : List Timed} {acc : Laps} (h : Collected group acc kept dropped)
    (rt : Runtime) (tk : Track) (isOpen : Bool) (fixes : List Fix) (o : Timed) :
    ∃ kept' dropped', Collected (group ++ [o]) (convertLap rt tk isOpen fixes acc o) kept' dropped' := by
  -- a lap that is not kept adds the warning that names it
  have hdrop {w : Warning} {oddStart : List String} (hw : w.names o) :
      Collected (group ++ [o]) { laps := acc.laps, cw := acc.cw ++ [w], oddStart := oddStart } kept (dropped ++ [o]) := by
    refine ⟨?_, h.times, h.kind, ?_⟩
    · rw [← List.append_assoc]
      exact h.perm.append_right [o]
    · intro o' ho'
      rcases List.mem_append.mp ho' with ho' | ho'
      · obtain ⟨w', hmem, hname⟩ := h.named o' ho'
        exact ⟨w', List.mem_append_left _ hmem, hname⟩
      · rw [List.mem_singleton.mp ho']
        exact ⟨w, List.mem_append_right _ List.mem_cons_self, hw⟩
  unfold convertLap
  dsimp only
  generalize (if rt.trim o.label = "" then lapNo o else rt.trim o.label) = label
  generalize hL : build rt tk isOpen (slice fixes o.startMs o.endMs) label .lap o.startMs o.endMs = L
  have htimes : (L.lap.t0, L.lap.t1) = o.times := by
    rw [← hL]
    rfl
  have hkind : L.lap.kind = .lap := by
    rw [← hL]
    rfl
  generalize (if L.gated then acc.oddStart else acc.oddStart ++ [label]) = oddStart
  split
  · exact ⟨kept, dropped ++ [o], hdrop rfl⟩
  split
  · exact ⟨kept, dropped ++ [o], hdrop rfl⟩
  · refine ⟨kept ++ [o], dropped, ?_, ?_, ?_, ?_⟩
    · rw [List.append_assoc]
      refine (List.perm_append_comm.append_left kept).trans ?_
      rw [← List.append_assoc]
      exact h.perm.append_right [o]
    · rw [List.map_append, List.map_append, h.times, List.map_singleton, List.map_singleton, htimes]
    · intro l hl
      rcases List.mem_append.mp hl with hl | hl
      · exact h.kind l hl
      · rw [List.mem_singleton.mp hl]
        exact hkind
    · intro o' ho'
      obtain ⟨w, hmem, hname⟩ := h.named o' ho'
      refine ⟨w, ?_, hname⟩
      split
      · exact List.mem_append_left _ hmem
      · exact hmem

theorem collected_foldl (rt : Runtime) (tk : Track) (isOpen : Bool) (fixes : List Fix) (rest : List Timed)
    {group kept dropped : List Timed} {acc : Laps} (h : Collected group acc kept dropped) :
    ∃ kept' dropped', Collected (group ++ rest) (rest.foldl (convertLap rt tk isOpen fixes) acc) kept' dropped' := by
  induction rest generalizing group kept dropped acc with
  | nil => exact ⟨kept, dropped, by rwa [List.append_nil]⟩
  | cons o rest ih =>
      obtain ⟨kept', dropped', h'⟩ := h.step rt tk isOpen fixes o
      rw [List.foldl_cons, ← List.singleton_append, ← List.append_assoc]
      exact ih h'

/-- Out laps and laps in progress are no timed laps. -/
theorem outLap_kind {tk : Track} {fixes : List Fix} {first l : RawLap} (h : l ∈ outLap rt tk fixes first) :
    l.kind = .out := by
  unfold outLap at h
  dsimp only at h
  split at h
  · exact absurd h List.not_mem_nil
  · split at h
    · rw [List.mem_singleton.mp h]
      rfl
    · exact absurd h List.not_mem_nil

theorem tailLap_kind {tk : Track} {fixes : List Fix} {last : Timed} {laps : List RawLap} {l : RawLap}
    (h : l ∈ tailLap rt tk fixes last laps) : l.kind = .part := by
  unfold tailLap at h
  dsimp only at h
  split at h
  · exact absurd h List.not_mem_nil
  · split at h
    · rw [List.mem_singleton.mp h]
      rfl
    · exact absurd h List.not_mem_nil

/-- A run accounts for some laps: it has each of them once and with its times, or a warning of it names the lap. -/
def Run.Accounts (r : Run) (laps : List Timed) : Prop :=
  ∃ kept dropped : List Timed, (kept ++ dropped).Perm laps ∧ r.times = kept.map Timed.times ∧
    ∀ o ∈ dropped, ∃ w ∈ r.warnings, w.names o

/-- **A run accounts for each lap of its course.** -/
theorem convertCourse_some {tk : Track} {fixes : List Fix} {firstT lastT : ℚ} {course : Course} {r : Run}
    (h : convertCourse rt tk fixes firstT lastT course = some r) : r.Accounts course.laps := by
  have hstart : Collected [] {} [] [] :=
    ⟨List.Perm.refl _, rfl, fun _ h => absurd h List.not_mem_nil, fun _ h => absurd h List.not_mem_nil⟩
  obtain ⟨kept, dropped, hc⟩ := collected_foldl rt tk course.isOpen fixes course.laps hstart
  rw [List.nil_append] at hc
  unfold convertCourse at h
  dsimp only at h
  unfold Course.laps at hc ⊢
  generalize (course.legs.map fun l => l.x.o).foldl (convertLap rt tk course.isOpen fixes) {} = acc at hc h
  split at h
  · exact nomatch h
  rename_i first rest hlaps
  have hr := (Option.some.inj h).symm
  refine ⟨kept, dropped, hc.perm, ?_, ?_⟩
  · have hlap : (acc.laps.filter fun l => decide (l.kind = .lap)) = acc.laps :=
      List.filter_eq_self.mpr fun l hl => by simpa using hc.kind l hl
    -- the out lap and the rest of the session are not laps, so the times of a run are those of its laps
    have hothers {laps : List RawLap} (h : ∀ l ∈ laps, l.kind ≠ .lap) :
        (laps.filter fun l => decide (l.kind = .lap)) = [] :=
      List.filter_eq_nil_iff.mpr fun l hl => by simpa using h l hl
    rw [hr, Run.times, List.filter_append, List.filter_append, hlap, hothers ?_, hothers ?_, List.append_nil,
      List.append_nil, hc.times]
    · intro l hl
      split at hl
      · split at hl
        · exact absurd hl List.not_mem_nil
        · rw [tailLap_kind hl]
          exact fun h => nomatch h
      · exact absurd hl List.not_mem_nil
    · intro l hl
      split at hl
      · exact absurd hl List.not_mem_nil
      · rw [outLap_kind hl]
        exact fun h => nomatch h
  · intro o ho
    obtain ⟨w, hw, hname⟩ := hc.named o ho
    refine ⟨w, ?_, hname⟩
    rw [hr]
    dsimp only
    split
    · exact hw
    · exact List.mem_append_left _ hw

/-! ## All courses -/

/-- **All courses together**: each returned run has the laps mapped to it, and the rest is named by a warning of a run or
    is on a course that is skipped. -/
theorem convert_courses (runs : List (Course × Option Run))
    (h : ∀ p ∈ runs, ∀ r, p.2 = some r → r.Accounts p.1.laps) :
    ∃ (mapped : List (List Timed)) (rest : List Timed),
      List.Forall₂ (fun r laps => Run.times r = laps.map Timed.times) (runs.filterMap Prod.snd) mapped ∧
      (mapped.flatten ++ rest).Perm (runs.flatMap fun p => p.1.laps) ∧
      ∀ o ∈ rest, (∃ r ∈ runs.filterMap Prod.snd, ∃ w ∈ r.warnings, w.names o) ∨
        ∃ p ∈ runs, p.2 = none ∧ o ∈ p.1.laps := by
  induction runs with
  | nil => exact ⟨[], [], .nil, List.Perm.refl _, fun _ ho => absurd ho List.not_mem_nil⟩
  | cons p runs ih =>
      obtain ⟨mapped, rest, hmapped, hperm, hrest⟩ := ih fun q hq => h q (List.mem_cons_of_mem _ hq)
      have hlater {o : Timed} (ho : o ∈ rest) : (∃ r ∈ (p :: runs).filterMap Prod.snd, ∃ w ∈ r.warnings, w.names o) ∨
          ∃ q ∈ p :: runs, q.2 = none ∧ o ∈ q.1.laps := by
        rcases hrest o ho with ⟨r, hr, hw⟩ | ⟨q, hq, hnone, hmem⟩
        · left
          refine ⟨r, ?_, hw⟩
          obtain ⟨q, hq, hqr⟩ := List.mem_filterMap.mp hr
          exact List.mem_filterMap.mpr ⟨q, List.mem_cons_of_mem _ hq, hqr⟩
        · exact Or.inr ⟨q, List.mem_cons_of_mem _ hq, hnone, hmem⟩
      rw [List.flatMap_cons]
      cases hp : p.2 with
      | none =>
          rw [List.filterMap_cons_none hp] at hlater ⊢
          refine ⟨mapped, p.1.laps ++ rest, hmapped, ?_, ?_⟩
          · refine List.Perm.trans ?_ (hperm.append_left p.1.laps)
            rw [← List.append_assoc, ← List.append_assoc]
            exact List.perm_append_comm.append_right rest
          · intro o ho
            rcases List.mem_append.mp ho with ho | ho
            · exact Or.inr ⟨p, List.mem_cons_self, hp, ho⟩
            · exact hlater ho
      | some r =>
          obtain ⟨kept, dropped, hkept, htimes, hnamed⟩ := h p List.mem_cons_self r hp
          rw [List.filterMap_cons_some hp] at hlater ⊢
          refine ⟨kept :: mapped, dropped ++ rest, .cons htimes hmapped, ?_, ?_⟩
          · refine List.Perm.trans ?_ (hkept.append hperm)
            rw [List.flatten_cons, List.append_assoc, List.append_assoc, ← List.append_assoc mapped.flatten,
              ← List.append_assoc dropped]
            exact (List.perm_append_comm.append_right rest).append_left kept
          · intro o ho
            rcases List.mem_append.mp ho with ho | ho
            · exact Or.inl ⟨r, List.mem_cons_self, hnamed o ho⟩
            · exact hlater ho

/-! ## The conversion -/

theorem unshift_times {warnings : List Warning} {out : List Run} {mapped : List (List Timed)}
    (h : List.Forall₂ (fun r laps => Run.times r = laps.map Timed.times) out mapped) :
    List.Forall₂ (fun r laps => Run.times r = laps.map Timed.times) (unshift warnings out) mapped := by
  cases h with
  | nil => exact .nil
  | cons hr h => exact .cons hr h

theorem mem_warnings_unshift {warnings : List Warning} {out : List Run} {w : Warning} :
    w ∈ (unshift warnings out).flatMap Run.warnings ↔ out ≠ [] ∧ w ∈ warnings ∨ w ∈ out.flatMap Run.warnings := by
  cases out with
  | nil => simp [unshift]
  | cons r out => simp [unshift]

/-- The laps that are on no course are named by the warnings about the session. -/
theorem sessionWarnings_names {unavailable : List Prepared} {courses : List Course} {left : List Leg} {o : Timed}
    (ho : o ∈ unavailable.map Prepared.o ∨ o ∈ left.map (fun l => l.x.o)) :
    ∃ w ∈ sessionWarnings unavailable courses left, w.names o := by
  unfold sessionWarnings
  rcases ho with ho | ho
  · refine ⟨.unavailable (unavailable.map Prepared.o), ?_, ho⟩
    rw [if_neg fun h => by simp [h] at ho]
    simp
  · refine ⟨.leftOut (left.map fun l : Leg => l.x.o), ?_, ho⟩
    rw [if_neg (c := left = []) fun h => by simp [h] at ho]
    simp

/-- With one course skipped and another one returned, the courses and their laps are listed. -/
theorem sessionWarnings_courses {unavailable : List Prepared} {courses : List Course} {left : List Leg}
    (h : 1 < courses.length) :
    .courses (courses.map fun c => (c.label, c.laps)) ∈ sessionWarnings unavailable courses left := by
  unfold sessionWarnings
  rw [if_neg (c := courses.length ≤ 1) (Nat.not_le.mpr h)]
  simp [Course.laps]

/-- **The returned runs**: each has the laps mapped to it, and the rest of the usable laps and all others are reported. -/
theorem assemble_ok {unavailable : List Prepared} {courses : List Course} {left : List Leg}
    {runs : List (Course × Option Run)} {out : List Run}
    (h : assemble (sessionWarnings unavailable courses left) runs = .ok out)
    (hruns : ∀ p ∈ runs, ∀ r, p.2 = some r → r.Accounts p.1.laps)
    (hcourses : runs.map Prod.fst = courses) :
    ∃ (mapped : List (List Timed)) (rest : List Timed),
      List.Forall₂ (fun r laps => Run.times r = laps.map Timed.times) out mapped ∧
      (mapped.flatten ++ rest).Perm
        (courses.flatMap Course.laps ++ (left.map fun l => l.x.o) ++ unavailable.map Prepared.o) ∧
      ∀ o ∈ rest, Reported (out.flatMap Run.warnings) o := by
  obtain ⟨mapped, rest, hmapped, hperm, hrest⟩ := convert_courses runs hruns
  unfold assemble at h
  dsimp only at h
  split at h
  · exact nomatch h
  rename_i returned hne
  obtain rfl : _ = out := by injection h
  refine ⟨mapped, rest ++ (left.map fun l => l.x.o) ++ unavailable.map Prepared.o, unshift_times hmapped, ?_, ?_⟩
  · have hflat : (runs.flatMap fun p => p.1.laps) = courses.flatMap Course.laps := by
      rw [← hcourses, List.flatMap_map]
    rw [hflat] at hperm
    rw [← List.append_assoc, ← List.append_assoc]
    exact (hperm.append_right _).append_right _
  · have hwarn {w : Warning} (hw : w ∈ sessionWarnings unavailable courses left ++
        (runs.filter fun r => r.2.isNone).map fun r => Warning.skippedCourse r.1.label (noun r.1.isOpen)) :
        w ∈ (unshift (sessionWarnings unavailable courses left ++
          (runs.filter fun r => r.2.isNone).map fun r => Warning.skippedCourse r.1.label (noun r.1.isOpen))
          (runs.filterMap Prod.snd)).flatMap Run.warnings :=
      mem_warnings_unshift.mpr (Or.inl ⟨hne, hw⟩)
    intro o ho
    rw [List.append_assoc] at ho
    rcases List.mem_append.mp ho with ho | ho
    · rcases hrest o ho with ⟨r, hr, w, hw, hname⟩ | ⟨p, hp, hnone, hmem⟩
      · left
        exact ⟨w, mem_warnings_unshift.mpr (Or.inr (List.mem_flatMap.mpr ⟨r, hr, hw⟩)), hname⟩
      · right
        refine ⟨courses.map fun c => (c.label, c.laps), p.1.label, p.1.laps, noun p.1.isOpen, ?_, ?_, hmem, ?_⟩
        · refine hwarn (List.mem_append_left _ (sessionWarnings_courses ?_))
          rw [← hcourses, List.length_map]
          -- with a single course, skipped, there would be no run to return
          by_contra hlen
          obtain ⟨q, rfl⟩ : ∃ q, runs = [q] := by
            refine List.length_eq_one_iff.mp ?_
            have hpos := List.length_pos_of_mem hp
            omega
          obtain rfl := List.mem_singleton.mp hp
          exact hne (List.filterMap_cons_none hnone)
        · refine List.mem_map.mpr ⟨p.1, ?_, rfl⟩
          rw [← hcourses]
          exact List.mem_map_of_mem hp
        · refine hwarn (List.mem_append_right _ (List.mem_map.mpr ⟨p, List.mem_filter.mpr ⟨hp, ?_⟩, rfl⟩))
          rw [hnone]
          rfl
    · left
      obtain ⟨w, hw, hname⟩ := @sessionWarnings_names unavailable courses left o (List.mem_append.mp ho).symm
      exact ⟨w, hwarn (List.mem_append_left _ hw), hname⟩

/-- **Laps are conserved** in every session that is converted, whatever its laps, its samples and its tracks. -/
theorem laps_conserved (rt : Runtime) (trackOf : ℕ → Course → Track) (J : SessionExport) (out : List Run)
    (h : convertSession rt trackOf J = .ok out) : LapsConserved J out := by
  refine ⟨timedLaps_nodup J, ?_⟩
  unfold convertSession at h
  dsimp only at h
  split at h
  · exact nomatch h
  split at h
  case h_2 => exact nomatch h
  rename_i firstLap lastLap hfirst hlast
  split at h
  · exact nomatch h
  generalize fixesOf (mergeSamples J) = fixes at h
  generalize fixesOf (interpolate fixes (mergeSamples J)) = positions at h
  obtain ⟨mapped, rest, hmapped, hperm, hrest⟩ := assemble_ok h (by
    intro p hp r hr
    obtain ⟨⟨course, ci⟩, -, rfl⟩ := List.mem_map.mp hp
    exact convertCourse_some hr) (by
    rw [List.map_map]
    conv_rhs => rw [← List.zipIdx_map_fst 0 (planSession rt _).1]
    rfl)
  refine ⟨mapped, rest, hmapped, hperm.trans ?_, hrest⟩
  refine ((planCourses_perm _ _).append_right _).trans ?_
  rw [← List.map_append]
  refine ((List.filter_append_perm _ _).map Prepared.o).trans ?_
  rw [List.map_map]
  exact List.Perm.of_eq (List.map_id _)

/-- On a line along the equator one argument of `hypot` is 0, and the cosine is that of 0. -/
def Runtime.equator : Runtime where
  hypot x y := |x| + |y|
  sqrt x := ((List.range 300).find? fun n => decide (((n : ℚ) * n) = x)).getD 0
  cos _ := 1
  pi := 884279719003555 / 281474976710656
  trim label := label
  fixed1 _ := ""
  text _ := ""

/-- Two drives along the equator, and a lap without samples. -/
def equatorSession : SessionExport where
  laps := [{ startMs := some 30000, endMs := some 49000, durationMs := 19000 },
    { startMs := some 0, endMs := some 19000, durationMs := 19000 },
    { startMs := some 60000, endMs := some 70000, durationMs := 10000 }]
  sampleTail := [0, 30000].flatMap fun t0 : ℚ =>
    (List.range 20).map fun k => { t := some (t0 + 1000 * k), lat := some 0, lon := some ((k + 1) / 10000) }

def equatorTrack : Track where
  lat0 := 0
  lon0 := 1 / 10000
  ref := [(0, 0), (100, 0), (200, 0)]
  cum := [0, 100, 200]
  RL := 200

theorem laps_conserved_equator :
    ∃ out, convertSession .equator (fun _ _ => equatorTrack) equatorSession = .ok out ∧
      out.map Run.times = [[(0, 19000), (30000, 49000)]] ∧ LapsConserved equatorSession out := by
  have hrun : (convertSession .equator (fun _ _ => equatorTrack) equatorSession).toOption.map (List.map Run.times) =
      some [[(0, 19000), (30000, 49000)]] := by decide +kernel
  obtain ⟨out, hout, htimes⟩ := Option.map_eq_some_iff.mp hrun
  cases h : convertSession .equator (fun _ _ => equatorTrack) equatorSession with
  | error e =>
      rw [h] at hout
      exact nomatch hout
  | ok out' =>
      rw [h] at hout
      obtain rfl := Option.some.inj hout
      exact ⟨_, rfl, htimes, laps_conserved _ _ _ _ h⟩

end Lhre.DriveDay.Convert
