import Lhre.CanSpec.Frames

/-!
# `CanSpec.Ledger` — what the ledger checks accept

`record` sees one binding after the other and keeps, for each field, its first binding and the slots and producers seen
since. Here a pass without findings is turned into what any two of its bindings have in common, and the partition check
of a group into a statement about the ids bound in it.

## Contents
- **Two bindings.** `Consistent`: what the ledger asks of any two of them.
- **The pass.** `Noted`, what the ledger knows of the bindings it has recorded, and `Passed`, what it asks of the next one;
  one step and the whole pass.
- **The partition.** `Partitioned`, what the check of one group's ledger says.
- **Accepted specs.** `Spec.Valid.recorded`, `Spec.Valid.partitioned`.
-/

namespace Lhre.CanSpec

/-! ## Two bindings -/

/-- Two slots of a repeated field. -/
structure Slots (a b : LedgerBinding) : Prop where
  left : a.repeated = true
  right : b.repeated = true
  index : a.arrayIndex ≠ b.arrayIndex

/-- Two sources of a scalar field. -/
structure Sources (a b : LedgerBinding) : Prop where
  left : a.repeated = false
  right : b.repeated = false
  shared : a.sharedSource = true ∧ b.sharedSource = true
  contract : a.sourceContract = b.sourceContract
  producer : a.producer ≠ b.producer

/-- What two bindings of an accepted spec have in common. -/
structure Consistent (a b : LedgerBinding) : Prop where
  group : a.field = b.field → a.group = b.group
  id : a.field = b.field → a.id = b.id
  again : a.field = b.field → Slots a b ∨ Sources a b
  ids : a.group = b.group → a.field ≠ b.field → a.id ≠ b.id

theorem Slots.symm {a b : LedgerBinding} (h : Slots a b) : Slots b a := ⟨h.right, h.left, h.index.symm⟩

theorem Sources.symm {a b : LedgerBinding} (h : Sources a b) : Sources b a :=
  ⟨h.right, h.left, h.shared.symm, h.contract.symm, h.producer.symm⟩

theorem Consistent.symm {a b : LedgerBinding} (h : Consistent a b) : Consistent b a where
  group := fun hfield => (h.group hfield.symm).symm
  id := fun hfield => (h.id hfield.symm).symm
  again := fun hfield => (h.again hfield.symm).imp Slots.symm Sources.symm
  ids := fun hgroup hfield => (h.ids hgroup.symm hfield.symm).symm

/-- A shared source is a scalar, and only a shared source has a contract. -/
structure WellSourced (b : LedgerBinding) : Prop where
  scalar : b.sharedSource = true → b.repeated = false
  contract : b.sharedSource = false → b.sourceContract = none

/-! ## The pass -/

/-- What an entry knows of a binding of its field. -/
structure LedgerEntry.Knows (e : LedgerEntry) (b : LedgerBinding) : Prop where
  id : e.id = b.id
  repeated : e.repeated = b.repeated
  shared : e.sharedSource = b.sharedSource
  contract : e.sourceContract = b.sourceContract
  index : b.arrayIndex ∈ e.indexes
  producer : b.producer ∈ e.producers

/-- **What the ledger knows** of the bindings it has recorded. -/
structure Noted (done : List LedgerBinding) (l : Ledger) : Prop where
  entry : ∀ b ∈ done, ∃ e, Dict.get? (l.group b.group) b.field = some e ∧ e.Knows b
  source : ∀ g f e, Dict.get? (l.group g) f = some e → ∃ b ∈ done, b.group = g ∧ b.field = f
  name : ∀ b ∈ done, ∃ path, Dict.get? l.fieldNames b.field = some (b.group, path)
  ids : ∀ a ∈ done, ∀ b ∈ done, a.group = b.group → a.field ≠ b.field → a.id ≠ b.id
  nodup : ∀ g, (Dict.keys (l.group g)).Nodup

theorem Noted.nil : Noted [] {} where
  entry := fun _ hb => absurd hb List.not_mem_nil
  source := fun g f e h => absurd h (by simp [Ledger.group])
  name := fun _ hb => absurd hb List.not_mem_nil
  ids := fun _ hb => absurd hb List.not_mem_nil
  nodup := fun g => Dict.nodup_keys_nil

/-- The entry of a field after one of its bindings was recorded. -/
def entryAfter (old : Option LedgerEntry) (b : LedgerBinding) : LedgerEntry := (old.map fun e => e.add b).getD b.entry

/-- **Recording a binding** changes the entry of its field alone. -/
theorem Ledger.get?_note (l : Ledger) (b : LedgerBinding) (g f : String) :
    Dict.get? ((l.note b).group g) f =
      if g = b.group ∧ f = b.field then some (entryAfter (Dict.get? (l.group b.group) b.field) b)
      else Dict.get? (l.group g) f := by
  unfold Ledger.note Ledger.group
  rw [Dict.get?_set]
  by_cases hg : g = b.group
  · rw [if_pos hg, Option.getD_some, Dict.get?_set]
    by_cases hf : f = b.field
    · rw [if_pos hf, if_pos ⟨hg, hf⟩]
      rfl
    · rw [if_neg hf, if_neg (fun h => hf h.2), hg]
  · rw [if_neg hg, if_neg (fun h => hg h.1)]

theorem Ledger.nodup_note {l : Ledger} {b : LedgerBinding} (h : ∀ g, (Dict.keys (l.group g)).Nodup) (g : String) :
    (Dict.keys ((l.note b).group g)).Nodup := by
  have hgroup : (l.note b).group g =
      if g = b.group then Dict.set b.field (entryAfter (Dict.get? (l.group b.group) b.field) b) (l.group b.group)
      else l.group g := by
    unfold Ledger.note Ledger.group
    rw [Dict.get?_set]
    by_cases hg : g = b.group
    · rw [if_pos hg, if_pos hg]
      rfl
    · rw [if_neg hg, if_neg hg]
  rw [hgroup]
  split
  · exact Dict.nodup_keys_set (h b.group) _ _
  · exact h g

/-- **A further binding of a field** that passes the check agrees with every binding the entry knows. -/
theorem checkFurther_eq_nil {e : LedgerEntry} {b : LedgerBinding} (h : checkFurther e b = []) :
    e.id = b.id ∧
      ((e.sharedSource = true ∧ b.sharedSource = true ∧ b.repeated = false ∧ e.sourceContract = b.sourceContract ∧
          b.producer ∉ e.producers) ∨
        (e.repeated = true ∧ b.repeated = true ∧ b.arrayIndex ∉ e.indexes)) := by
  unfold checkFurther at h
  rw [List.append_eq_nil_iff, report_eq_nil, not_not] at h
  obtain ⟨hid, h⟩ := h
  refine ⟨hid, ?_⟩
  by_cases hshared : e.sharedSource = true ∧ b.sharedSource = true ∧ ¬ b.repeated = true
  · rw [if_pos hshared, List.append_eq_nil_iff, report_eq_nil, report_eq_nil, not_not] at h
    left
    exact ⟨hshared.1, hshared.2.1, by simpa using hshared.2.2, h.1, h.2⟩
  · rw [if_neg hshared] at h
    by_cases hrepeated : e.repeated = true ∧ b.repeated = true
    · rw [if_neg (not_not.mpr hrepeated), report_eq_nil] at h
      right
      exact ⟨hrepeated.1, hrepeated.2, h⟩
    · rw [if_pos hrepeated] at h
      exact absurd h (by simp)

/-- The entry of a new field knows its binding. -/
theorem LedgerBinding.entry_knows (b : LedgerBinding) : b.entry.Knows b :=
  ⟨rfl, rfl, rfl, rfl, List.mem_singleton_self _, List.mem_singleton_self _⟩

/-- A further binding takes nothing from what an entry knows. -/
theorem LedgerEntry.Knows.add {e : LedgerEntry} {a : LedgerBinding} (h : e.Knows a) (b : LedgerBinding) :
    (e.add b).Knows a :=
  ⟨h.id, h.repeated, h.shared, h.contract, List.mem_cons_of_mem _ h.index, List.mem_cons_of_mem _ h.producer⟩

/-- **A binding that passes the checks** of `record`, by what the ledger has. -/
structure Passed (l : Ledger) (b : LedgerBinding) : Prop where
  first : Dict.get? (l.group b.group) b.field = none → ∀ entry ∈ l.group b.group, entry.2.id ≠ b.id
  further : ∀ e, Dict.get? (l.group b.group) b.field = some e → checkFurther e b = []
  name : ∀ prior, Dict.get? l.fieldNames b.field = some prior → prior.1 = b.group

theorem checkRecord_eq_nil {l : Ledger} {b : LedgerBinding} (hcheck : checkRecord l b = []) : Passed l b := by
  unfold checkRecord at hcheck
  rw [List.append_eq_nil_iff] at hcheck
  obtain ⟨hlive, hname⟩ := hcheck
  refine ⟨?_, ?_, ?_⟩
  · intro hnone entry hentry
    rw [hnone] at hlive
    have hreport := List.flatMap_eq_nil_iff.mp hlive entry hentry
    rwa [report_eq_nil] at hreport
  · intro e he
    rw [he] at hlive
    exact hlive
  · intro prior hprior
    unfold checkFieldName at hname
    rw [hprior, report_eq_nil, not_not] at hname
    exact hname

section Recording

variable {done : List LedgerBinding} {l : Ledger} {b : LedgerBinding}

/-- The entry of a field knows a binding that was recorded. -/
theorem Noted.exists_known (h : Noted done l) {g f : String} {e : LedgerEntry} (he : Dict.get? (l.group g) f = some e) :
    ∃ a ∈ done, a.group = g ∧ a.field = f ∧ e.Knows a := by
  obtain ⟨a, ha, hagroup, hafield⟩ := h.source g f e he
  obtain ⟨e', he', hknows⟩ := h.entry a ha
  rw [hagroup, hafield, he, Option.some.injEq] at he'
  subst he'
  exact ⟨a, ha, hagroup, hafield, hknows⟩

/-- An earlier binding of the field is in the same group. -/
theorem Noted.group_eq (h : Noted done l) (hpassed : Passed l b) {a : LedgerBinding} (ha : a ∈ done)
    (hfield : a.field = b.field) : a.group = b.group := by
  obtain ⟨path, hpath⟩ := h.name a ha
  rw [hfield] at hpath
  exact hpassed.name _ hpath

/-- The entry of an earlier binding agrees with a further one in its kind and its source. -/
theorem LedgerEntry.Knows.agree {e : LedgerEntry} {a : LedgerBinding} (hknows : e.Knows a) (ha : WellSourced a)
    (hb : WellSourced b) (hfurther : checkFurther e b = []) :
    e.repeated = b.repeated ∧ e.sharedSource = b.sharedSource ∧ e.sourceContract = b.sourceContract := by
  obtain ⟨-, ⟨hshared, hbshared, hbscalar, hcontract, -⟩ | ⟨hrepeated, hbrepeated, -⟩⟩ := checkFurther_eq_nil hfurther
  · have hscalar := ha.scalar (by rw [← hknows.shared]; exact hshared)
    exact ⟨by rw [hknows.repeated, hscalar, hbscalar], by rw [hshared, hbshared], hcontract⟩
  · have hplain : ∀ {c : LedgerBinding}, WellSourced c → c.repeated = true → c.sharedSource = false := by
      intro c hc hrep
      by_contra hno
      rw [hc.scalar (by simpa using hno)] at hrep
      exact absurd hrep (by simp)
    have haplain := hplain ha (by rw [← hknows.repeated]; exact hrepeated)
    have hbplain := hplain hb hbrepeated
    exact ⟨by rw [hrepeated, hbrepeated], by rw [hknows.shared, haplain, hbplain],
      by rw [hknows.contract, ha.contract haplain, hb.contract hbplain]⟩

/-- A further binding of the field of an earlier one is another slot of it or another source. -/
theorem LedgerEntry.Knows.again {e : LedgerEntry} {a : LedgerBinding} (hknows : e.Knows a) (ha : WellSourced a)
    (hfurther : checkFurther e b = []) : Slots a b ∨ Sources a b := by
  obtain ⟨-, ⟨hshared, hbshared, hbscalar, hcontract, hproducer⟩ | ⟨hrepeated, hbrepeated, hindex⟩⟩ :=
    checkFurther_eq_nil hfurther
  · right
    have hashared : a.sharedSource = true := by rw [← hknows.shared]; exact hshared
    refine ⟨ha.scalar hashared, hbscalar, ⟨hashared, hbshared⟩, by rw [← hknows.contract, hcontract], ?_⟩
    intro heq
    exact hproducer (heq ▸ hknows.producer)
  · left
    refine ⟨by rw [← hknows.repeated]; exact hrepeated, hbrepeated, ?_⟩
    intro heq
    exact hindex (heq ▸ hknows.index)

/-- A recorded binding of another field of the group has another id. -/
theorem Noted.id_ne (h : Noted done l) (hpassed : Passed l b) {a : LedgerBinding} (ha : a ∈ done)
    (hgroup : a.group = b.group) (hfield : a.field ≠ b.field) : a.id ≠ b.id := by
  intro hid
  cases hget : Dict.get? (l.group b.group) b.field with
  | some e =>
      -- the id is that of an earlier binding of the field
      obtain ⟨c, hc, hcgroup, hcfield, hknows⟩ := h.exists_known hget
      have hidc : e.id = b.id := (checkFurther_eq_nil (hpassed.further e hget)).1
      apply h.ids a ha c hc (hgroup.trans hcgroup.symm) (by rw [hcfield]; exact hfield)
      rw [hid, ← hknows.id, hidc]
  | none =>
      obtain ⟨e, he, hknows⟩ := h.entry a ha
      rw [hgroup] at he
      have hmem := (Dict.mem_iff_get? (h.nodup b.group)).mpr he
      exact hpassed.first hget _ hmem (hknows.id.trans hid)

/-- **A binding that passes** agrees with all before it. -/
theorem Noted.consistent (h : Noted done l) (hdone : ∀ a ∈ done, WellSourced a) (hpassed : Passed l b) :
    ∀ a ∈ done, Consistent a b := by
  intro a ha
  have hknown : a.field = b.field → ∃ e, checkFurther e b = [] ∧ e.Knows a := by
    intro hfield
    obtain ⟨e, he, hknows⟩ := h.entry a ha
    rw [h.group_eq hpassed ha hfield, hfield] at he
    exact ⟨e, hpassed.further e he, hknows⟩
  refine ⟨h.group_eq hpassed ha, ?_, ?_, h.id_ne hpassed ha⟩
  · intro hfield
    obtain ⟨e, hfurther, hknows⟩ := hknown hfield
    rw [← hknows.id]
    exact (checkFurther_eq_nil hfurther).1
  · intro hfield
    obtain ⟨e, hfurther, hknows⟩ := hknown hfield
    exact hknows.again (hdone a ha) hfurther

/-- The entry of a field knows its last binding. -/
theorem Noted.entryAfter_knows (h : Noted done l) (hdone : ∀ a ∈ done, WellSourced a) (hb : WellSourced b)
    (hpassed : Passed l b) : (entryAfter (Dict.get? (l.group b.group) b.field) b).Knows b := by
  cases hget : Dict.get? (l.group b.group) b.field with
  | none => exact b.entry_knows
  | some e =>
      obtain ⟨a, ha, -, -, hknows⟩ := h.exists_known hget
      have hfurther := hpassed.further e hget
      obtain ⟨hrepeated, hshared, hcontract⟩ := hknows.agree (hdone a ha) hb hfurther
      exact ⟨(checkFurther_eq_nil hfurther).1, hrepeated, hshared, hcontract, List.mem_cons_self, List.mem_cons_self⟩

/-- **One recorded binding** agrees with all before it, and the ledger knows it afterwards. -/
theorem Noted.step (h : Noted done l) (hdone : ∀ a ∈ done, WellSourced a) (hb : WellSourced b)
    (hcheck : checkRecord l b = []) : (∀ a ∈ done, Consistent a b) ∧ Noted (done ++ [b]) (l.note b) := by
  have hpassed := checkRecord_eq_nil hcheck
  have hconsistent := h.consistent hdone hpassed
  refine ⟨hconsistent, ?_, ?_, ?_, ?_, Ledger.nodup_note h.nodup⟩
  · intro a ha
    rw [Ledger.get?_note]
    rcases List.mem_append.mp ha with ha | ha
    · obtain ⟨e, he, hknows⟩ := h.entry a ha
      by_cases hkey : a.group = b.group ∧ a.field = b.field
      · rw [hkey.1, hkey.2] at he
        rw [if_pos hkey, he]
        exact ⟨_, rfl, hknows.add b⟩
      · rw [if_neg hkey]
        exact ⟨e, he, hknows⟩
    · rw [List.mem_singleton.mp ha, if_pos ⟨rfl, rfl⟩]
      exact ⟨_, rfl, h.entryAfter_knows hdone hb hpassed⟩
  · intro g f e he
    rw [Ledger.get?_note] at he
    by_cases hkey : g = b.group ∧ f = b.field
    · exact ⟨b, List.mem_append_right _ (List.mem_singleton_self b), hkey.1.symm, hkey.2.symm⟩
    · rw [if_neg hkey] at he
      obtain ⟨a, ha, hag, haf⟩ := h.source g f e he
      exact ⟨a, List.mem_append_left _ ha, hag, haf⟩
  · intro a ha
    unfold Ledger.note
    rw [Dict.get?_set]
    rcases List.mem_append.mp ha with ha | ha
    · obtain ⟨path, hpath⟩ := h.name a ha
      by_cases hfield : a.field = b.field
      · rw [if_pos hfield, ← hfield, hpath]
        exact ⟨path, rfl⟩
      · rw [if_neg hfield]
        exact ⟨path, hpath⟩
    · rw [List.mem_singleton.mp ha, if_pos rfl]
      cases hget : Dict.get? l.fieldNames b.field with
      | none => exact ⟨b.path, rfl⟩
      | some prior => exact ⟨prior.2, by rw [Option.getD_some, ← hpassed.name prior hget]⟩
  · intro a ha a' ha'
    rcases List.mem_append.mp ha with ha | ha <;> rcases List.mem_append.mp ha' with ha' | ha'
    · exact h.ids a ha a' ha'
    · rw [List.mem_singleton.mp ha']
      exact (hconsistent a ha).ids
    · rw [List.mem_singleton.mp ha]
      exact (hconsistent a' ha').symm.ids
    · rw [List.mem_singleton.mp ha, List.mem_singleton.mp ha']
      intro _ hne
      exact absurd rfl hne

end Recording

/-- What the early returns of `record` ask of a binding. -/
structure Recordable (groupNames : List String) (b : LedgerBinding) : Prop where
  group : b.group ∈ groupNames
  name : b.field ≠ "" ∧ lowerSnake b.field = true
  id : b.id ≠ 0

theorem record_eq_nil {groupNames : List String} {l : Ledger} {b : LedgerBinding}
    (h : (record groupNames l b).1 = []) :
    Recordable groupNames b ∧ checkRecord l b = [] ∧ (record groupNames l b).2 = l.note b := by
  unfold record at h ⊢
  by_cases hgroup : b.group ∉ groupNames
  · rw [if_pos hgroup] at h
    exact absurd h (by simp)
  · rw [if_neg hgroup] at h ⊢
    by_cases hname : b.field = "" ∨ ¬ lowerSnake b.field = true
    · rw [if_pos hname] at h
      exact absurd h (by simp)
    · rw [if_neg hname] at h ⊢
      rw [not_or, not_not] at hname
      by_cases hid : b.id = 0
      · rw [if_pos hid] at h
        exact absurd h (by simp)
      · rw [if_neg hid] at h ⊢
        exact ⟨⟨not_not.mp hgroup, hname, hid⟩, h, rfl⟩

/-- **A pass without findings**: any two recorded bindings are consistent, and the ledger knows them all. -/
theorem recordAll_eq_nil {groupNames : List String} (sources : List (List Finding × LedgerBinding))
    (hsourced : ∀ s ∈ sources, s.1 = [] → WellSourced s.2) (done : List LedgerBinding) (l : Ledger)
    (hnoted : Noted done l) (hdone : ∀ a ∈ done, WellSourced a) (h : (recordAll groupNames l sources).1 = []) :
    (∀ s ∈ sources, s.1 = [] ∧ Recordable groupNames s.2) ∧ (∀ a ∈ done, ∀ s ∈ sources, Consistent a s.2) ∧
      (sources.map Prod.snd).Pairwise Consistent ∧
      Noted (done ++ sources.map Prod.snd) (recordAll groupNames l sources).2 := by
  induction sources generalizing done l with
  | nil =>
      refine ⟨?_, ?_, List.Pairwise.nil, ?_⟩
      · intro s hs
        exact absurd hs List.not_mem_nil
      · intro a _ s hs
        exact absurd hs List.not_mem_nil
      · rw [List.map_nil, List.append_nil]
        exact hnoted
  | cons source sources ih =>
      obtain ⟨findings, b⟩ := source
      simp only [recordAll, List.append_eq_nil_iff] at h
      obtain ⟨⟨hfindings, hrecorded⟩, hlater⟩ := h
      obtain ⟨hsource, hsources⟩ := List.forall_mem_cons.mp hsourced
      have hb := hsource hfindings
      obtain ⟨hrecordable, hcheck, hnote⟩ := record_eq_nil hrecorded
      obtain ⟨hconsistent, hstep⟩ := hnoted.step hdone hb hcheck
      rw [hnote] at hlater
      have hdone' : ∀ a ∈ done ++ [b], WellSourced a := by
        intro a ha
        rcases List.mem_append.mp ha with ha | ha
        · exact hdone a ha
        · rw [List.mem_singleton.mp ha]
          exact hb
      obtain ⟨hall, hpairs, hpairwise, hfinal⟩ := ih hsources (done ++ [b]) (l.note b) hstep hdone' hlater
      refine ⟨?_, ?_, ?_, ?_⟩
      · exact List.forall_mem_cons.mpr ⟨⟨hfindings, hrecordable⟩, hall⟩
      · intro a ha
        refine List.forall_mem_cons.mpr ⟨hconsistent a ha, ?_⟩
        exact hpairs a (List.mem_append_left _ ha)
      · rw [List.map_cons, List.pairwise_cons]
        refine ⟨?_, hpairwise⟩
        intro a ha
        obtain ⟨s, hs, rfl⟩ := List.mem_map.mp ha
        exact hpairs b (List.mem_append_right _ (List.mem_singleton_self b)) s hs
      · simp only [recordAll, hnote, List.map_cons]
        rw [List.append_cons]
        exact hfinal

/-! ## The partition -/

theorem sortedSet_eq_nil {l : List ℕ} : sortedSet l = [] ↔ l = [] := by
  unfold sortedSet
  constructor
  · intro h
    have hperm := List.perm_insertionSort (· ≤ ·) l.dedup
    rw [h] at hperm
    exact (List.dedup_eq_nil _).mp hperm.symm.eq_nil
  · rintro rfl
    rfl

/-- **The ids of one group**: live and reserved ids share nothing and are together those below the next free one, and no
    reserved name is bound. -/
structure Partitioned (bindings : List LedgerBinding) (g : Group) : Prop where
  disjoint : ∀ b ∈ bindings, b.group = g.name → b.id ∉ g.reservedIds
  covered : ∀ id, (1 ≤ id ∧ id < g.nextFreeId) ↔ (∃ b ∈ bindings, b.group = g.name ∧ b.id = id) ∨ id ∈ g.reservedIds
  untombed : ∀ b ∈ bindings, b.group = g.name → b.field ∉ g.reservedNames

/-- **What the check of one group's ledger says** of the bindings the ledger knows. -/
theorem checkPartition_eq_nil {bindings : List LedgerBinding} {l : Ledger} (h : Noted bindings l) {filename : String}
    {g : Group} (hcheck : checkPartition (l.group g.name) filename g = []) : Partitioned bindings g := by
  unfold checkPartition at hcheck
  simp only [List.append_eq_nil_iff, report_eq_nil, not_not, ne_eq, sortedSet_eq_nil, List.filter_eq_nil_iff,
    decide_eq_true_eq, List.flatMap_eq_nil_iff] at hcheck
  obtain ⟨⟨⟨hoverlap, hmissing⟩, hstray⟩, htombed⟩ := hcheck
  have hlive : ∀ id, id ∈ (l.group g.name).map (fun entry => entry.2.id) ↔
      ∃ b ∈ bindings, b.group = g.name ∧ b.id = id := by
    intro id
    constructor
    · intro hid
      obtain ⟨⟨f, e⟩, hentry, rfl⟩ := List.mem_map.mp hid
      have hget := (Dict.mem_iff_get? (h.nodup g.name)).mp hentry
      obtain ⟨b, hb, hgroup, hfield⟩ := h.source _ _ _ hget
      obtain ⟨e', he', hknows⟩ := h.entry b hb
      rw [hgroup, hfield, hget, Option.some.injEq] at he'
      subst he'
      exact ⟨b, hb, hgroup, hknows.id.symm⟩
    · rintro ⟨b, hb, hgroup, rfl⟩
      obtain ⟨e, he, hknows⟩ := h.entry b hb
      rw [hgroup] at he
      exact List.mem_map.mpr ⟨(b.field, e), (Dict.mem_iff_get? (h.nodup g.name)).mpr he, hknows.id⟩
  have hexpected : ∀ id, id ∈ List.range' 1 (g.nextFreeId - 1) ↔ 1 ≤ id ∧ id < g.nextFreeId := by
    intro id
    rw [List.mem_range'_1]
    omega
  refine ⟨?_, ?_, ?_⟩
  · intro b hb hgroup
    exact hoverlap b.id ((hlive b.id).mpr ⟨b, hb, hgroup, rfl⟩)
  · intro id
    rw [← hexpected, ← hlive]
    constructor
    · intro hid
      have hmem := hmissing id hid
      by_contra hno
      rw [not_or] at hno
      exact hmem hno
    · intro hid
      exact hstray id (List.mem_append.mpr hid)
  · intro b hb hgroup
    obtain ⟨e, he, -⟩ := h.entry b hb
    rw [hgroup] at he
    exact htombed (b.field, e) ((Dict.mem_iff_get? (h.nodup g.name)).mpr he)

/-! ## Accepted specs -/

/-- The bindings `_check_ledgers` records: those of CAN signals, of bitfield bits, and of external fields. -/
def fieldBindings (spec : Spec) : List LedgerBinding := (ledgerSources spec).map Prod.snd

/-- The checks before `record` make a binding well-sourced. -/
theorem wellSourced_of_findings {spec : Spec} {source : List Finding × LedgerBinding} (h : source ∈ ledgerSources spec)
    (hfindings : source.1 = []) : WellSourced source.2 := by
  unfold ledgerSources at h
  rcases List.mem_append.mp h with h | h
  · obtain ⟨b, -, rfl⟩ := List.mem_map.mp h
    unfold TelemetryBinding.record at hfindings
    rw [List.append_eq_nil_iff, report_eq_nil, report_eq_nil, not_and, not_or] at hfindings
    refine ⟨?_, ?_⟩
    · intro hshared
      exact Bool.not_eq_true _ ▸ (hfindings.2 hshared).1
    · intro hplain
      have hplain' : b.telemetry.sharedSource = false := hplain
      show b.contract = none
      unfold TelemetryBinding.contract
      split
      · rw [hplain']
        rfl
      · rfl
  · obtain ⟨⟨filename, g, field⟩, -, rfl⟩ := List.mem_map.mp h
    exact ⟨fun hshared => absurd hshared (by simp [recordExternal]), fun _ => rfl⟩

theorem mem_groupNames {spec : Spec} {name : String} (h : name ∈ Dict.keys spec.groupsByName) :
    ∃ fg ∈ spec.groups, fg.2.name = name :=
  Dict.mem_keys_index.mp h

/-- **The ledgers of an accepted spec**: every binding passes, any two are consistent, every group is partitioned. -/
structure Recorded (spec : Spec) : Prop where
  sources : ∀ s ∈ ledgerSources spec, s.1 = [] ∧ Recordable (Dict.keys spec.groupsByName) s.2
  consistent : (fieldBindings spec).Pairwise Consistent
  partitioned : ∀ fg ∈ spec.groups, Partitioned (fieldBindings spec) fg.2

theorem Spec.Valid.recorded {spec : Spec} (h : spec.Valid) : Recorded spec := by
  have hreg := h.registries
  obtain ⟨-, -, -, hledgers⟩ := Spec.valid_iff.mp h
  simp only [checkLedgers, List.append_eq_nil_iff, List.flatMap_eq_nil_iff] at hledgers
  obtain ⟨hrecorded, hpartition⟩ := hledgers
  obtain ⟨hall, -, hpairwise, hnoted⟩ := recordAll_eq_nil (ledgerSources spec)
    (fun s hs => wellSourced_of_findings hs) [] {} Noted.nil (fun a ha => absurd ha List.not_mem_nil) hrecorded
  refine ⟨hall, hpairwise, ?_⟩
  rintro ⟨filename, g⟩ hfg
  have hget : Dict.get? spec.groupsByName g.name = some (filename, g) := Dict.get?_index_of_mem hreg.groups hfg
  have hmem := (Dict.mem_iff_get? (Dict.nodup_keys_index spec.groups)).mpr hget
  have hcheck := hpartition (g.name, filename, g) hmem
  rw [List.nil_append] at hnoted
  exact checkPartition_eq_nil hnoted hcheck

end Lhre.CanSpec
