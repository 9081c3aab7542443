import Lhre.Trackside.SessionRegistry
import Lhre.Theory.LastWriter
import Lhre.Theory.Steps

/-!
# `Trackside.Correctness.SessionSync` — no edit is lost, and all devices agree

As long as no more ids are in use than a registry has room for, nothing is ever cut: a registry is a map from ids to sessions, a
sync takes the join of two of them, and the store is the map of the last deliveries. The last edit of a session stays with the
device that made it, whatever the network does with the pushes and the answers. Once nothing is under way, two quiet syncs of
every device leave the same sessions everywhere.

## Contents
- **Registries.** `lookup`, `Known`, `lookup_saveSessionRegistry`, `lookup_upsertSession`, `lookup_patchSession`.
- **A sync.** `get?_adoptAll`, `lookup_reconcile`, `mem_toPush`.
- **The store.** `Stored`, `stored_upsert`, `serverView`, `lookup_listSessions`.
- **All records.** `Good`, `Fits`, `Fits.edit`, `Fits.setDevice`, `Fits.step`.
- **Edits.** `Net.edited`, `Edits`, `step_edit`, `Seen`, `Seen.step`, `Orderly`, `Newest`, `Newest.step`.
- **Quiet syncs.** `deliverAll`, `quietSync`, `view_quietSync`, `view_quietRound`.
- **Main results.** `last_edit_kept`, `devices_agree`, `last_edit_everywhere`.
-/

namespace Lhre.Trackside

variable {β : Type} {ids : Finset String} {list server : List (Session β)} {k : String}

/-! ## Registries -/

/-- The session of an id. -/
def lookup (list : List (Session β)) (k : String) : Option (Session β) := list.find? fun s => s.id = k

/-- A list that has no id twice, and only stamped sessions of known ids. -/
structure Known (ids : Finset String) (list : List (Session β)) : Prop where
  nodup : (list.map Session.id).Nodup
  mem : ∀ s ∈ list, s.id ∈ ids ∧ s.updatedAt.isSome

theorem known_nil : Known ids ([] : List (Session β)) := ⟨List.nodup_nil, by simp⟩

theorem lookup_eq_some (hn : (list.map Session.id).Nodup) {s : Session β} : lookup list k = some s ↔ s ∈ list ∧ s.id = k := by
  unfold lookup
  constructor
  · intro h
    exact ⟨List.mem_of_find?_eq_some h, by simpa using List.find?_some h⟩
  · rintro ⟨hs, rfl⟩
    cases hfind : list.find? fun t => t.id = s.id with
    | none => exact absurd hs fun hs => by simpa using List.find?_eq_none.mp hfind s hs
    | some t =>
        have ht : t.id = s.id := by simpa using List.find?_some hfind
        rw [List.inj_on_of_nodup_map hn (List.mem_of_find?_eq_some hfind) hs ht]

theorem lookup_id {s : Session β} (h : lookup list k = some s) : s.id = k := by simpa using List.find?_some h

theorem lookup_mem {s : Session β} (h : lookup list k = some s) : s ∈ list := List.mem_of_find?_eq_some h

theorem lookup_perm {list' : List (Session β)} (hn : (list.map Session.id).Nodup) (hp : list.Perm list') :
    lookup list' k = lookup list k := by
  apply Option.ext
  intro s
  rw [lookup_eq_some ((hp.map _).nodup_iff.mp hn), lookup_eq_some hn, hp.mem_iff]

/-- **No id twice leaves room** for all of them. -/
theorem Known.length_le (h : Known ids list) : list.length ≤ ids.card := by
  have hsub : (list.map Session.id).toFinset ⊆ ids := by
    intro k hk
    obtain ⟨s, hs, rfl⟩ := List.mem_map.mp (List.mem_toFinset.mp hk)
    exact (h.mem s hs).1
  have hcard := Finset.card_le_card hsub
  rwa [List.toFinset_card_of_nodup h.nodup, List.length_map] at hcard

theorem Known.perm {list' : List (Session β)} (h : Known ids list) (hp : list.Perm list') : Known ids list' :=
  ⟨(hp.map _).nodup_iff.mp h.nodup, fun s hs => h.mem s (hp.mem_iff.mpr hs)⟩

variable (hids : ids.card ≤ maxSessions)
include hids

theorem save_perm (h : Known ids list) : (saveSessionRegistry list).Perm list := by
  have hperm : (list.insertionSort fun a b => b.startedAt ≤ a.startedAt).Perm list := List.perm_insertionSort ..
  show (List.take maxSessions _).Perm list
  rw [List.take_of_length_le (by rw [hperm.length_eq]; exact h.length_le.trans hids)]
  exact hperm

theorem known_save (h : Known ids list) : Known ids (saveSessionRegistry list) := h.perm (save_perm hids h).symm

theorem lookup_save (h : Known ids list) : lookup (saveSessionRegistry list) k = lookup list k :=
  lookup_perm h.nodup (save_perm hids h).symm

omit hids in
theorem known_upsert_list (h : Known ids list) {info : Session β} (hinfo : info.id ∈ ids) (now : ℤ) :
    Known ids (list.filter (fun s => s.id ≠ info.id) ++ [{ info with updatedAt := some now }]) := by
  refine ⟨?_, fun s hs => ?_⟩
  · rw [List.map_append, List.nodup_append]
    refine ⟨(h.nodup.sublist (List.filter_sublist.map _)), by simp, ?_⟩
    rintro k hk k' hk' rfl
    obtain ⟨s, hs, rfl⟩ := List.mem_map.mp hk
    have hne := (List.mem_filter.mp hs).2
    simp at hk' hne
    exact hne hk'
  · rcases List.mem_append.mp hs with hs | hs
    · exact h.mem s (List.mem_filter.mp hs).1
    · rw [List.mem_singleton.mp hs]
      exact ⟨hinfo, rfl⟩

theorem known_upsertSession (h : Known ids list) {info : Session β} (hinfo : info.id ∈ ids) (now : ℤ) :
    Known ids (upsertSession info now list).1 :=
  known_save hids (known_upsert_list h hinfo now)

/-- **An upsert** leaves the new record under its id, and the others as they were. -/
theorem lookup_upsertSession (h : Known ids list) {info : Session β} (hinfo : info.id ∈ ids) (now : ℤ) :
    lookup (upsertSession info now list).1 k =
      if k = info.id then some { info with updatedAt := some now } else lookup list k := by
  show lookup (saveSessionRegistry _) k = _
  rw [lookup_save hids (known_upsert_list h hinfo now)]
  unfold lookup
  rw [List.find?_append]
  split
  case isTrue hk =>
    rw [List.find?_eq_none.mpr]
    · simp [hk]
    · intro s hs
      have hne := (List.mem_filter.mp hs).2
      simp at hne
      simp [hk, hne]
  case isFalse hk =>
    rw [List.find?_filter]
    have hsame : (list.find? fun s => decide (decide (s.id ≠ info.id) = true ∧ decide (s.id = k) = true)) =
        list.find? fun s => decide (s.id = k) := by
      congr 1
      funext s
      by_cases hs : s.id = k
      · simp [hs, hk]
      · simp [hs]
    rw [hsame]
    simp [Ne.symm hk]

omit hids

theorem changeFirst_spec {f : Session β → Session β} {list' : List (Session β)} {changed : Session β}
    (h : changeFirst k f list = some (list', changed)) :
    ∃ before s after, list = before ++ s :: after ∧ s.id = k ∧ changed = f s ∧ list' = before ++ f s :: after ∧
      lookup list k = some s := by
  induction list generalizing list' with
  | nil => cases h
  | cons s list ih =>
      unfold changeFirst at h
      split at h
      case isTrue hs =>
        obtain ⟨rfl, rfl⟩ := Prod.mk.inj (Option.some.inj h)
        exact ⟨[], s, list, rfl, hs, rfl, rfl, by simp [lookup, hs]⟩
      case isFalse hs =>
        obtain ⟨⟨tail, c⟩, htail, heq⟩ := Option.map_eq_some_iff.mp h
        obtain ⟨rfl, rfl⟩ := Prod.mk.inj heq
        obtain ⟨before, t, after, rfl, ht, rfl, rfl, hfind⟩ := ih htail
        refine ⟨s :: before, t, after, rfl, ht, rfl, rfl, ?_⟩
        unfold lookup at hfind ⊢
        rw [List.find?_cons_of_neg (by simpa using hs)]
        exact hfind

include hids in
/-- **A patch** changes the record of its id, and leaves the others as they were. -/
theorem lookup_patchSession (h : Known ids list) {patch : β → β} {now : ℤ} {edited : List (Session β) × Session β}
    {j : String} (hp : patchSession j patch now list = some edited) :
    Known ids edited.1 ∧ edited.2.id = j ∧ edited.2.updatedAt = some now ∧ j ∈ ids ∧
      ∀ k, lookup edited.1 k = if k = j then some edited.2 else lookup list k := by
  obtain ⟨⟨list', changed⟩, hc, rfl⟩ := Option.map_eq_some_iff.mp hp
  obtain ⟨before, s, after, rfl, hs, rfl, rfl, -⟩ := changeFirst_spec hc
  have hknown : Known ids (before ++ { s with rest := patch s.rest, updatedAt := some now } :: after) := by
    refine ⟨?_, fun t ht => ?_⟩
    · have hn := h.nodup
      simp only [List.map_append, List.map_cons] at hn ⊢
      exact hn
    · simp only [List.mem_append, List.mem_cons] at ht
      rcases ht with ht | rfl | ht
      · exact h.mem t (by simp [ht])
      · exact ⟨(h.mem s (by simp)).1, rfl⟩
      · exact h.mem t (by simp [ht])
  refine ⟨known_save hids hknown, hs, rfl, hs ▸ (h.mem s (by simp)).1, fun k => ?_⟩
  show lookup (saveSessionRegistry _) k = _
  rw [lookup_save hids hknown]
  split
  case isTrue hk =>
    apply (lookup_eq_some hknown.nodup).mpr
    exact ⟨by simp, hs.trans hk.symm⟩
  case isFalse hk =>
    have hne : s.id ≠ k := fun he => hk (he.symm.trans hs)
    unfold lookup
    rw [List.find?_append, List.find?_append, List.find?_cons_of_neg (by simpa using hne),
      List.find?_cons_of_neg (by simpa using hne)]

/-! ## A sync -/

theorem get?_index_lookup (h : Known ids list) (k : String) : (Dict.index Session.id list).get? k = lookup list k := by
  apply Option.ext
  intro s
  constructor
  · intro hs
    obtain ⟨hmem, hkey⟩ := Dict.of_get?_index hs
    exact (lookup_eq_some h.nodup).mpr ⟨hmem, hkey⟩
  · intro hs
    obtain ⟨hmem, rfl⟩ := (lookup_eq_some h.nodup).mp hs
    exact Dict.get?_index_of_mem h.nodup hmem

/-- A dictionary that has every session under its id. -/
def Keyed (byId : Dict String (Session β)) : Prop := ∀ k s, byId.get? k = some s → s.id = k

theorem adopt_get? (byId : Dict String (Session β)) (srv : Session β) (k : String) :
    (adopt byId srv).get? k =
      if k = srv.id then LastWriter.join Session.rank (some srv) (byId.get? k) else byId.get? k := by
  unfold adopt
  by_cases hk : k = srv.id
  · rw [if_pos hk, ← hk]
    cases hloc : byId.get? k with
    | none => exact Dict.get?_set_self ..
    | some loc =>
        show Dict.get? (if loc.rank ≤ srv.rank then byId.set k srv else byId) k =
          if srv.rank < loc.rank then some loc else some srv
        by_cases hrank : loc.rank ≤ srv.rank
        · rw [if_pos hrank, if_neg hrank.not_gt, Dict.get?_set_self]
        · rw [if_neg hrank, if_pos (not_le.mp hrank), hloc]
  · rw [if_neg hk]
    cases byId.get? srv.id with
    | none => exact Dict.get?_set_of_ne hk ..
    | some loc =>
        show Dict.get? (if loc.rank ≤ srv.rank then byId.set srv.id srv else byId) k = _
        split
        · exact Dict.get?_set_of_ne hk ..
        · rfl

theorem get?_adoptAll (hn : (server.map Session.id).Nodup) (byId : Dict String (Session β)) (k : String) :
    (server.foldl adopt byId).get? k = LastWriter.join Session.rank (lookup server k) (byId.get? k) := by
  induction server generalizing byId with
  | nil => rfl
  | cons srv server ih =>
      have hnodup := List.nodup_cons.mp hn
      rw [List.foldl_cons, ih hnodup.2, adopt_get?]
      unfold lookup
      by_cases hk : k = srv.id
      · rw [if_pos hk, List.find?_cons_of_pos (by simp [hk])]
        have hnone : server.find? (fun s => decide (s.id = k)) = none := by
          rw [List.find?_eq_none]
          intro s hs hsk
          apply hnodup.1
          rw [← hk, ← of_decide_eq_true hsk]
          exact List.mem_map_of_mem hs
        rw [hnone]
        rfl
      · rw [if_neg hk, List.find?_cons_of_neg (by simpa using Ne.symm hk)]

theorem nodup_adoptAll {byId : Dict String (Session β)} (h : byId.keys.Nodup) : (server.foldl adopt byId).keys.Nodup := by
  induction server generalizing byId with
  | nil => exact h
  | cons srv server ih =>
      apply ih
      unfold adopt
      split
      · exact Dict.nodup_keys_set h _ _
      · split
        · exact Dict.nodup_keys_set h _ _
        · exact h

/-- The values of a dictionary that has each under its id. -/
theorem lookup_values {byId : Dict String (Session β)} (h : byId.keys.Nodup) (hkeyed : Keyed byId) :
    ((byId.map Prod.snd).map Session.id).Nodup ∧ ∀ k, lookup (byId.map Prod.snd) k = byId.get? k := by
  have hsame : (byId.map Prod.snd).map Session.id = byId.keys := by
    rw [List.map_map]
    apply List.map_congr_left
    rintro ⟨k, s⟩ hs
    exact hkeyed k s ((Dict.mem_iff_get? h).mp hs)
  have hn : ((byId.map Prod.snd).map Session.id).Nodup := hsame ▸ h
  refine ⟨hn, fun k => ?_⟩
  apply Option.ext
  intro s
  rw [lookup_eq_some hn]
  constructor
  · rintro ⟨hs, rfl⟩
    obtain ⟨⟨j, t⟩, hmem, rfl⟩ := List.mem_map.mp hs
    have hget := (Dict.mem_iff_get? h).mp hmem
    rwa [hkeyed j t hget]
  · intro hs
    exact ⟨List.mem_map.mpr ⟨(k, s), (Dict.mem_iff_get? h).mpr hs, rfl⟩, hkeyed k s hs⟩

/-- **A sync takes the join** of what the server has and what the device had. -/
theorem lookup_reconcile (hloc : Known ids list) (hserver : Known ids server) :
    Known ids (reconcile list server).1 ∧
      ∀ k, lookup (reconcile list server).1 k = LastWriter.join Session.rank (lookup server k) (lookup list k) := by
  have hget : ∀ k, (server.foldl adopt (Dict.index Session.id list)).get? k =
      LastWriter.join Session.rank (lookup server k) (lookup list k) := by
    intro k
    rw [get?_adoptAll hserver.nodup, get?_index_lookup hloc]
  have hfound : ∀ {k s}, LastWriter.join Session.rank (lookup server k) (lookup list k) = some s →
      s.id = k ∧ s.id ∈ ids ∧ s.updatedAt.isSome := by
    intro k s hs
    rcases LastWriter.join_mem hs with hs | hs
    · exact ⟨lookup_id hs, hserver.mem s (lookup_mem hs)⟩
    · exact ⟨lookup_id hs, hloc.mem s (lookup_mem hs)⟩
  have hkeyed : Keyed (server.foldl adopt (Dict.index Session.id list)) := by
    intro k s hs
    rw [hget] at hs
    exact (hfound hs).1
  obtain ⟨hn, hvalues⟩ := lookup_values (nodup_adoptAll (Dict.nodup_keys_index list)) hkeyed
  refine ⟨⟨hn, fun s hs => ?_⟩, fun k => (hvalues k).trans (hget k)⟩
  have hs' := (lookup_eq_some hn).mpr ⟨hs, rfl⟩
  rw [hvalues, hget] at hs'
  exact (hfound hs').2

/-- What a sync pushes is what the device was ahead with. -/
theorem mem_toPush {s : Session β} : s ∈ (reconcile list server).2 ↔
    s ∈ list ∧ ∀ srv, lookup server s.id = some srv → srv.rank < s.rank := by
  show s ∈ list.filter (ahead server) ↔ _
  rw [List.mem_filter]
  apply and_congr_right
  intro _
  unfold ahead lookup
  cases server.find? fun t => t.id = s.id with
  | none => simp
  | some srv => simp

/-! ## The store -/

/-- The rows of sessions of known ids, each under its own. -/
structure Stored (ids : Finset String) (rows : Dict String (Row β)) : Prop where
  nodup : rows.keys.Nodup
  mem : ∀ row ∈ rows, row.2.data.id = row.1 ∧ row.1 ∈ ids ∧ row.2.data.updatedAt.isSome

/-- What the server has under an id. -/
def serverView (rows : Dict String (Row β)) (k : String) : Option (Session β) := (rows.get? k).map Row.data

theorem Stored.length_le {rows : Dict String (Row β)} (h : Stored ids rows) : rows.length ≤ ids.card := by
  have hsub : rows.keys.toFinset ⊆ ids := by
    intro k hk
    obtain ⟨row, hrow, rfl⟩ := List.mem_map.mp (List.mem_toFinset.mp hk)
    exact (h.mem row hrow).2.1
  have hcard := Finset.card_le_card hsub
  rwa [List.toFinset_card_of_nodup h.nodup, Dict.keys, List.length_map] at hcard

/-- **The store is the map of the last deliveries**: nothing is cut while there is room. -/
theorem stored_upsert (hids : ids.card ≤ maxRows) {rows : Dict String (Row β)} (h : Stored ids rows) {data : Session β}
    (hid : data.id ∈ ids) (hstamp : data.updatedAt.isSome) (now : ℤ) :
    Stored ids (SessionStore.upsert rows data now) ∧
      ∀ k, serverView (SessionStore.upsert rows data now) k = if k = data.id then some data else serverView rows k := by
  have hset : Stored ids (rows.set data.id { updatedMs := now, data := data }) := by
    refine ⟨Dict.nodup_keys_set h.nodup _ _, ?_⟩
    rintro ⟨k, row⟩ hrow
    have hget := (Dict.mem_iff_get? (Dict.nodup_keys_set h.nodup _ _)).mp hrow
    rw [Dict.get?_set] at hget
    split at hget
    case isTrue hk =>
      rw [← Option.some.inj hget, hk]
      exact ⟨rfl, hid, hstamp⟩
    case isFalse => exact h.mem (k, row) ((Dict.mem_iff_get? h.nodup).mpr hget)
  have hkept : SessionStore.upsert rows data now = rows.set data.id { updatedMs := now, data := data } := by
    have hperm : (byUpdate (rows.set data.id { updatedMs := now, data := data })).Perm
        (rows.set data.id { updatedMs := now, data := data }) := List.perm_insertionSort ..
    apply List.filter_eq_self.mpr
    intro row hrow
    rw [List.take_of_length_le (by rw [hperm.length_eq]; exact hset.length_le.trans hids), decide_eq_true_iff]
    exact List.mem_map_of_mem (hperm.mem_iff.mpr hrow)
  rw [hkept]
  refine ⟨hset, fun k => ?_⟩
  unfold serverView
  rw [Dict.get?_set]
  split <;> rfl

/-- **The answer of the server** is what it has. -/
theorem lookup_listSessions {rows : Dict String (Row β)} (h : Stored ids rows) :
    Known ids (listSessions rows) ∧ ∀ k, lookup (listSessions rows) k = serverView rows k := by
  have hperm : (byUpdate rows).Perm rows := List.perm_insertionSort ..
  have hrow : ∀ row ∈ byUpdate rows, row.2.data.id = row.1 ∧ row.1 ∈ ids ∧ row.2.data.updatedAt.isSome :=
    fun row hr => h.mem row (hperm.mem_iff.mp hr)
  have hlist : Known ids (SessionStore.list rows) := by
    refine ⟨?_, fun s hs => ?_⟩
    · have hsame : (SessionStore.list rows).map Session.id = (byUpdate rows).map Prod.fst := by
        unfold SessionStore.list
        rw [List.map_map]
        exact List.map_congr_left fun row hr => (hrow row hr).1
      rw [hsame]
      exact ((hperm.map Prod.fst).nodup_iff).mpr h.nodup
    · obtain ⟨row, hr, rfl⟩ := List.mem_map.mp hs
      obtain ⟨hid, hmem, hstamp⟩ := hrow row hr
      exact ⟨hid ▸ hmem, hstamp⟩
  have hkeyed : Keyed (Dict.index Session.id (SessionStore.list rows)) := fun k s hs => (Dict.of_get?_index hs).2
  obtain ⟨hn, hvalues⟩ := lookup_values (Dict.nodup_keys_index _) hkeyed
  refine ⟨⟨hn, fun s hs => ?_⟩, fun k => ?_⟩
  · have hs' := (lookup_eq_some hn).mpr ⟨hs, rfl⟩
    rw [hvalues] at hs'
    exact hlist.mem s (Dict.of_get?_index hs').1
  · show lookup ((Dict.index Session.id (SessionStore.list rows)).map Prod.snd) k = _
    rw [hvalues, get?_index_lookup hlist]
    apply Option.ext
    intro s
    rw [lookup_eq_some hlist.nodup]
    unfold serverView
    rw [Option.map_eq_some_iff]
    constructor
    · rintro ⟨hs, rfl⟩
      obtain ⟨row, hr, rfl⟩ := List.mem_map.mp hs
      refine ⟨row.2, ?_, rfl⟩
      rw [← Dict.mem_iff_get? h.nodup, (hrow row hr).1]
      exact hperm.mem_iff.mp hr
    · rintro ⟨row, hget, rfl⟩
      have hmem := (Dict.mem_iff_get? h.nodup).mpr hget
      exact ⟨List.mem_map.mpr ⟨(k, row), hperm.mem_iff.mpr hmem, rfl⟩, (h.mem _ hmem).1⟩

section Devices

variable {δ β : Type} [DecidableEq δ] {ids : Finset String} {P : Session β → Prop}

/-! ## All records -/

/-- A list of known ids, each record of which has a property. -/
structure Good (ids : Finset String) (P : Session β → Prop) (list : List (Session β)) : Prop where
  known : Known ids list
  all : ∀ x ∈ list, P x

/-- What holds of every record on a device, in an answer, on the server or under way. -/
structure Fits (ids : Finset String) (P : Session β → Prop) (s : Net δ β) : Prop where
  registry : ∀ d, Good ids P (s.device d).registry
  pending : ∀ d, ∀ sync ∈ (s.device d).pending, Good ids P sync.1 ∧ ∀ server, sync.2 = some server → Good ids P server
  stored : Stored ids s.server
  server : ∀ k x, serverView s.server k = some x → P x
  pushes : ∀ x ∈ s.pushes, x.id ∈ ids ∧ x.updatedAt.isSome ∧ P x

omit [DecidableEq δ] in
theorem fits_empty : Fits ids P (Net.empty : Net δ β) where
  registry _ := ⟨known_nil, by simp [Net.empty]⟩
  pending _ sync hsync := by simp [Net.empty] at hsync
  stored := ⟨Dict.nodup_keys_nil, by simp [Net.empty]⟩
  server k x hx := by simp [Net.empty, serverView] at hx
  pushes x hx := by simp [Net.empty] at hx

/-- The record that an event makes, and the device. -/
def Net.edited (s : Net δ β) : Event δ β → Option (δ × Session β)
  | .upsert d info now => some (d, (upsertSession info now (s.device d).registry).2)
  | .patch d id patch now => (patchSession id patch now (s.device d).registry).map fun edited => (d, edited.2)
  | _ => none

/-- An event that brings no new id. -/
def Event.Within (ids : Finset String) : Event δ β → Prop
  | .upsert _ info _ => info.id ∈ ids
  | _ => True

/-- What an edit makes of a registry. -/
structure Edits (ids : Finset String) (registry : List (Session β)) (edited : List (Session β) × Session β) : Prop where
  known : Known ids edited.1
  mem : edited.2.id ∈ ids
  stamped : edited.2.updatedAt.isSome
  lookup : ∀ k, lookup edited.1 k = if k = edited.2.id then some edited.2 else lookup registry k

theorem edits_upsert (hids : ids.card ≤ maxSessions) {registry : List (Session β)} (h : Known ids registry)
    {info : Session β} (hinfo : info.id ∈ ids) (now : ℤ) : Edits ids registry (upsertSession info now registry) :=
  ⟨known_upsertSession hids h hinfo now, hinfo, rfl, fun _ => lookup_upsertSession hids h hinfo now⟩

theorem edits_patch (hids : ids.card ≤ maxSessions) {registry : List (Session β)} (h : Known ids registry)
    {patch : β → β} {now : ℤ} {j : String} {edited : List (Session β) × Session β}
    (hp : patchSession j patch now registry = some edited) : Edits ids registry edited := by
  obtain ⟨hknown, hid, hstamp, hj, hlookup⟩ := lookup_patchSession hids h hp
  refine ⟨hknown, hid ▸ hj, by simp [hstamp], fun k => ?_⟩
  rw [hlookup, hid]

/-- **What an event does**: it is an edit of one device, or it makes no record. -/
theorem step_edit (hids : ids.card ≤ maxSessions) {s : Net δ β} (h : Fits ids P s) {e : Event δ β} (he : e.Within ids)
    {d : δ} {r : Session β} (hedit : s.edited e = some (d, r)) :
    ∃ edited, Edits ids (s.device d).registry edited ∧ edited.2 = r ∧ s.step e = s.edit d edited := by
  cases e with
  | upsert d' info now =>
      obtain ⟨rfl, rfl⟩ := Prod.mk.inj (Option.some.inj hedit)
      exact ⟨_, edits_upsert hids (h.registry d').known he now, rfl, rfl⟩
  | patch d' id patch now =>
      obtain ⟨edited, hp, heq⟩ := Option.map_eq_some_iff.mp hedit
      obtain ⟨rfl, rfl⟩ := Prod.mk.inj heq
      refine ⟨edited, edits_patch hids (h.registry d').known hp, rfl, ?_⟩
      simp only [Net.step, hp]
  | syncStart d' => cases hedit
  | answer d' i reached => cases hedit
  | syncFinish d' i now => cases hedit
  | deliver i now => cases hedit
  | drop i => cases hedit

theorem Fits.edit {s : Net δ β} (h : Fits ids P s) {d : δ} {edited : List (Session β) × Session β}
    (hedit : Edits ids (s.device d).registry edited) (hP : P edited.2) : Fits ids P (s.edit d edited) where
  registry d' := by
    show Good ids P (Function.update s.device d _ d').registry
    by_cases hd : d' = d
    · rw [hd, Function.update_self]
      refine ⟨hedit.known, fun x hx => ?_⟩
      have hfound := (lookup_eq_some hedit.known.nodup).mpr ⟨hx, rfl⟩
      rw [hedit.lookup] at hfound
      split at hfound
      · rw [← Option.some.inj hfound]
        exact hP
      · exact (h.registry d).all x (lookup_mem hfound)
    · rw [Function.update_of_ne hd]
      exact h.registry d'
  pending d' sync hsync := by
    apply h.pending d' sync
    by_cases hd : d' = d
    · simpa [Net.edit, Net.setDevice, hd] using hsync
    · simpa [Net.edit, Net.setDevice, hd] using hsync
  stored := h.stored
  server := h.server
  pushes x hx := by
    rcases List.mem_append.mp hx with hx | hx
    · exact h.pushes x hx
    · rw [List.mem_singleton.mp hx]
      exact ⟨hedit.mem, hedit.stamped, hP⟩

/-- A state in which one device has other contents. -/
theorem Fits.setDevice {s : Net δ β} (h : Fits ids P s) {d : δ} {dev : Device β} (hreg : Good ids P dev.registry)
    (hpending : ∀ sync ∈ dev.pending, Good ids P sync.1 ∧ ∀ server, sync.2 = some server → Good ids P server) :
    Fits ids P (s.setDevice d dev) where
  registry d' := by
    show Good ids P (Function.update s.device d dev d').registry
    by_cases hd : d' = d
    · rw [hd, Function.update_self]
      exact hreg
    · rw [Function.update_of_ne hd]
      exact h.registry d'
  pending d' sync hsync := by
    by_cases hd : d' = d
    · apply hpending
      simpa [Net.setDevice, hd] using hsync
    · apply h.pending d' sync
      simpa [Net.setDevice, hd] using hsync
  stored := h.stored
  server := h.server
  pushes := h.pushes

theorem pushBody_eq {x : Session β} (h : x.updatedAt.isSome) (now : ℤ) : pushBody x now = x := by
  obtain ⟨t, ht⟩ := Option.isSome_iff_exists.mp h
  cases x
  simp_all [pushBody]

omit [DecidableEq δ] in
theorem good_listSessions {s : Net δ β} (h : Fits ids P s) : Good ids P (listSessions s.server) := by
  obtain ⟨hknown, hlookup⟩ := lookup_listSessions h.stored
  refine ⟨hknown, fun x hx => ?_⟩
  have hfound := (lookup_eq_some hknown.nodup).mpr ⟨hx, rfl⟩
  rw [hlookup] at hfound
  exact h.server _ x hfound

theorem good_reconcile {loc server : List (Session β)} (hloc : Good ids P loc) (hserver : Good ids P server) :
    Good ids P (reconcile loc server).1 := by
  obtain ⟨hknown, hlookup⟩ := lookup_reconcile hloc.known hserver.known
  refine ⟨hknown, fun x hx => ?_⟩
  have hfound := (lookup_eq_some hknown.nodup).mpr ⟨hx, rfl⟩
  rw [hlookup] at hfound
  rcases LastWriter.join_mem hfound with hx | hx
  · exact hserver.all x (lookup_mem hx)
  · exact hloc.all x (lookup_mem hx)

theorem good_save (hids : ids.card ≤ maxSessions) {list : List (Session β)} (h : Good ids P list) :
    Good ids P (saveSessionRegistry list) :=
  ⟨known_save hids h.known, fun x hx => h.all x ((save_perm hids h.known).mem_iff.mp hx)⟩

/-- **One event**: where the record it makes has the property, all records have it. -/
theorem Fits.step (hids : ids.card ≤ maxSessions) {s : Net δ β} (h : Fits ids P s) {e : Event δ β} (he : e.Within ids)
    (hP : ∀ d r, s.edited e = some (d, r) → P r) : Fits ids P (s.step e) := by
  have hrows : ids.card ≤ maxRows := hids.trans (by decide)
  cases hedit : s.edited e with
  | some edit =>
      obtain ⟨edited, hedits, hr, hstep⟩ := step_edit hids h he hedit
      rw [hstep]
      exact h.edit hedits (hr ▸ hP edit.1 edit.2 hedit)
  | none =>
      cases e with
      | upsert d info now => cases hedit
      | patch d id patch now =>
          have hnone : patchSession id patch now (s.device d).registry = none := Option.map_eq_none_iff.mp hedit
          simp only [Net.step, hnone]
          exact h
      | syncStart d =>
          refine h.setDevice (h.registry d) fun sync hsync => ?_
          rcases List.mem_append.mp hsync with hsync | hsync
          · exact h.pending d sync hsync
          · rw [List.mem_singleton.mp hsync]
            exact ⟨h.registry d, by simp⟩
      | answer d i reached =>
          refine h.setDevice (h.registry d) fun sync hsync => ?_
          have hanswer : Good ids P (if reached then listSessions s.server else []) := by
            split
            · exact good_listSessions h
            · exact ⟨known_nil, by simp⟩
          obtain ⟨j, hj⟩ := List.getElem?_of_mem hsync
          rw [List.getElem?_modify] at hj
          obtain ⟨old, hold, rfl⟩ := Option.map_eq_some_iff.mp hj
          have hpend := h.pending d old (List.mem_of_getElem? hold)
          split
          · refine ⟨hpend.1, fun server hserver => ?_⟩
            rw [← Option.some.inj hserver]
            exact hanswer
          · exact hpend
      | syncFinish d i now =>
          simp only [Net.step]
          split
          case h_2 => exact h
          case h_1 loc server hsync =>
            obtain ⟨hloc, hserver⟩ := h.pending d _ (List.mem_of_getElem? hsync)
            have hserver := hserver server rfl
            have hset : Fits ids P (s.setDevice d
                { registry := saveSessionRegistry (reconcile loc server).1, pending := (s.device d).pending.eraseIdx i }) :=
              h.setDevice (good_save hids (good_reconcile hloc hserver)) fun sync hsync =>
                h.pending d sync (List.mem_of_mem_eraseIdx hsync)
            refine ⟨hset.registry, hset.pending, h.stored, h.server, fun x hx => ?_⟩
            rcases List.mem_append.mp hx with hx | hx
            · exact h.pushes x hx
            · obtain ⟨y, hy, rfl⟩ := List.mem_map.mp hx
              have hmem := (mem_toPush.mp hy).1
              have hy' := hloc.known.mem y hmem
              rw [pushBody_eq hy'.2]
              exact ⟨hy'.1, hy'.2, hloc.all y hmem⟩
      | deliver i now =>
          simp only [Net.step]
          split
          case h_1 => exact h
          case h_2 body hbody =>
            obtain ⟨hid, hstamp, hPbody⟩ := h.pushes body (List.mem_of_getElem? hbody)
            obtain ⟨hstored, hview⟩ := stored_upsert hrows h.stored hid hstamp now
            refine ⟨h.registry, h.pending, hstored, fun k x hx => ?_, h.pushes⟩
            rw [hview] at hx
            split at hx
            · rw [← Option.some.inj hx]
              exact hPbody
            · exact h.server k x hx
      | drop i =>
          exact ⟨h.registry, h.pending, h.stored, h.server, fun x hx => h.pushes x (List.mem_of_mem_eraseIdx hx)⟩

/-! ## Edits -/

/-- A state with what was seen of it: the last edit of each id with its device, and the time of the last edit. -/
structure Seen (δ β : Type) where
  net : Net δ β
  last : String → Option (δ × Session β)
  clock : ℤ

/-- One event. -/
def Seen.step (h : Seen δ β) (e : Event δ β) : Seen δ β :=
  match h.net.edited e with
  | none => { h with net := h.net.step e }
  | some (d, r) => { net := h.net.step e, last := Function.update h.last r.id (some (d, r)), clock := r.rank }

/-- Nobody has edited anything. -/
def Seen.empty : Seen δ β := { net := Net.empty, last := fun _ => none, clock := 0 }

/-- An event that brings no id beyond the known ones; an edit is later than those before it, and none of the syncs of its device is
waiting for the server. -/
def Orderly (ids : Finset String) (h : Seen δ β) (e : Event δ β) : Prop :=
  e.Within ids ∧ ∀ d r, h.net.edited e = some (d, r) → h.clock < r.rank ∧ (h.net.device d).pending = []

instance : (e : Event δ β) → Decidable (e.Within ids)
  | .upsert _ info _ => inferInstanceAs (Decidable (info.id ∈ ids))
  | .patch .. => .isTrue trivial
  | .syncStart _ => .isTrue trivial
  | .answer .. => .isTrue trivial
  | .syncFinish .. => .isTrue trivial
  | .deliver .. => .isTrue trivial
  | .drop _ => .isTrue trivial

instance (h : Seen δ β) (e : Event δ β) : Decidable (Orderly ids h e) :=
  match hedit : h.net.edited e with
  | none => decidable_of_iff (e.Within ids) (by simp [Orderly, hedit])
  | some (d, r) =>
      decidable_of_iff (e.Within ids ∧ h.clock < r.rank ∧ (h.net.device d).pending.isEmpty) (by simp [Orderly, hedit])

/-- A record that is the last edit of its id, or older than it. -/
def Dated (last : String → Option (δ × Session β)) (x : Session β) : Prop :=
  ∃ d r, last x.id = some (d, r) ∧ (x.rank < r.rank ∨ x = r)

/-- **The last edit of each id** is with its device, and in what its waiting syncs loaded; every other record of the id is older. -/
structure Newest (ids : Finset String) (h : Seen δ β) : Prop where
  fits : Fits ids (Dated h.last) h.net
  past : ∀ k d r, h.last k = some (d, r) → r.id = k ∧ r.rank ≤ h.clock
  kept : ∀ k d r, h.last k = some (d, r) → lookup (h.net.device d).registry k = some r ∧
    ∀ sync ∈ (h.net.device d).pending, lookup sync.1 k = some r

omit [DecidableEq δ] in
theorem newest_empty : Newest ids (Seen.empty : Seen δ β) where
  fits := fits_empty
  past k d r h := by cases h
  kept k d r h := by cases h

omit [DecidableEq δ] in
/-- A device that has the last edit keeps it in a sync. -/
theorem join_dated {last : String → Option (δ × Session β)} {k : String} {d : δ} {r : Session β}
    (hlast : last k = some (d, r)) {server : List (Session β)} (hserver : ∀ x ∈ server, Dated last x) :
    LastWriter.join Session.rank (lookup server k) (some r) = some r := by
  cases hfound : lookup server k with
  | none => rfl
  | some x =>
      obtain ⟨d', r', hr', hx⟩ := hserver x (lookup_mem hfound)
      rw [lookup_id hfound, hlast] at hr'
      obtain ⟨-, rfl⟩ := Prod.mk.inj (Option.some.inj hr')
      rcases hx with hlt | rfl
      · exact if_pos hlt
      · exact if_neg (lt_irrefl _)

omit [DecidableEq δ] in
theorem dated_update {last : String → Option (δ × Session β)} {d : δ} {r : Session β} {clock : ℤ} (hclock : clock < r.rank)
    (hpast : ∀ k d r, last k = some (d, r) → r.id = k ∧ r.rank ≤ clock) {x : Session β} (hx : Dated last x) :
    Dated (Function.update last r.id (some (d, r))) x := by
  obtain ⟨d', r', hr', hx⟩ := hx
  by_cases hid : x.id = r.id
  · refine ⟨d, r, by rw [hid, Function.update_self], Or.inl ?_⟩
    have hle := (hpast _ _ _ hr').2
    rcases hx with hlt | rfl
    · exact hlt.trans_le (hle.trans hclock.le)
    · exact hle.trans_lt hclock
  · exact ⟨d', r', by rw [Function.update_of_ne hid]; exact hr', hx⟩

omit [DecidableEq δ] in
theorem Fits.mono {Q : Session β → Prop} (hPQ : ∀ x, P x → Q x) {s : Net δ β} (h : Fits ids P s) : Fits ids Q s where
  registry d := ⟨(h.registry d).known, fun x hx => hPQ x ((h.registry d).all x hx)⟩
  pending d sync hsync := by
    obtain ⟨hloc, hserver⟩ := h.pending d sync hsync
    exact ⟨⟨hloc.known, fun x hx => hPQ x (hloc.all x hx)⟩, fun server hs =>
      ⟨(hserver server hs).known, fun x hx => hPQ x ((hserver server hs).all x hx)⟩⟩
  stored := h.stored
  server k x hx := hPQ x (h.server k x hx)
  pushes x hx := ⟨(h.pushes x hx).1, (h.pushes x hx).2.1, hPQ x (h.pushes x hx).2.2⟩

/-- What an event that makes no record leaves on a device: the last edits stay where they are. -/
theorem kept_frame (hids : ids.card ≤ maxSessions) {h : Seen δ β} (hn : Newest ids h) {e : Event δ β}
    (hedit : h.net.edited e = none) {k : String} {d : δ} {r : Session β} (hlast : h.last k = some (d, r)) :
    lookup ((h.net.step e).device d).registry k = some r ∧
      ∀ sync ∈ ((h.net.step e).device d).pending, lookup sync.1 k = some r := by
  obtain ⟨hreg, hpend⟩ := hn.kept k d r hlast
  cases e with
  | upsert d' info now => cases hedit
  | patch d' id patch now =>
      have hnone : patchSession id patch now (h.net.device d').registry = none := Option.map_eq_none_iff.mp hedit
      simp only [Net.step, hnone]
      exact ⟨hreg, hpend⟩
  | syncStart d' =>
      by_cases hd : d = d'
      · subst hd
        simp only [Net.step, Net.setDevice, Function.update_self]
        refine ⟨hreg, fun sync hsync => ?_⟩
        rcases List.mem_append.mp hsync with hsync | hsync
        · exact hpend sync hsync
        · rw [List.mem_singleton.mp hsync]
          exact hreg
      · simp only [Net.step, Net.setDevice, Function.update_of_ne hd]
        exact ⟨hreg, hpend⟩
  | answer d' i reached =>
      by_cases hd : d = d'
      · subst hd
        simp only [Net.step, Net.setDevice, Function.update_self]
        refine ⟨hreg, fun sync hsync => ?_⟩
        obtain ⟨j, hj⟩ := List.getElem?_of_mem hsync
        rw [List.getElem?_modify] at hj
        obtain ⟨old, hold, rfl⟩ := Option.map_eq_some_iff.mp hj
        have hsame := hpend old (List.mem_of_getElem? hold)
        split
        · exact hsame
        · exact hsame
      · simp only [Net.step, Net.setDevice, Function.update_of_ne hd]
        exact ⟨hreg, hpend⟩
  | syncFinish d' i now =>
      simp only [Net.step]
      split
      case h_2 => exact ⟨hreg, hpend⟩
      case h_1 loc server hsync =>
        by_cases hd : d = d'
        · subst hd
          have hmem := List.mem_of_getElem? hsync
          obtain ⟨hloc, hserver⟩ := hn.fits.pending d _ hmem
          have hserver := hserver server rfl
          simp only [Net.setDevice, Function.update_self]
          refine ⟨?_, fun sync hs => hpend sync (List.mem_of_mem_eraseIdx hs)⟩
          rw [lookup_save hids (good_reconcile hloc hserver).known, (lookup_reconcile hloc.known hserver.known).2,
            hpend _ hmem]
          exact join_dated hlast hserver.all
        · simp only [Net.setDevice, Function.update_of_ne hd]
          exact ⟨hreg, hpend⟩
  | deliver i now =>
      simp only [Net.step]
      split <;> exact ⟨hreg, hpend⟩
  | drop i => exact ⟨hreg, hpend⟩

/-- **One event.** -/
theorem Newest.step (hids : ids.card ≤ maxSessions) {h : Seen δ β} (hn : Newest ids h) {e : Event δ β}
    (hok : Orderly ids h e) : Newest ids (h.step e) := by
  unfold Seen.step
  cases hedit : h.net.edited e with
  | none =>
      refine ⟨hn.fits.step hids hok.1 fun d r hr => ?_, hn.past, fun k d r hlast => kept_frame hids hn hedit hlast⟩
      rw [hedit] at hr
      cases hr
  | some edit =>
      obtain ⟨d, r⟩ := edit
      obtain ⟨hclock, hidle⟩ := hok.2 d r hedit
      have hfits : Fits ids (Dated (Function.update h.last r.id (some (d, r)))) h.net :=
        hn.fits.mono fun x hx => dated_update hclock hn.past hx
      refine ⟨hfits.step hids hok.1 fun d' r' hr' => ?_, fun k d' r' hlast => ?_, fun k d' r' hlast => ?_⟩
      · rw [hedit] at hr'
        obtain ⟨rfl, rfl⟩ := Prod.mk.inj (Option.some.inj hr')
        exact ⟨d, r, Function.update_self .., Or.inr rfl⟩
      · change Function.update h.last r.id (some (d, r)) k = some (d', r') at hlast
        show r'.id = k ∧ r'.rank ≤ r.rank
        by_cases hk : k = r.id
        · subst hk
          rw [Function.update_self] at hlast
          obtain ⟨rfl, rfl⟩ := Prod.mk.inj (Option.some.inj hlast)
          exact ⟨rfl, le_rfl⟩
        · rw [Function.update_of_ne hk] at hlast
          obtain ⟨hid, hle⟩ := hn.past k d' r' hlast
          exact ⟨hid, hle.trans hclock.le⟩
      · change Function.update h.last r.id (some (d, r)) k = some (d', r') at hlast
        obtain ⟨edited, hedits, hr, hstep⟩ := step_edit hids hn.fits hok.1 hedit
        show lookup ((h.net.step e).device d').registry k = some r' ∧ ∀ sync ∈ ((h.net.step e).device d').pending, _
        rw [hstep]
        by_cases hk : k = r.id
        · subst hk
          rw [Function.update_self] at hlast
          obtain ⟨rfl, rfl⟩ := Prod.mk.inj (Option.some.inj hlast)
          simp only [Net.edit, Net.setDevice, Function.update_self]
          refine ⟨?_, fun sync hsync => ?_⟩
          · rw [hedits.lookup, hr, if_pos rfl]
          · rw [hidle] at hsync
            cases hsync
        · rw [Function.update_of_ne hk] at hlast
          obtain ⟨hreg, hpend⟩ := hn.kept k d' r' hlast
          by_cases hd : d' = d
          · subst hd
            simp only [Net.edit, Net.setDevice, Function.update_self]
            refine ⟨?_, hpend⟩
            rw [hedits.lookup, hr, if_neg hk]
            exact hreg
          · simp only [Net.edit, Net.setDevice, Function.update_of_ne hd]
            exact ⟨hreg, hpend⟩

/-! ## Quiet syncs -/

/-- Nothing is under way. -/
structure Net.Quiet (s : Net δ β) : Prop where
  pending : ∀ d, (s.device d).pending = []
  pushes : s.pushes = []

/-- A sync of one device that reaches the server, and whose pushes reach it, with nothing in between. -/
def quietSync (s : Net δ β) (sync : δ × ℤ) : Net δ β :=
  let s := run s [.syncStart sync.1, .answer sync.1 0 true, .syncFinish sync.1 0 sync.2]
  run s (List.replicate s.pushes.length [.deliver 0 sync.2, .drop 0]).flatten

/-- Quiet syncs, one after the other. -/
def quietRound (s : Net δ β) (order : List (δ × ℤ)) : Net δ β := order.foldl quietSync s

/-- What the server and the devices have under an id. -/
def view (s : Net δ β) (k : String) : Option (Session β) × (δ → Option (Session β)) :=
  (serverView s.server k, fun d => lookup (s.device d).registry k)

/-- Every push arrives: under its id the server has what was pushed. -/
theorem deliverAll (hids : ids.card ≤ maxRows) {s : Net δ β} (hstored : Stored ids s.server) {list : List (Session β)}
    (hlist : Known ids list) (hpushes : s.pushes = list) (now : ℤ) :
    let after := run s (List.replicate list.length [.deliver 0 now, .drop 0]).flatten
    after.device = s.device ∧ after.pushes = [] ∧ Stored ids after.server ∧
      ∀ k, serverView after.server k = (lookup list k).or (serverView s.server k) := by
  induction list generalizing s with
  | nil => exact ⟨rfl, hpushes, hstored, fun k => rfl⟩
  | cons x list ih =>
      obtain ⟨hid, hstamp⟩ := hlist.mem x List.mem_cons_self
      obtain ⟨hnext, hview⟩ := stored_upsert hids hstored hid hstamp now
      have htail : Known ids list :=
        ⟨(List.nodup_cons.mp hlist.nodup).2, fun y hy => hlist.mem y (List.mem_cons_of_mem _ hy)⟩
      have hstep : (s.step (.deliver 0 now)).step (.drop 0) =
          { s with server := SessionStore.upsert s.server x now, pushes := list } := by
        simp [Net.step, hpushes]
      obtain ⟨hdevice, hempty, hstored', hafter⟩ :=
        ih (s := { s with server := SessionStore.upsert s.server x now, pushes := list }) hnext htail rfl
      have hrun : run s (List.replicate (x :: list).length [.deliver 0 now, .drop 0]).flatten =
          run { s with server := SessionStore.upsert s.server x now, pushes := list }
            (List.replicate list.length [.deliver 0 now, .drop 0]).flatten := by
        rw [List.length_cons, List.replicate_succ, List.flatten_cons]
        show run ((s.step (.deliver 0 now)).step (.drop 0)) (List.replicate list.length _).flatten = _
        rw [hstep]
      rw [hrun]
      refine ⟨hdevice, hempty, hstored', fun k => ?_⟩
      rw [hafter, hview]
      unfold lookup
      by_cases hk : k = x.id
      · have hnone : list.find? (fun y => decide (y.id = k)) = none := by
          rw [List.find?_eq_none]
          intro y hy hyk
          apply (List.nodup_cons.mp hlist.nodup).1
          rw [← hk, ← of_decide_eq_true hyk]
          exact List.mem_map_of_mem hy
        rw [if_pos hk, hnone, List.find?_cons_of_pos (by simp [hk])]
        rfl
      · rw [if_neg hk, List.find?_cons_of_neg (by simpa using Ne.symm hk)]

/-- What the server has after the pushes of a sync is what the device has. -/
theorem toPush_join {loc server : List (Session β)} (hloc : Known ids loc) (k : String) :
    (lookup (reconcile loc server).2 k).or (lookup server k) =
      LastWriter.join Session.rank (lookup server k) (lookup loc k) := by
  have hn : ((reconcile loc server).2.map Session.id).Nodup := hloc.nodup.sublist (List.filter_sublist.map _)
  cases hmine : lookup loc k with
  | none =>
      have hnone : lookup (reconcile loc server).2 k = none := by
        apply Option.eq_none_iff_forall_ne_some.mpr
        intro x hx
        obtain ⟨hmem, rfl⟩ := (lookup_eq_some hn).mp hx
        rw [(lookup_eq_some hloc.nodup).mpr ⟨(mem_toPush.mp hmem).1, rfl⟩] at hmine
        cases hmine
      rw [hnone, Option.none_or]
      cases lookup server k <;> rfl
  | some x =>
      obtain ⟨hx, rfl⟩ := (lookup_eq_some hloc.nodup).mp hmine
      by_cases hpush : x ∈ (reconcile loc server).2
      · rw [(lookup_eq_some hn).mpr ⟨hpush, rfl⟩, Option.some_or]
        cases hsrv : lookup server x.id with
        | none => rfl
        | some srv => exact (if_pos ((mem_toPush.mp hpush).2 srv hsrv)).symm
      · have hnone : lookup (reconcile loc server).2 x.id = none := by
          apply Option.eq_none_iff_forall_ne_some.mpr
          intro y hy
          obtain ⟨hmem, hid⟩ := (lookup_eq_some hn).mp hy
          rw [List.inj_on_of_nodup_map hloc.nodup (mem_toPush.mp hmem).1 hx hid] at hmem
          exact hpush hmem
        rw [hnone, Option.none_or]
        cases hsrv : lookup server x.id with
        | none =>
            refine absurd (mem_toPush.mpr ⟨hx, fun srv h => ?_⟩) hpush
            rw [hsrv] at h
            cases h
        | some srv =>
            refine (if_neg fun hlt => hpush (mem_toPush.mpr ⟨hx, fun srv' h => ?_⟩)).symm
            rw [hsrv] at h
            rwa [← Option.some.inj h]

/-- **A quiet sync** leaves the join of what they had with the server and the device. -/
theorem view_quietSync (hids : ids.card ≤ maxSessions) {s : Net δ β} (h : Fits ids (fun _ => True) s) (hquiet : s.Quiet)
    (sync : δ × ℤ) :
    Fits ids (fun _ => True) (quietSync s sync) ∧ (quietSync s sync).Quiet ∧
      ∀ k, view (quietSync s sync) k =
        LastWriter.round Session.rank (view s k) [sync.1] := by
  obtain ⟨d, now⟩ := sync
  have hrows : ids.card ≤ maxRows := hids.trans (by decide)
  obtain ⟨hlisted, hlistedView⟩ := lookup_listSessions h.stored
  have hreg := h.registry d
  obtain ⟨hmerged, hmergedView⟩ := lookup_reconcile hreg.known hlisted
  -- the three steps of the device
  have hsync : run s [.syncStart d, .answer d 0 true, .syncFinish d 0 now] =
      { device := Function.update s.device d
          { registry := saveSessionRegistry (reconcile (s.device d).registry (listSessions s.server)).1, pending := [] }
        server := s.server
        pushes := (reconcile (s.device d).registry (listSessions s.server)).2 } := by
    have hbody : (reconcile (s.device d).registry (listSessions s.server)).2.map (fun loc => pushBody loc now) =
        (reconcile (s.device d).registry (listSessions s.server)).2 := by
      rw [List.map_congr_left (g := id)]
      · exact List.map_id _
      · exact fun x hx => pushBody_eq (hreg.known.mem x (mem_toPush.mp hx).1).2 now
    simp [run, Net.step, Net.setDevice, hquiet.pending, hquiet.pushes, hbody]
  have htoPush : Known ids (reconcile (s.device d).registry (listSessions s.server)).2 :=
    ⟨hreg.known.nodup.sublist (List.filter_sublist.map _), fun x hx => hreg.known.mem x (mem_toPush.mp hx).1⟩
  obtain ⟨hdevice, hempty, hstored, hserver⟩ := deliverAll hrows (s := run s [.syncStart d, .answer d 0 true, .syncFinish d 0 now])
    (by rw [hsync]; exact h.stored) htoPush (by rw [hsync]) now
  have hlen : (run s [.syncStart d, .answer d 0 true, .syncFinish d 0 now]).pushes.length =
      (reconcile (s.device d).registry (listSessions s.server)).2.length := by rw [hsync]
  have hafter : quietSync s (d, now) = run (run s [.syncStart d, .answer d 0 true, .syncFinish d 0 now])
      (List.replicate (reconcile (s.device d).registry (listSessions s.server)).2.length [.deliver 0 now, .drop 0]).flatten := by
    show run _ (List.replicate _ _).flatten = _
    rw [hlen]
  rw [← hafter] at hdevice hempty hstored hserver
  have hview : ∀ k, view (quietSync s (d, now)) k = LastWriter.round Session.rank (view s k) [d] := by
    intro k
    have hhub : serverView (quietSync s (d, now)).server k =
        LastWriter.join Session.rank (serverView s.server k) (lookup (s.device d).registry k) := by
      have hkept : serverView (run s [.syncStart d, .answer d 0 true, .syncFinish d 0 now]).server k = serverView s.server k := by
        rw [hsync]
      rw [hserver, hkept, ← hlistedView, toPush_join hreg.known]
    apply Prod.ext
    · exact hhub
    · funext d'
      show lookup ((quietSync s (d, now)).device d').registry k =
        Function.update (fun d => lookup (s.device d).registry k) d
          (LastWriter.join Session.rank (serverView s.server k) (lookup (s.device d).registry k)) d'
      rw [hdevice, hsync]
      by_cases hd : d' = d
      · subst hd
        simp only [Function.update_self]
        rw [lookup_save hids hmerged, hmergedView, hlistedView]
      · simp only [Function.update_of_ne hd]
  refine ⟨⟨fun d' => ?_, fun d' sync hs => ?_, hstored, fun _ _ _ => trivial, ?_⟩, ⟨fun d' => ?_, hempty⟩, hview⟩
  · rw [hdevice, hsync]
    by_cases hd : d' = d
    · subst hd
      simp only [Function.update_self]
      exact ⟨known_save hids hmerged, fun _ _ => trivial⟩
    · simp only [Function.update_of_ne hd]
      exact h.registry d'
  · rw [hdevice, hsync] at hs
    by_cases hd : d' = d
    · subst hd
      simp only [Function.update_self] at hs
      cases hs
    · simp only [Function.update_of_ne hd, hquiet.pending] at hs
      cases hs
  · rw [hempty]
    simp
  · rw [hdevice, hsync]
    by_cases hd : d' = d
    · subst hd
      simp only [Function.update_self]
    · simp only [Function.update_of_ne hd]
      exact hquiet.pending d'

/-- **A round of quiet syncs** is a round of joins under each id. -/
theorem view_quietRound (hids : ids.card ≤ maxSessions) {s : Net δ β} (h : Fits ids (fun _ => True) s) (hquiet : s.Quiet)
    (order : List (δ × ℤ)) :
    Fits ids (fun _ => True) (quietRound s order) ∧ (quietRound s order).Quiet ∧
      ∀ k, view (quietRound s order) k = LastWriter.round Session.rank (view s k) (order.map Prod.fst) := by
  induction order generalizing s with
  | nil => exact ⟨h, hquiet, fun k => rfl⟩
  | cons sync order ih =>
      obtain ⟨hfits, hq, hview⟩ := view_quietSync hids h hquiet sync
      obtain ⟨hfits', hq', hview'⟩ := ih hfits hq
      refine ⟨hfits', hq', fun k => ?_⟩
      show view (quietRound (quietSync s sync) order) k = _
      rw [hview', hview]
      rfl

/-! ## Main results -/

theorem newest_of_steps (hids : ids.card ≤ maxSessions) {events : List (Event δ β)} {h : Seen δ β}
    (hrun : Machine.Steps (fun h e => some (Seen.step h e)) (Orderly ids) Seen.empty events h) : Newest ids h := by
  refine Machine.Steps.invariant (fun s e t hs hok hst => ?_) newest_empty hrun
  rw [← Option.some.inj hst]
  exact hs.step hids hok

/-- **The last edit of a session is never lost.** In a run of edits, syncs and pushes, with any delays, repetitions and losses in
the network, in which no more ids come up than a registry has room for, the edits carry rising times, and no device edits while one
of its syncs waits: at the end every session that was ever edited is, as its last edit left it, in the registry of the device
that made that edit, and no record of it anywhere is newer. -/
theorem last_edit_kept (hids : ids.card ≤ maxSessions) {events : List (Event δ β)} {h : Seen δ β}
    (hrun : Machine.Steps (fun h e => some (Seen.step h e)) (Orderly ids) Seen.empty events h) {k : String} {d : δ}
    {r : Session β} (hlast : h.last k = some (d, r)) :
    lookup (h.net.device d).registry k = some r ∧
      (∀ d' x, lookup (h.net.device d').registry k = some x → x.rank < r.rank ∨ x = r) ∧
      ∀ x, serverView h.net.server k = some x → x.rank < r.rank ∨ x = r := by
  have hn := newest_of_steps hids hrun
  have hdated : ∀ x : Session β, x.id = k → Dated h.last x → x.rank < r.rank ∨ x = r := by
    rintro x rfl ⟨d', r', hr', hx⟩
    rw [hlast] at hr'
    obtain ⟨-, rfl⟩ := Prod.mk.inj (Option.some.inj hr')
    exact hx
  refine ⟨(hn.kept k d r hlast).1, fun d' x hx => ?_, fun x hx => ?_⟩
  · exact hdated x (lookup_id hx) ((hn.fits.registry d').all x (lookup_mem hx))
  · obtain ⟨row, hrow, rfl⟩ := Option.map_eq_some_iff.mp hx
    have hmem := (Dict.mem_iff_get? hn.fits.stored.nodup).mpr hrow
    exact hdated row.data (hn.fits.stored.mem _ hmem).1 (hn.fits.server k _ hx)

/-- One device starts a session, another one reads it from the server and changes it, and the push of the change is lost. -/
def relay : List (Event Bool ℕ) :=
  [.upsert true { id := "s1", startedAt := 5, updatedAt := none, rest := 0 } 10, .deliver 0 11, .drop 0,
    .syncStart false, .answer false 0 true, .syncFinish false 0 12, .patch false "s1" (· + 1) 20, .drop 0]

theorem relay_steps : ∃ h, Machine.Steps (fun h e => some (Seen.step h e)) (Orderly {"s1"}) Seen.empty relay h ∧
    h.last "s1" = some (false, { id := "s1", startedAt := 5, updatedAt := some 20, rest := 1 }) ∧ h.net.pushes = [] ∧
    ∀ d, (h.net.device d).pending = [] :=
  ⟨relay.foldl Seen.step Seen.empty, Machine.steps_of_play rfl, rfl, rfl, by decide⟩

theorem last_edit_kept_relay :
    ∃ h : Seen Bool ℕ, lookup (h.net.device false).registry "s1" =
      some { id := "s1", startedAt := 5, updatedAt := some 20, rest := 1 } := by
  obtain ⟨h, hrun, hlast, -, -⟩ := relay_steps
  exact ⟨h, (last_edit_kept (by decide) hrun hlast).1⟩

theorem fits_run (hids : ids.card ≤ maxSessions) {events : List (Event δ β)} (hwithin : ∀ e ∈ events, e.Within ids)
    {s : Net δ β} (h : Fits ids (fun _ => True) s) : Fits ids (fun _ => True) (run s events) := by
  induction events generalizing s with
  | nil => exact h
  | cons e events ih =>
      exact ih (fun e he => hwithin e (List.mem_cons_of_mem _ he))
        (h.step hids (hwithin e List.mem_cons_self) fun _ _ _ => trivial)

/-- **All devices agree.** From any state that edits, syncs and the network can lead to, with no more ids than a registry has room
for and nothing under way: when every device has synchronised quietly twice, in any order and any number of times, every device
has under every id exactly what the server has, which is a record that was there, and none that was there is newer. -/
theorem devices_agree (hids : ids.card ≤ maxSessions) {events : List (Event δ β)} (hwithin : ∀ e ∈ events, e.Within ids)
    (hquiet : (run Net.empty events).Quiet) {first second : List (δ × ℤ)} (hfirst : ∀ d, d ∈ first.map Prod.fst)
    (hsecond : ∀ d, d ∈ second.map Prod.fst) (k : String) :
    let before := run Net.empty events
    let after := quietRound (quietRound before first) second
    (∀ d, lookup (after.device d).registry k = serverView after.server k) ∧
      LastWriter.Le Session.rank (serverView before.server k) (serverView after.server k) ∧
      (∀ d, LastWriter.Le Session.rank (lookup (before.device d).registry k) (serverView after.server k)) ∧
      ∀ x, serverView after.server k = some x →
        serverView before.server k = some x ∨ ∃ d, lookup (before.device d).registry k = some x := by
  intro before after
  have hfits : Fits ids (fun _ => True) before := fits_run hids hwithin fits_empty
  obtain ⟨hfits', hquiet', hview⟩ := view_quietRound hids hfits hquiet first
  obtain ⟨-, -, hview'⟩ := view_quietRound hids hfits' hquiet' second
  obtain ⟨hsame, hhub, hreplica, hmem⟩ := LastWriter.two_rounds_agree Session.rank (serverView before.server k)
    (fun d => lookup (before.device d).registry k) hfirst hsecond
  have hafter : view after k = LastWriter.round Session.rank
      (LastWriter.round Session.rank (view before k) (first.map Prod.fst)) (second.map Prod.fst) := by
    rw [hview', hview]
  have hserver : serverView after.server k = _ := congrArg Prod.fst hafter
  refine ⟨fun d => ?_, ?_, fun d => ?_, fun x hx => ?_⟩
  · have hd : lookup (after.device d).registry k = _ := congrFun (congrArg Prod.snd hafter) d
    rw [hd, hserver]
    exact hsame d
  · rw [hserver]
    exact hhub
  · rw [hserver]
    exact hreplica d
  · rw [hserver] at hx
    exact hmem x hx

theorem devices_agree_relay :
    let after := quietRound (quietRound (run Net.empty relay) [(true, 30), (false, 31)]) [(true, 32), (false, 33)]
    ∀ d, lookup (after.device d).registry "s1" = serverView after.server "s1" := by
  have hids : ({"s1"} : Finset String).card ≤ maxSessions := by decide
  exact (devices_agree hids (by decide) ⟨by decide, rfl⟩ (by decide) (by decide) "s1").1

/-- **In the end everybody has the last edit**: in an orderly run that has come to rest, two quiet syncs of every device bring
the last edit of every session to every device and to the server. -/
theorem last_edit_everywhere (hids : ids.card ≤ maxSessions) {events : List (Event δ β)} {h : Seen δ β}
    (hrun : Machine.Steps (fun h e => some (Seen.step h e)) (Orderly ids) Seen.empty events h) (hquiet : h.net.Quiet)
    {first second : List (δ × ℤ)} (hfirst : ∀ d, d ∈ first.map Prod.fst) (hsecond : ∀ d, d ∈ second.map Prod.fst)
    {k : String} {d : δ} {r : Session β} (hlast : h.last k = some (d, r)) :
    let after := quietRound (quietRound h.net first) second
    serverView after.server k = some r ∧ ∀ d', lookup (after.device d').registry k = some r := by
  intro after
  have hn := newest_of_steps hids hrun
  have hfits : Fits ids (fun _ => True) h.net := hn.fits.mono fun _ _ => trivial
  obtain ⟨hfits', hquiet', hview⟩ := view_quietRound hids hfits hquiet first
  obtain ⟨-, -, hview'⟩ := view_quietRound hids hfits' hquiet' second
  obtain ⟨hsame, -, hreplica, hmem⟩ := LastWriter.two_rounds_agree Session.rank
    (serverView h.net.server k) (fun d => lookup (h.net.device d).registry k) hfirst hsecond
  have hafter : view after k = LastWriter.round Session.rank
      (LastWriter.round Session.rank (view h.net k) (first.map Prod.fst)) (second.map Prod.fst) := by
    rw [hview', hview]
  have hserver : serverView after.server k = _ := congrArg Prod.fst hafter
  obtain ⟨y, hy, hrank⟩ := hreplica d r (hn.kept k d r hlast).1
  -- what all agree on is dated, and not older than the last edit
  have hy_eq : y = r := by
    have hdated : Dated h.last y ∧ y.id = k := by
      rcases hmem y hy with hx | ⟨d', hx⟩
      · obtain ⟨row, hrow, rfl⟩ := Option.map_eq_some_iff.mp hx
        exact ⟨hn.fits.server k _ hx, (hn.fits.stored.mem _ ((Dict.mem_iff_get? hn.fits.stored.nodup).mpr hrow)).1⟩
      · exact ⟨(hn.fits.registry d').all y (lookup_mem hx), lookup_id hx⟩
    obtain ⟨⟨d', r', hr', hy⟩, rfl⟩ := hdated
    rw [hlast] at hr'
    obtain ⟨-, rfl⟩ := Prod.mk.inj (Option.some.inj hr')
    rcases hy with hlt | rfl
    · exact absurd hrank hlt.not_ge
    · rfl
  rw [hy_eq] at hy
  refine ⟨hserver.trans hy, fun d' => ?_⟩
  have hd : lookup (after.device d').registry k = _ := congrFun (congrArg Prod.snd hafter) d'
  rw [hd]
  exact (hsame d').trans hy

theorem last_edit_everywhere_relay :
    ∃ h : Seen Bool ℕ,
      let after := quietRound (quietRound h.net [(true, 30), (false, 31)]) [(true, 32), (false, 33)]
      lookup (after.device true).registry "s1" = some { id := "s1", startedAt := 5, updatedAt := some 20, rest := 1 } := by
  obtain ⟨h, hrun, hlast, hpushes, hpending⟩ := relay_steps
  exact ⟨h, (last_edit_everywhere (by decide) hrun ⟨hpending, hpushes⟩ (by decide) (by decide) hlast).2 true⟩

end Devices

end Lhre.Trackside
