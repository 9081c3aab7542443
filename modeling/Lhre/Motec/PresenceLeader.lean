import Lhre.Motec.Presence

/-!
# `Motec.PresenceLeader` — what a request does to the clients and to their leader

The leader is the designated one, if it is registered, or else the client that claimed first. Below is, for each part of a
request, what it keeps of a state in order, whom it drops and registers, and when it leaves the leader the same.

## Contents
- **Who claimed first.** `key`, and `earliest_eq_some_iff`.
- **The leader.** `leader_cases`, `leaderId_of_live`, `leaderId_of_earliest`.
- **States in order.** `Orderly`: no client twice, not too many, a lock only with a registered leader.
- **The parts of a request.** For `prune`, `leave`, `touch` and `act`, what is kept of `Orderly` and of the leader.
- **A request.** `mem_post`, `has_post`, `orderly_post`, and `leaderId_post` with `Releases`.
-/

namespace Lhre.Presence

variable {Id : Type} [LinearOrder Id] {s : PresenceState Id} {id L : Id} {now : ℕ}

theorem has_iff : s.has id = true ↔ ∃ c ∈ s.clients, c.id = id := by
  unfold PresenceState.has
  rw [List.any_eq_true]
  simp only [decide_eq_true_eq]

theorem not_has_iff : s.has id = false ↔ ∀ c ∈ s.clients, c.id ≠ id := by
  rw [← Bool.not_eq_true, has_iff]
  push Not
  rfl

/-! ## Who claimed first -/

/-- The order of the claims: the time, and among equal times the id. -/
def Client.key (c : Client Id) : ℕ ×ₗ Id := toLex (c.firstSeen, c.id)

theorem before_iff {c l : Client Id} : c.before l = true ↔ c.key < l.key := by
  unfold Client.before Client.key
  rw [Prod.Lex.toLex_lt_toLex]
  simp only [Bool.or_eq_true, Bool.and_eq_true, decide_eq_true_eq]

/-- The loop of `leaderId` finds a least claim. -/
theorem foldl_claim (cs : List (Client Id)) (init : Option (Client Id)) {m : Client Id} (h : cs.foldl claim init = some m) :
    (m ∈ cs ∨ init = some m) ∧ (∀ x ∈ cs, m.key ≤ x.key) ∧ ∀ x, init = some x → m.key ≤ x.key := by
  induction cs generalizing init with
  | nil =>
      rw [List.foldl_nil] at h
      refine ⟨Or.inr h, by simp, fun x hx => ?_⟩
      rw [Option.some.inj (h.symm.trans hx)]
  | cons c rest ih =>
      rw [List.foldl_cons] at h
      obtain ⟨hmem, hrest, hinit⟩ := ih _ h
      cases init with
      | none =>
          have hc : m.key ≤ c.key := hinit c rfl
          refine ⟨Or.inl ?_, ?_, fun x hx => nomatch hx⟩
          · rcases hmem with hmem | heq
            · exact List.mem_cons_of_mem _ hmem
            · rw [← Option.some.inj heq]
              exact List.mem_cons_self
          · intro x hx
            rcases List.mem_cons.mp hx with rfl | hx
            · exact hc
            · exact hrest x hx
      | some l =>
          rw [claim] at hmem hinit
          by_cases hbefore : c.before l = true
          · rw [if_pos hbefore] at hmem hinit
            have hc : m.key ≤ c.key := hinit c rfl
            refine ⟨Or.inl ?_, ?_, fun x hx => ?_⟩
            · rcases hmem with hmem | heq
              · exact List.mem_cons_of_mem _ hmem
              · rw [← Option.some.inj heq]
                exact List.mem_cons_self
            · intro x hx
              rcases List.mem_cons.mp hx with rfl | hx
              · exact hc
              · exact hrest x hx
            · rw [← Option.some.inj hx]
              exact le_trans hc (before_iff.mp hbefore).le
          · rw [if_neg hbefore] at hmem hinit
            have hl : m.key ≤ l.key := hinit l rfl
            have hc : l.key ≤ c.key := not_lt.mp fun hlt => hbefore (before_iff.mpr hlt)
            refine ⟨?_, ?_, fun x hx => ?_⟩
            · rcases hmem with hmem | heq
              · exact Or.inl (List.mem_cons_of_mem _ hmem)
              · exact Or.inr heq
            · intro x hx
              rcases List.mem_cons.mp hx with rfl | hx
              · exact le_trans hl hc
              · exact hrest x hx
            · rw [← Option.some.inj hx]
              exact hl

theorem foldl_claim_isSome (cs : List (Client Id)) (c : Client Id) : ∃ m, cs.foldl claim (some c) = some m := by
  induction cs generalizing c with
  | nil => exact ⟨c, rfl⟩
  | cons x rest ih =>
      rw [List.foldl_cons, claim]
      split
      · exact ih x
      · exact ih c

/-- **The client that claimed first**, where no client is there twice. -/
theorem earliest_eq_some_iff {cs : List (Client Id)} (hnodup : (cs.map (·.id)).Nodup) {m : Client Id} :
    earliest cs = some m ↔ m ∈ cs ∧ ∀ x ∈ cs, m.key ≤ x.key := by
  constructor
  · intro h
    obtain ⟨hmem, hleast, -⟩ := foldl_claim cs none h
    exact ⟨hmem.resolve_right (fun h => nomatch h), hleast⟩
  · rintro ⟨hmem, hleast⟩
    cases cs with
    | nil => exact absurd hmem List.not_mem_nil
    | cons c rest =>
        obtain ⟨m', hm'⟩ : ∃ m', earliest (c :: rest) = some m' := foldl_claim_isSome rest c
        obtain ⟨hmem', hleast', -⟩ := foldl_claim (c :: rest) none hm'
        have hin : m' ∈ c :: rest := hmem'.resolve_right fun h => nomatch h
        have hkey : m.key = m'.key := le_antisymm (hleast m' hin) (hleast' m hmem)
        have hid : m.id = m'.id := congrArg (fun k => (ofLex k).2) hkey
        rw [hm', List.inj_on_of_nodup_map hnodup hmem hin hid]

/-! ## The leader -/

/-- Nobody is designated who is registered. -/
def NoneLive (s : PresenceState Id) : Prop := ∀ id, s.designated = some id → s.has id = false

theorem leaderId_of_live (hdesignated : s.designated = some L) (hhas : s.has L = true) : leaderId s = some L := by
  unfold leaderId
  rw [hdesignated]
  exact if_pos hhas

theorem leaderId_of_noneLive (h : NoneLive s) : leaderId s = (earliest s.clients).map (·.id) := by
  unfold leaderId
  cases hd : s.designated with
  | none => rfl
  | some id =>
      dsimp only
      rw [h id hd]
      rfl

/-- A leader that nobody designated claimed first. -/
theorem leaderId_of_earliest (h : NoneLive s) (hnodup : (s.clients.map (·.id)).Nodup) {m : Client Id} (hm : m ∈ s.clients)
    (hleast : ∀ x ∈ s.clients, m.key ≤ x.key) : leaderId s = some m.id := by
  rw [leaderId_of_noneLive h, (earliest_eq_some_iff hnodup).mpr ⟨hm, hleast⟩]
  rfl

/-- **A leader** is designated and registered, or claimed first. -/
theorem leader_cases (hnodup : (s.clients.map (·.id)).Nodup) (hL : leaderId s = some L) :
    (s.designated = some L ∧ s.has L = true) ∨
      (NoneLive s ∧ ∃ m ∈ s.clients, m.id = L ∧ ∀ x ∈ s.clients, m.key ≤ x.key) := by
  by_cases hlive : NoneLive s
  · rw [leaderId_of_noneLive hlive] at hL
    obtain ⟨m, hm, hid⟩ := Option.map_eq_some_iff.mp hL
    obtain ⟨hmem, hleast⟩ := (earliest_eq_some_iff hnodup).mp hm
    exact Or.inr ⟨hlive, m, hmem, hid, hleast⟩
  · unfold NoneLive at hlive
    push Not at hlive
    obtain ⟨id, hd, hhas⟩ := hlive
    have hhas' : s.has id = true := by simpa using hhas
    have hid : id = L := Option.some.inj ((leaderId_of_live hd hhas').symm.trans hL)
    rw [← hid]
    exact Or.inl ⟨hd, hhas'⟩

theorem has_leader (hnodup : (s.clients.map (·.id)).Nodup) (hL : leaderId s = some L) : s.has L = true := by
  rcases leader_cases hnodup hL with ⟨-, hhas⟩ | ⟨-, m, hm, hid, -⟩
  · exact hhas
  · exact has_iff.mpr ⟨m, hm, hid⟩

/-! ## States in order -/

/-- No client is there twice, there are not too many, and a lock has a registered leader. -/
structure Orderly (s : PresenceState Id) : Prop where
  nodup : (s.clients.map (·.id)).Nodup
  size : s.clients.length ≤ maxClients
  seat : s.locked = true → ∃ id, s.designated = some id ∧ s.has id = true

theorem orderly_empty : Orderly ({} : PresenceState Id) := ⟨List.nodup_nil, Nat.zero_le _, fun h => nomatch h⟩

/-- A locked leader is the designated one. -/
theorem designated_of_locked (hs : Orderly s) (hlocked : s.locked = true) (hL : leaderId s = some L) :
    s.designated = some L := by
  obtain ⟨id, hd, hhas⟩ := hs.seat hlocked
  rw [hd, ← Option.some.inj ((leaderId_of_live hd hhas).symm.trans hL)]

/-! ## The parts of a request -/

section Prune

theorem nodup_filter {cs : List (Client Id)} (h : (cs.map (·.id)).Nodup) (p : Client Id → Bool) :
    ((cs.filter p).map (·.id)).Nodup := (List.filter_sublist.map _).nodup h

/-- **What `prune` does.** Those it does not keep are dropped, and a designated leader that is not there. -/
theorem prune_clients (s : PresenceState Id) (now : ℕ) : (prune s now).clients = s.clients.filter (s.keeps now) := by
  unfold prune
  dsimp only
  split
  · rfl
  · split
    · rfl
    · rfl

theorem prune_designated (s : PresenceState Id) (now : ℕ) :
    (prune s now).designated = s.designated ∧ (prune s now).locked = s.locked ∧
        (∀ id, s.designated = some id → (prune s now).has id = true) ∨
      (prune s now).designated = none ∧ (prune s now).locked = false ∧
        ∃ id, s.designated = some id ∧ (prune s now).has id = false := by
  have hclients := prune_clients s now
  unfold PresenceState.has
  rw [hclients]
  unfold prune
  dsimp only
  cases hd : s.designated with
  | none =>
      left
      exact ⟨rfl, rfl, fun id h => nomatch h⟩
  | some id =>
      dsimp only
      by_cases hhas : ((s.clients.filter (s.keeps now)).any fun c => decide (c.id = id)) = true
      · left
        rw [if_pos hhas]
        refine ⟨rfl, rfl, fun id' h => ?_⟩
        rw [← Option.some.inj h]
        exact hhas
      · right
        rw [if_neg hhas]
        exact ⟨rfl, rfl, id, rfl, Bool.not_eq_true _ ▸ hhas⟩

theorem keeps_iff {c : Client Id} : s.keeps now c = true ↔
    away (some c) now = false ∨ s.locked = true ∧ s.designated = some c.id := by
  unfold PresenceState.keeps
  simp only [Bool.not_eq_true', Bool.and_eq_false_iff, Bool.not_eq_false', Bool.and_eq_true, decide_eq_true_eq]

theorem mem_prune {c : Client Id} : c ∈ (prune s now).clients ↔ c ∈ s.clients ∧ s.keeps now c = true := by
  rw [prune_clients, List.mem_filter]

/-- A locked leader is not dropped, and keeps its lock. -/
theorem prune_of_locked (hs : Orderly s) (hlocked : s.locked = true) (now : ℕ) :
    (prune s now).designated = s.designated ∧ (prune s now).locked = true ∧
      ∃ id, s.designated = some id ∧ (prune s now).has id = true := by
  obtain ⟨id, hd, hhas⟩ := hs.seat hlocked
  obtain ⟨c, hc, hid⟩ := has_iff.mp hhas
  have hkept : (prune s now).has id = true :=
    has_iff.mpr ⟨c, mem_prune.mpr ⟨hc, keeps_iff.mpr (Or.inr ⟨hlocked, hid.symm ▸ hd⟩)⟩, hid⟩
  rcases prune_designated s now with ⟨hsame, hlock, -⟩ | ⟨-, -, id', hd', hnone⟩
  · exact ⟨hsame, hlock.trans hlocked, id, hd, hkept⟩
  · rw [← Option.some.inj (hd.symm.trans hd'), hkept] at hnone
    exact nomatch hnone

theorem locked_prune (hs : Orderly s) (now : ℕ) : (prune s now).locked = s.locked := by
  cases hlocked : s.locked with
  | true => exact (prune_of_locked hs hlocked now).2.1
  | false =>
      rcases prune_designated s now with ⟨-, hlock, -⟩ | ⟨-, hlock, -⟩
      · exact hlock.trans hlocked
      · exact hlock

theorem orderly_prune (hs : Orderly s) (now : ℕ) : Orderly (prune s now) := by
  refine ⟨?_, ?_, fun hlocked => ?_⟩
  · rw [prune_clients]
    exact nodup_filter hs.nodup _
  · rw [prune_clients]
    exact le_trans (List.length_filter_le _ _) hs.size
  · rw [locked_prune hs] at hlocked
    obtain ⟨hsame, -, id, hd, hhas⟩ := prune_of_locked hs hlocked now
    exact ⟨id, hsame.trans hd, hhas⟩

/-- Behind `prune`, a designated leader is registered. -/
theorem has_of_designated_prune (h : (prune s now).designated = some id) : (prune s now).has id = true := by
  rcases prune_designated s now with ⟨hsame, -, hlive⟩ | ⟨hnone, -⟩
  · exact hlive id (hsame.symm.trans h)
  · exact nomatch hnone.symm.trans h

/-- **`prune` leaves the leader the same**, if it keeps it. -/
theorem leaderId_prune (hs : Orderly s) (hL : leaderId s = some L)
    (hkeep : ∀ c ∈ s.clients, c.id = L → s.keeps now c = true) : leaderId (prune s now) = some L := by
  obtain ⟨c, hc, hid⟩ := has_iff.mp (has_leader hs.nodup hL)
  have hhas : (prune s now).has L = true := has_iff.mpr ⟨c, mem_prune.mpr ⟨hc, hkeep c hc hid⟩, hid⟩
  rcases leader_cases hs.nodup hL with ⟨hd, -⟩ | ⟨hnone, m, hm, hmid, hleast⟩
  · rcases prune_designated s now with ⟨hsame, -, -⟩ | ⟨-, -, id, hd', hgone⟩
    · exact leaderId_of_live (hsame.trans hd) hhas
    · rw [← Option.some.inj (hd.symm.trans hd'), hhas] at hgone
      exact nomatch hgone
  · have hnone' : NoneLive (prune s now) := by
      intro id hd
      refine not_has_iff.mpr fun c hc hcid => ?_
      rcases prune_designated s now with ⟨hsame, -, -⟩ | ⟨hno, -⟩
      · exact not_has_iff.mp (hnone id (hsame.symm.trans hd)) c (mem_prune.mp hc).1 hcid
      · exact nomatch hno.symm.trans hd
    rw [← hmid]
    refine leaderId_of_earliest hnone' (orderly_prune hs now).nodup (mem_prune.mpr ⟨hm, hkeep m hm hmid⟩) fun x hx => ?_
    exact hleast x (mem_prune.mp hx).1

end Prune

/-- Clients that are changed but keep their claims have the same leader. -/
theorem leader_of_map {s' : PresenceState Id} {f : Client Id → Client Id} (hf : ∀ c, (f c).key = c.key)
    (hclients : s'.clients = s.clients.map f) (hdesignated : s'.designated = s.designated) (hlocked : s'.locked = s.locked)
    (hs : Orderly s) : (∀ id, s'.has id = s.has id) ∧ Orderly s' ∧ (leaderId s = some L → leaderId s' = some L) := by
  have hid (c : Client Id) : (f c).id = c.id := congrArg (fun k => (ofLex k).2) (hf c)
  have hhas (id : Id) : s'.has id = s.has id := by
    unfold PresenceState.has
    rw [hclients, List.any_map]
    refine congrArg (List.any s.clients) (funext fun c => ?_)
    rw [Function.comp_apply, hid]
  have hnodup : (s'.clients.map (·.id)).Nodup := by
    have hids : (s.clients.map f).map (·.id) = s.clients.map (·.id) := by
      rw [List.map_map]
      exact List.map_congr_left fun c _ => hid c
    rw [hclients, hids]
    exact hs.nodup
  refine ⟨hhas, ⟨hnodup, ?_, fun h => ?_⟩, fun hL => ?_⟩
  · rw [hclients, List.length_map]
    exact hs.size
  · obtain ⟨id, hd, hlive⟩ := hs.seat (hlocked.symm.trans h)
    exact ⟨id, hdesignated.trans hd, (hhas id).trans hlive⟩
  · rcases leader_cases hs.nodup hL with ⟨hd, hlive⟩ | ⟨hnone, m, hm, hmid, hleast⟩
    · exact leaderId_of_live (hdesignated.trans hd) ((hhas L).trans hlive)
    · have hnone' : NoneLive s' := fun id h => (hhas id).trans (hnone id (hdesignated.symm.trans h))
      have hmem : f m ∈ s'.clients := hclients ▸ List.mem_map_of_mem hm
      rw [← hmid, ← hid m]
      refine leaderId_of_earliest hnone' hnodup hmem fun x hx => ?_
      rw [hclients] at hx
      obtain ⟨c, hc, rfl⟩ := List.mem_map.mp hx
      rw [hf, hf]
      exact hleast c hc

section Leave

variable {clientId : Id}

/-- A client that leaves keeps its seat where it is the locked leader, and is deleted where it is not. -/
theorem leave_cases (s : PresenceState Id) (clientId : Id) :
    (s.locked = true ∧ s.designated = some clientId ∧ (leave s clientId).designated = s.designated ∧
        (leave s clientId).locked = s.locked ∧ (leave s clientId).clients =
          s.clients.map fun c => if c.id = clientId then { c with lastSeen := 0 } else c) ∨
      (¬ (s.locked = true ∧ s.designated = some clientId) ∧
        (leave s clientId).designated = (if s.designated = some clientId then none else s.designated) ∧
        (leave s clientId).locked = s.locked ∧
        (leave s clientId).clients = s.clients.filter fun c => c.id ≠ clientId) := by
  unfold leave
  dsimp only
  by_cases h : s.locked = true ∧ s.designated = some clientId
  · rw [if_pos h]
    exact Or.inl ⟨h.1, h.2, rfl, rfl, rfl⟩
  · rw [if_neg h]
    exact Or.inr ⟨h, rfl, rfl, rfl⟩

theorem orderly_leave (hs : Orderly s) (clientId : Id) : Orderly (leave s clientId) := by
  rcases leave_cases s clientId with ⟨-, -, hd, hlock, hclients⟩ | ⟨hseat, hd, hlock, hclients⟩
  · refine (leader_of_map (L := clientId) (fun c => ?_) hclients hd hlock hs).2.1
    split
    · rfl
    · rfl
  · refine ⟨?_, ?_, fun hlocked => ?_⟩
    · rw [hclients]
      exact nodup_filter hs.nodup _
    · rw [hclients]
      exact le_trans (List.length_filter_le _ _) hs.size
    · rw [hlock] at hlocked
      obtain ⟨id, hdes, hhas⟩ := hs.seat hlocked
      have hne : id ≠ clientId := fun heq => hseat ⟨hlocked, heq ▸ hdes⟩
      obtain ⟨c, hc, hid⟩ := has_iff.mp hhas
      refine ⟨id, ?_, has_iff.mpr ⟨c, ?_, hid⟩⟩
      · rw [hd, hdes, if_neg (fun h => hne (Option.some.inj h))]
      · rw [hclients]
        exact List.mem_filter.mpr ⟨hc, decide_eq_true (hid ▸ hne)⟩

/-- **Another client that leaves** does not change the leader. -/
theorem leaderId_leave (hs : Orderly s) (hL : leaderId s = some L) (hne : clientId ≠ L) :
    leaderId (leave s clientId) = some L := by
  have horderly := orderly_leave hs clientId
  rcases leave_cases s clientId with ⟨-, -, hd, hlock, hclients⟩ | ⟨-, hd, -, hclients⟩
  · refine (leader_of_map (fun c => ?_) hclients hd hlock hs).2.2 hL
    split
    · rfl
    · rfl
  · have hmem {c : Client Id} : c ∈ (leave s clientId).clients ↔ c ∈ s.clients ∧ c.id ≠ clientId := by
      rw [hclients, List.mem_filter, decide_eq_true_iff]
    rcases leader_cases hs.nodup hL with ⟨hdes, hhas⟩ | ⟨hnone, m, hm, hmid, hleast⟩
    · obtain ⟨c, hc, hid⟩ := has_iff.mp hhas
      refine leaderId_of_live ?_ (has_iff.mpr ⟨c, hmem.mpr ⟨hc, hid ▸ hne.symm⟩, hid⟩)
      rw [hd, hdes, if_neg (fun h => hne (Option.some.inj h).symm)]
    · have hnone' : NoneLive (leave s clientId) := by
        intro id h
        refine not_has_iff.mpr fun c hc hid => ?_
        rw [hd] at h
        split at h
        · exact nomatch h
        · exact not_has_iff.mp (hnone id h) c (hmem.mp hc).1 hid
      rw [← hmid]
      exact leaderId_of_earliest hnone' horderly.nodup (hmem.mpr ⟨hm, hmid ▸ hne.symm⟩) fun x hx => hleast x (hmem.mp hx).1

end Leave

section Touch

variable {clientId : Id} {name : String} {s' : PresenceState Id}

/-- A client that is heard of is there already, or is registered behind the others. -/
theorem touch_cases (h : touch s clientId name now = some s') :
    s'.designated = s.designated ∧ s'.locked = s.locked ∧
      (s.has clientId = true ∧ s'.clients = s.clients.map (fun c =>
          if c.id = clientId then { c with lastSeen := now, name := if name = "" then c.name else name } else c) ∨
        s.has clientId = false ∧ s.clients.length < maxClients ∧
          s'.clients = s.clients ++ [{ id := clientId, firstSeen := now, lastSeen := now, name }]) := by
  unfold touch at h
  by_cases hhas : s.has clientId = true
  · rw [if_pos hhas] at h
    obtain rfl := Option.some.inj h
    exact ⟨rfl, rfl, Or.inl ⟨hhas, rfl⟩⟩
  · rw [if_neg hhas] at h
    by_cases hsize : s.clients.length < maxClients
    · rw [if_pos hsize] at h
      obtain rfl := Option.some.inj h
      exact ⟨rfl, rfl, Or.inr ⟨Bool.not_eq_true _ ▸ hhas, hsize, rfl⟩⟩
    · rw [if_neg hsize] at h
      exact nomatch h

theorem touch_none (h : touch s clientId name now = none) : s.has clientId = false ∧ maxClients ≤ s.clients.length := by
  unfold touch at h
  by_cases hhas : s.has clientId = true
  · rw [if_pos hhas] at h
    exact nomatch h
  · rw [if_neg hhas] at h
    by_cases hsize : s.clients.length < maxClients
    · rw [if_pos hsize] at h
      exact nomatch h
    · exact ⟨Bool.not_eq_true _ ▸ hhas, not_lt.mp hsize⟩

/-- Whoever is there after a client is heard of: that client, heard of now, or one that was there before. -/
theorem mem_touch (h : touch s clientId name now = some s') {c : Client Id} (hc : c ∈ s'.clients) :
    (c.id = clientId ∧ c.lastSeen = now) ∨ (c.id ≠ clientId ∧ c ∈ s.clients) := by
  obtain ⟨-, -, ⟨-, hclients⟩ | ⟨hnew, -, hclients⟩⟩ := touch_cases h
  · rw [hclients] at hc
    obtain ⟨x, hx, rfl⟩ := List.mem_map.mp hc
    by_cases hid : x.id = clientId
    · rw [if_pos hid]
      exact Or.inl ⟨hid, rfl⟩
    · rw [if_neg hid]
      exact Or.inr ⟨hid, hx⟩
  · rw [hclients] at hc
    rcases List.mem_append.mp hc with hold | hlast
    · exact Or.inr ⟨not_has_iff.mp hnew c hold, hold⟩
    · obtain rfl := List.mem_singleton.mp hlast
      exact Or.inl ⟨rfl, rfl⟩

theorem mem_touch_of_ne (h : touch s clientId name now = some s') {c : Client Id} (hc : c ∈ s.clients)
    (hne : c.id ≠ clientId) : c ∈ s'.clients := by
  obtain ⟨-, -, ⟨-, hclients⟩ | ⟨-, -, hclients⟩⟩ := touch_cases h
  · rw [hclients]
    exact List.mem_map.mpr ⟨c, hc, if_neg hne⟩
  · rw [hclients]
    exact List.mem_append_left _ hc

theorem has_touch (h : touch s clientId name now = some s') : s'.has clientId = true := by
  obtain ⟨-, -, ⟨hhas, hclients⟩ | ⟨-, -, hclients⟩⟩ := touch_cases h
  · obtain ⟨c, hc, hid⟩ := has_iff.mp hhas
    rw [has_iff, hclients]
    exact ⟨_, List.mem_map_of_mem hc, by rw [if_pos hid]; exact hid⟩
  · rw [has_iff, hclients]
    exact ⟨_, List.mem_append_right _ List.mem_cons_self, rfl⟩

theorem has_touch_of_has (h : touch s clientId name now = some s') (hhas : s.has id = true) : s'.has id = true := by
  by_cases hid : id = clientId
  · rw [hid]
    exact has_touch h
  · obtain ⟨c, hc, hcid⟩ := has_iff.mp hhas
    exact has_iff.mpr ⟨c, mem_touch_of_ne h hc (hcid ▸ hid), hcid⟩

theorem orderly_touch (hs : Orderly s) (h : touch s clientId name now = some s') : Orderly s' := by
  obtain ⟨hd, hlock, ⟨hhas, hclients⟩ | ⟨hnew, hsize, hclients⟩⟩ := touch_cases h
  · refine (leader_of_map (L := clientId) (fun c => ?_) hclients hd hlock hs).2.1
    split
    · rfl
    · rfl
  · refine ⟨?_, ?_, fun hlocked => ?_⟩
    · rw [hclients, List.map_append, List.map_singleton]
      refine List.Nodup.append hs.nodup (List.nodup_singleton _) fun id hid hid' => ?_
      obtain rfl := List.mem_singleton.mp hid'
      obtain ⟨c, hc, hcid⟩ := List.mem_map.mp hid
      exact not_has_iff.mp hnew c hc hcid
    · rw [hclients, List.length_append]
      exact hsize
    · obtain ⟨id, hdes, hhas⟩ := hs.seat (hlock.symm.trans hlocked)
      exact ⟨id, hd.trans hdes, has_touch_of_has h hhas⟩

/-- A client may be registered without taking the lead: nobody is there, or someone designated leads, or someone claimed
before it. -/
def Claims (s : PresenceState Id) (clientId : Id) (now : ℕ) : Prop :=
  s.has clientId = true ∨ s.clients = [] ∨ s.designated.isSome = true ∨
    ∃ c ∈ s.clients, c.firstSeen < now ∨ c.firstSeen = now ∧ c.id < clientId

instance (s : PresenceState Id) (clientId : Id) (now : ℕ) : Decidable (Claims s clientId now) := by
  unfold Claims
  infer_instance

/-- **A client that is heard of** does not change the leader, if another one leads already. -/
theorem leaderId_touch (hs : Orderly s) (hlive : ∀ id, s.designated = some id → s.has id = true)
    (hL : leaderId s = some L) (h : touch s clientId name now = some s') (hclaims : Claims s clientId now) :
    leaderId s' = some L := by
  have horderly := orderly_touch hs h
  obtain ⟨hd, hlock, ⟨hhas, hclients⟩ | ⟨hnew, -, hclients⟩⟩ := touch_cases h
  · refine (leader_of_map (fun c => ?_) hclients hd hlock hs).2.2 hL
    split
    · rfl
    · rfl
  · rcases leader_cases hs.nodup hL with ⟨hdes, hhas⟩ | ⟨hnone, m, hm, hmid, hleast⟩
    · exact leaderId_of_live (hd.trans hdes) (has_touch_of_has h hhas)
    · have hdes : s.designated = none := by
        refine Option.eq_none_iff_forall_ne_some.mpr fun id hid => ?_
        have := hnone id hid
        rw [hlive id hid] at this
        exact nomatch this
      have hnone' : NoneLive s' := by
        intro id hid
        rw [hd, hdes] at hid
        exact nomatch hid
      obtain ⟨c, hc, hbefore⟩ : ∃ c ∈ s.clients, c.firstSeen < now ∨ c.firstSeen = now ∧ c.id < clientId := by
        rcases hclaims with hthere | hempty | hsome | hbefore
        · exact nomatch hnew.symm.trans hthere
        · rw [hempty] at hm
          exact absurd hm List.not_mem_nil
        · rw [hdes] at hsome
          exact nomatch hsome
        · exact hbefore
      have hmem : m ∈ s'.clients := by
        rw [hclients]
        exact List.mem_append_left _ hm
      rw [← hmid]
      refine leaderId_of_earliest hnone' horderly.nodup hmem fun x hx => ?_
      rw [hclients] at hx
      rcases List.mem_append.mp hx with hold | hlast
      · exact hleast x hold
      · obtain rfl := List.mem_singleton.mp hlast
        exact le_trans (hleast c hc) (Prod.Lex.toLex_lt_toLex.mpr hbefore).le

end Touch

section Act

variable {clientId : Id} {body : Body Id}

theorem act_clients (s : PresenceState Id) (clientId : Id) (now : ℕ) (body : Body Id) :
    (act s clientId now body).clients = s.clients := by
  unfold act designate
  split <;> first | rfl | (split <;> rfl)

theorem has_act (s : PresenceState Id) (clientId : Id) (now : ℕ) (body : Body Id) (id : Id) :
    (act s clientId now body).has id = s.has id := by
  unfold PresenceState.has
  rw [act_clients]

theorem leaderId_designate (hhas : s.has L = true) : leaderId (designate s L) = some L :=
  leaderId_of_live rfl hhas

theorem orderly_act (hs : Orderly s) (hhas : s.has clientId = true) : Orderly (act s clientId now body) := by
  refine ⟨?_, ?_, ?_⟩
  · rw [act_clients]
    exact hs.nodup
  · rw [act_clients]
    exact hs.size
  · simp only [has_act]
    unfold act designate
    split
    · split
      · exact hs.seat
      · exact hs.seat
    · rename_i target _ _
      split
      · rename_i hgrant
        exact fun _ => ⟨target, rfl, hgrant.2⟩
      · exact hs.seat
    · split
      · exact hs.seat
      · exact hs.seat
    · split
      · exact fun _ => ⟨clientId, rfl, hhas⟩
      · exact hs.seat
    · split
      · exact fun h => nomatch h
      · exact hs.seat
    · split
      · exact fun _ => ⟨clientId, rfl, hhas⟩
      · exact hs.seat
    · split
      · exact fun _ => ⟨clientId, rfl, hhas⟩
      · exact hs.seat
    · exact hs.seat

/-- **An action** leaves the leader the same, unless the leader grants another one or another one takes the lead. -/
theorem leaderId_act (hs : Orderly s) (hL : leaderId s = some L)
    (hgrant : clientId = L → body.action = some .grant → ∀ target, body.target = some target → s.has target = true → target = L)
    (htake : clientId ≠ L → body.action = some .take → leaderAway s now = false)
    (hclaim : clientId ≠ L → body.action = some .claimStarter → s.locked = true ∧ leaderAway s now = false) :
    leaderId (act s clientId now body) = some L := by
  have hhas : s.has L = true := has_leader hs.nodup hL
  unfold act
  split
  · split
    · exact hL
    · exact hL
  · rename_i target haction htarget
    split
    · rename_i hgranted
      have hclient : clientId = L := Option.some.inj (hgranted.1.symm.trans hL)
      obtain rfl := hgrant hclient haction target htarget hgranted.2
      exact leaderId_designate hhas
    · exact hL
  · split
    · exact hL
    · exact hL
  · split
    · rename_i hleads
      have hclient : clientId = L := Option.some.inj (hleads.symm.trans hL)
      rw [hclient]
      exact leaderId_of_live rfl hhas
    · exact hL
  · split
    · exact hL
    · exact hL
  · rename_i haction
    split
    · rename_i haway
      have hclient : clientId = L := by
        by_contra hne
        rw [htake hne haction] at haway
        exact nomatch haway
      rw [hclient]
      exact leaderId_designate hhas
    · exact hL
  · rename_i haction
    split
    · rename_i hfree
      have hclient : clientId = L := by
        by_contra hne
        obtain ⟨hlocked, haway⟩ := hclaim hne haction
        rw [hlocked, haway] at hfree
        exact nomatch hfree
      rw [hclient]
      exact leaderId_designate hhas
    · exact hL
  · exact hL

end Act

/-! ## A request -/

section Post

variable {body : Body Id}

/-- **What a request does**: nothing without an id; or `prune`, and then its client leaves, or is one too many, or acts. -/
theorem post_cases (s : PresenceState Id) (now : ℕ) (body : Body Id) :
    (body.clientId = none ∧ (post s now body).1 = s) ∨ ∃ clientId, body.clientId = some clientId ∧
      (body.leave = true ∧ (post s now body).1 = leave (prune s now) clientId ∨
        body.leave = false ∧ ∃ name,
          (touch (prune s now) clientId name now = none ∧ (post s now body).1 = prune s now ∨
            ∃ s', touch (prune s now) clientId name now = some s' ∧ (post s now body).1 = act s' clientId now body)) := by
  unfold post
  cases hclient : body.clientId with
  | none => exact Or.inl ⟨rfl, rfl⟩
  | some clientId =>
      right
      refine ⟨clientId, rfl, ?_⟩
      dsimp only
      cases hleave : body.leave with
      | true =>
          left
          rw [if_pos rfl]
          exact ⟨rfl, rfl⟩
      | false =>
          right
          rw [if_neg (by decide)]
          refine ⟨rfl, String.ofList (body.name.toList.take 40), ?_⟩
          cases htouch : touch (prune s now) clientId (String.ofList (body.name.toList.take 40)) now with
          | none => exact Or.inl ⟨rfl, rfl⟩
          | some s' =>
              right
              refine ⟨s', rfl, ?_⟩
              dsimp only
              split
              · rename_i hforce
                unfold act
                rw [hforce]
              · rfl

theorem orderly_post (hs : Orderly s) (now : ℕ) (body : Body Id) : Orderly (post s now body).1 := by
  have hprune := orderly_prune hs now
  rcases post_cases s now body with ⟨-, h⟩ | ⟨clientId, -, ⟨-, h⟩ | ⟨-, name, ⟨-, h⟩ | ⟨s', htouch, h⟩⟩⟩
  · rw [h]
    exact hs
  · rw [h]
    exact orderly_leave hprune clientId
  · rw [h]
    exact hprune
  · rw [h]
    exact orderly_act (orderly_touch hprune htouch) (has_touch htouch)

/-- **Whoever is there after a request** sent it, or was there before. -/
theorem mem_post {c : Client Id} (hc : c ∈ (post s now body).1.clients) :
    (body.clientId = some c.id ∧ (body.leave = true ∨ c.lastSeen = now)) ∨ (body.clientId ≠ some c.id ∧ c ∈ s.clients) := by
  rcases post_cases s now body with ⟨hnone, h⟩ | ⟨clientId, hid, ⟨hleave, h⟩ | ⟨-, name, ⟨htouch, h⟩ | ⟨s', htouch, h⟩⟩⟩
  · rw [h] at hc
    exact Or.inr ⟨fun heq => (nomatch hnone.symm.trans heq), hc⟩
  · rw [hid]
    by_cases hsame : clientId = c.id
    · exact Or.inl ⟨congrArg some hsame, Or.inl hleave⟩
    · refine Or.inr ⟨fun heq => hsame (Option.some.inj heq), ?_⟩
      rw [h] at hc
      rcases leave_cases (prune s now) clientId with ⟨-, -, -, -, hclients⟩ | ⟨-, -, -, hclients⟩
      · rw [hclients] at hc
        obtain ⟨x, hx, rfl⟩ := List.mem_map.mp hc
        by_cases hxid : x.id = clientId
        · rw [if_pos hxid] at hsame
          exact absurd hxid.symm hsame
        · rw [if_neg hxid]
          exact (mem_prune.mp hx).1
      · rw [hclients] at hc
        exact (mem_prune.mp (List.mem_filter.mp hc).1).1
  · rw [h] at hc
    rw [hid]
    refine Or.inr ⟨fun heq => ?_, (mem_prune.mp hc).1⟩
    exact not_has_iff.mp (touch_none htouch).1 c hc (Option.some.inj heq).symm
  · rw [h, act_clients] at hc
    rw [hid]
    rcases mem_touch htouch hc with ⟨hcid, hseen⟩ | ⟨hcid, hmem⟩
    · exact Or.inl ⟨congrArg some hcid.symm, Or.inr hseen⟩
    · exact Or.inr ⟨fun heq => hcid (Option.some.inj heq).symm, (mem_prune.mp hmem).1⟩

/-- **A registered client** is registered after a request, unless it leaves or another one's request drops it. -/
theorem has_post (hs : Orderly s) (hhas : s.has id = true) (hleave : body.clientId = some id → body.leave = false)
    (hkeep : body.clientId ≠ some id → ∀ c ∈ s.clients, c.id = id → s.keeps now c = true) :
    (post s now body).1.has id = true := by
  obtain ⟨c, hc, hcid⟩ := has_iff.mp hhas
  have hpruned (hne : body.clientId ≠ some id) : (prune s now).has id = true :=
    has_iff.mpr ⟨c, mem_prune.mpr ⟨hc, hkeep hne c hc hcid⟩, hcid⟩
  rcases post_cases s now body with ⟨-, h⟩ | ⟨clientId, hid, ⟨hleft, h⟩ | ⟨-, name, ⟨htouch, h⟩ | ⟨s', htouch, h⟩⟩⟩
  · rw [h]
    exact hhas
  · have hne : clientId ≠ id := by
      rintro rfl
      rw [hleave hid] at hleft
      exact nomatch hleft
    obtain ⟨x, hx, hxid⟩ := has_iff.mp (hpruned (fun heq => hne (Option.some.inj (hid.symm.trans heq))))
    have hxne : x.id ≠ clientId := hxid ▸ hne.symm
    rw [h, has_iff]
    rcases leave_cases (prune s now) clientId with ⟨-, -, -, -, hclients⟩ | ⟨-, -, -, hclients⟩
    · rw [hclients]
      exact ⟨x, List.mem_map.mpr ⟨x, hx, if_neg hxne⟩, hxid⟩
    · rw [hclients]
      exact ⟨x, List.mem_filter.mpr ⟨hx, decide_eq_true hxne⟩, hxid⟩
  · obtain ⟨hnew, hfull⟩ := touch_none htouch
    rw [h]
    by_cases hne : clientId = id
    · -- its own request dropped it: then there is room for it
      subst hne
      exfalso
      have hgone : ¬ s.keeps now c = true := fun hkept => not_has_iff.mp hnew c (mem_prune.mpr ⟨hc, hkept⟩) hcid
      have hless : (s.clients.filter (s.keeps now)).length < s.clients.length :=
        List.length_filter_lt_length_iff_exists.mpr ⟨c, hc, hgone⟩
      rw [prune_clients] at hfull
      exact absurd (lt_of_lt_of_le hless hs.size) (not_lt.mpr hfull)
    · exact hpruned fun heq => hne (Option.some.inj (hid.symm.trans heq))
  · rw [h, has_act]
    by_cases hne : clientId = id
    · rw [← hne]
      exact has_touch htouch
    · exact has_touch_of_has htouch (hpruned fun heq => hne (Option.some.inj (hid.symm.trans heq)))

/-- How a request can end a client's lead: the client leaves; or it is away and not locked; or it grants another client that is
registered; or another one takes the lead while it is locked and away, or claims it as the starter while it is not locked. -/
def Releases (s : PresenceState Id) (now : ℕ) (body : Body Id) (L : Id) : Prop :=
  (body.clientId = some L ∧ body.leave = true) ∨
  (s.locked = false ∧ ∃ c ∈ s.clients, c.id = L ∧ away (some c) now = true) ∨
  (body.clientId = some L ∧ body.action = some .grant ∧
    ∃ target, body.target = some target ∧ target ≠ L ∧ (prune s now).has target = true) ∨
  (body.clientId ≠ some L ∧ (body.action = some .take ∨ body.action = some .claimStarter) ∧ s.locked = true ∧
    ∃ c ∈ s.clients, c.id = L ∧ away (some c) now = true) ∨
  (body.clientId ≠ some L ∧ body.action = some .claimStarter ∧ s.locked = false)

/-- When another client is registered, a leader is away only if it was locked and away before. -/
theorem leaderAway_touch (hs : Orderly s) {clientId : Id} {name : String} {s' : PresenceState Id}
    (htouch : touch (prune s now) clientId name now = some s') (htouched : leaderId s' = some L) (hne : clientId ≠ L)
    (h : leaderAway s' now = true) : s.locked = true ∧ ∃ c ∈ s.clients, c.id = L ∧ away (some c) now = true := by
  have horderly := orderly_touch (orderly_prune hs now) htouch
  have hlocked : s'.locked = s.locked := (touch_cases htouch).2.1.trans (locked_prune hs now)
  unfold leaderAway at h
  rw [Bool.and_eq_true, hlocked, htouched, Option.bind_some] at h
  refine ⟨h.1, ?_⟩
  obtain ⟨c, hc, hcid⟩ := has_iff.mp (has_leader horderly.nodup htouched)
  obtain ⟨x, hx⟩ : ∃ x, s'.get L = some x :=
    Option.isSome_iff_exists.mp (List.find?_isSome.mpr ⟨c, hc, decide_eq_true hcid⟩)
  have hfound : (s'.clients.find? fun c => decide (c.id = L)) = some x := hx
  have hxid : x.id = L := by simpa using List.find?_some hfound
  rcases mem_touch htouch (List.mem_of_find?_eq_some hx) with ⟨hsame, -⟩ | ⟨-, hmem⟩
  · exact absurd (hsame.symm.trans hxid) hne
  · exact ⟨x, (mem_prune.mp hmem).1, hxid, hx ▸ h.2⟩

/-- **A request leaves the leader the same**, unless it ends its lead or registers a client that claimed before it. -/
theorem leaderId_post (hs : Orderly s) (hL : leaderId s = some L) (hstay : ¬ Releases s now body L)
    (hclaims : ∀ clientId, body.clientId = some clientId → body.leave = false → Claims (prune s now) clientId now) :
    leaderId (post s now body).1 = some L := by
  have hkeep : ∀ c ∈ s.clients, c.id = L → s.keeps now c = true := by
    intro c hc hcid
    refine keeps_iff.mpr ?_
    cases hlocked : s.locked with
    | true => exact Or.inr ⟨rfl, hcid ▸ designated_of_locked hs hlocked hL⟩
    | false =>
        left
        rw [← Bool.not_eq_true]
        exact fun haway => hstay (Or.inr (Or.inl ⟨hlocked, c, hc, hcid, haway⟩))
  have hpruned : leaderId (prune s now) = some L := leaderId_prune hs hL hkeep
  have hprune := orderly_prune hs now
  rcases post_cases s now body with ⟨-, h⟩ | ⟨clientId, hid, ⟨hleft, h⟩ | ⟨hhere, name, ⟨-, h⟩ | ⟨s', htouch, h⟩⟩⟩
  · rw [h]
    exact hL
  · rw [h]
    refine leaderId_leave hprune hpruned fun heq => hstay (Or.inl ⟨?_, hleft⟩)
    rw [hid, heq]
  · rw [h]
    exact hpruned
  · have htouched : leaderId s' = some L :=
      leaderId_touch hprune (fun id => has_of_designated_prune) hpruned htouch (hclaims clientId hid hhere)
    have horderly := orderly_touch hprune htouch
    have hlocked : s'.locked = s.locked := (touch_cases htouch).2.1.trans (locked_prune hs now)
    have hother (hne : clientId ≠ L) : body.clientId ≠ some L := fun heq => hne (Option.some.inj (hid.symm.trans heq))
    rw [h]
    refine leaderId_act horderly htouched ?_ ?_ ?_
    · intro hsame haction target htarget hhas
      by_contra hne
      refine hstay (Or.inr (Or.inr (Or.inl ⟨hsame ▸ hid, haction, target, htarget, hne, ?_⟩)))
      obtain ⟨c, hc, hcid⟩ := has_iff.mp hhas
      rcases mem_touch htouch hc with ⟨hown, -⟩ | ⟨-, hmem⟩
      · exact absurd (hcid.symm.trans (hown.trans hsame)) hne
      · exact has_iff.mpr ⟨c, hmem, hcid⟩
    · intro hne haction
      rw [← Bool.not_eq_true]
      intro h
      obtain ⟨hlock, hsilent⟩ := leaderAway_touch hs htouch htouched hne h
      exact hstay (Or.inr (Or.inr (Or.inr (Or.inl ⟨hother hne, Or.inl haction, hlock, hsilent⟩))))
    · intro hne haction
      cases hlock : s.locked with
      | false => exact absurd (Or.inr (Or.inr (Or.inr (Or.inr ⟨hother hne, haction, hlock⟩)))) hstay
      | true =>
          refine ⟨hlocked.trans hlock, ?_⟩
          rw [← Bool.not_eq_true]
          intro h
          obtain ⟨-, hsilent⟩ := leaderAway_touch hs htouch htouched hne h
          exact hstay (Or.inr (Or.inr (Or.inr (Or.inl ⟨hother hne, Or.inr haction, hlock, hsilent⟩))))

end Post

end Lhre.Presence
