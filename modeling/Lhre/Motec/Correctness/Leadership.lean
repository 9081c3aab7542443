import Lhre.Motec.PresenceLeader
import Mathlib.Data.String.Basic

/-!
# `Motec.Correctness.Leadership` — leadership of a live session is stable

A handler reads the clock before its body is there, so a request that is late acts on a newer state with an older time. As long
as one client's requests are read in their order, none is read that finds a client away whose next request is there already,
nobody is registered who claimed before the one that leads, and an admin that forces a locked lead is still registered, the
lead of a session changes only where it is given up, taken or claimed.

## Contents
- **Runs.** `World.start`, `Left`, `Silent`, and `InOrder`, the condition on the steps.
- **What holds in them.** `Sound`, kept by every step (`sound_step`).
- **Who stays.** `Lapses`, `has_step`; `Released`, `leaderId_step`.
- **The claim on runs.** `leadership_stable`.
-/

namespace Lhre.Presence

open Machine

variable {Id : Type} [LinearOrder Id]

/-! ## Runs -/

/-- The server at a time, before the first request. -/
def World.start (now : ℕ) : World Id := { clock := now }

/-- The last request of a client that was read is its leave. -/
def World.Left (w : World Id) (id : Id) : Prop :=
  ∃ h ∈ w.handled.find? (fun h => h.body.clientId = some id), h.body.leave = true

/-- When a request arrived, every other one of a client had been there for more than `TTL_MS`. -/
def World.Silent (w : World Id) (i : ℕ) (h : Handler Id) (id : Id) : Prop :=
  ∀ h' ∈ w.unread.eraseIdx i ++ w.handled, h'.body.clientId = some id → h'.now + ttlMs < h.now

/-- A request that is read in order. -/
def World.ReadInOrder (w : World Id) (i : ℕ) (h : Handler Id) : Prop :=
  -- it is not behind a later one of the same client
  (∀ id ∈ h.body.clientId, ∀ h' ∈ w.unread.eraseIdx i, h'.body.clientId = some id → h.now ≤ h'.now) ∧
  -- a client that it finds away has no request that is still to be read
  (∀ c ∈ w.state.clients, away (some c) h.now = true → ∀ h' ∈ w.unread.eraseIdx i, h'.body.clientId ≠ some c.id) ∧
  -- a client that it registers does not come before the one that leads
  ∀ id ∈ h.body.clientId, h.body.leave = false → Claims (prune w.state h.now) id h.now

/-- The condition on a step: requests are read in order, and an admin that forces a locked lead is registered. -/
def World.InOrder (w : World Id) : Event Id → Prop
  | .arrive _ _ => True
  | .read i => ∀ h ∈ w.unread[i]?, w.ReadInOrder i h
  | .token i isAdmin =>
      isAdmin = true → w.state.locked = true → ∀ h ∈ w.waiting[i]?, ∀ id ∈ h.body.clientId, w.state.has id = true

instance (w : World Id) (id : Id) : Decidable (w.Left id) := by
  unfold World.Left
  infer_instance

instance (w : World Id) (i : ℕ) (h : Handler Id) (id : Id) : Decidable (w.Silent i h id) := by
  unfold World.Silent
  infer_instance

instance (w : World Id) (i : ℕ) (h : Handler Id) : Decidable (w.ReadInOrder i h) := by
  unfold World.ReadInOrder
  infer_instance

instance (w : World Id) (e : Event Id) : Decidable (w.InOrder e) := by
  cases e <;> unfold World.InOrder <;> infer_instance

/-! ## What holds in them -/

/-- The state is in order, requests are read in their order, and a client that is still here was last seen at its last
request. -/
structure Sound (w : World Id) : Prop where
  orderly : Orderly w.state
  order : ∀ id, ∀ h ∈ w.handled, h.body.clientId = some id → ∀ h' ∈ w.unread, h'.body.clientId = some id → h.now ≤ h'.now
  clock : ∀ h ∈ w.handled, h.now ≤ w.clock
  arrived : ∀ h ∈ w.unread, h.now ≤ w.clock
  current : ∀ c ∈ w.state.clients, ¬ w.Left c.id → ∀ h ∈ w.handled, h.body.clientId = some c.id → h.now ≤ c.lastSeen

theorem sound_start (now : ℕ) : Sound (World.start now : World Id) :=
  ⟨orderly_empty, fun _ _ h => absurd h List.not_mem_nil, fun _ h => absurd h List.not_mem_nil,
    fun _ h => absurd h List.not_mem_nil, fun _ h => absurd h List.not_mem_nil⟩

/-- **What a step does.** -/
theorem step_cases {w w' : World Id} {e : Event Id} (h : w.step e = some w') :
    (∃ now body, e = .arrive now body ∧ w.clock ≤ now ∧
      w' = { w with clock := now, unread := w.unread ++ [⟨now, body⟩] }) ∨
    (∃ i r, e = .read i ∧ w.unread[i]? = some r ∧ w'.state = (post w.state r.now r.body).1 ∧ w'.clock = w.clock ∧
      w'.unread = w.unread.eraseIdx i ∧ w'.handled = r :: w.handled) ∨
    ∃ i isAdmin r id, e = .token i isAdmin ∧ w.waiting[i]? = some r ∧ r.body.clientId = some id ∧
      w' = { w with state := force w.state id isAdmin, waiting := w.waiting.eraseIdx i } := by
  cases e with
  | arrive now body =>
      rw [World.step] at h
      by_cases hclock : w.clock ≤ now
      · rw [if_pos hclock] at h
        exact Or.inl ⟨now, body, rfl, hclock, (Option.some.inj h).symm⟩
      · rw [if_neg hclock] at h
        exact nomatch h
  | read i =>
      rw [World.step] at h
      obtain ⟨r, hr, rfl⟩ := Option.map_eq_some_iff.mp h
      exact Or.inr (Or.inl ⟨i, r, rfl, hr, rfl, rfl, rfl, rfl⟩)
  | token i isAdmin =>
      rw [World.step] at h
      obtain ⟨r, hr, h⟩ := Option.bind_eq_some_iff.mp h
      obtain ⟨id, hid, rfl⟩ := Option.map_eq_some_iff.mp h
      exact Or.inr (Or.inr ⟨i, isAdmin, r, id, rfl, hr, hid, rfl⟩)

/-- A request that is read is a client's last one, or of another client. -/
theorem left_read {w w' : World Id} {r : Handler Id} (hhandled : w'.handled = r :: w.handled) (id : Id) :
    (r.body.clientId = some id ∧ (w'.Left id ↔ r.body.leave = true)) ∨
      (r.body.clientId ≠ some id ∧ (w'.Left id ↔ w.Left id)) := by
  unfold World.Left
  rw [hhandled]
  by_cases hsame : r.body.clientId = some id
  · left
    have hfirst : (r :: w.handled).find? (fun h => h.body.clientId = some id) = some r := by simp [hsame]
    rw [hfirst]
    refine ⟨hsame, ?_⟩
    constructor
    · rintro ⟨h, hh, hleave⟩
      rw [Option.some.inj hh]
      exact hleave
    · exact fun hleave => ⟨r, rfl, hleave⟩
  · right
    have hother : (r :: w.handled).find? (fun h => h.body.clientId = some id) =
        w.handled.find? fun h => h.body.clientId = some id := by simp [hsame]
    rw [hother]
    exact ⟨hsame, Iff.rfl⟩

theorem orderly_force {s : PresenceState Id} (hs : Orderly s) {id : Id} {isAdmin : Bool}
    (hhas : isAdmin = true → s.locked = true → s.has id = true) : Orderly (force s id isAdmin) := by
  unfold force
  split
  · rename_i hadmin
    exact ⟨hs.nodup, hs.size, fun hlocked => ⟨id, rfl, hhas hadmin hlocked⟩⟩
  · exact hs

theorem force_clients (s : PresenceState Id) (id : Id) (isAdmin : Bool) : (force s id isAdmin).clients = s.clients := by
  unfold force
  split
  · rfl
  · rfl

/-- **Every step in order** keeps the server sound. -/
theorem sound_step (w : World Id) (e : Event Id) (w' : World Id) (hw : Sound w) (hok : w.InOrder e)
    (hstep : w.step e = some w') : Sound w' := by
  rcases step_cases hstep with ⟨now, body, rfl, hclock, rfl⟩ | ⟨i, r, rfl, hr, hstate, hclock, hunread, hhandled⟩ |
    ⟨i, isAdmin, r, id, rfl, hr, hid, rfl⟩
  · refine ⟨hw.orderly, fun id h hh hid h' hh' hid' => ?_, fun h hh => le_trans (hw.clock h hh) hclock, fun h hh => ?_,
      hw.current⟩
    · rcases List.mem_append.mp hh' with hold | hlast
      · exact hw.order id h hh hid h' hold hid'
      · obtain rfl := List.mem_singleton.mp hlast
        exact le_trans (hw.clock h hh) hclock
    · rcases List.mem_append.mp hh with hold | hlast
      · exact le_trans (hw.arrived h hold) hclock
      · obtain rfl := List.mem_singleton.mp hlast
        exact le_rfl
  · have hreads : w.ReadInOrder i r := hok r hr
    have hmem : r ∈ w.unread := List.mem_of_getElem? hr
    refine ⟨?_, fun id h hh hid h' hh' hid' => ?_, fun h hh => ?_, fun h hh => ?_,
      fun c hc hleft h hh hid => ?_⟩
    · rw [hstate]
      exact orderly_post hw.orderly _ _
    · rw [hunread] at hh'
      rw [hhandled] at hh
      rcases List.mem_cons.mp hh with rfl | hh
      · exact hreads.1 id hid h' hh' hid'
      · exact hw.order id h hh hid h' (List.mem_of_mem_eraseIdx hh') hid'
    · rw [hclock]
      rw [hhandled] at hh
      rcases List.mem_cons.mp hh with rfl | hh
      · exact hw.arrived h hmem
      · exact hw.clock h hh
    · rw [hclock]
      rw [hunread] at hh
      exact hw.arrived h (List.mem_of_mem_eraseIdx hh)
    · rw [hstate] at hc
      rw [hhandled] at hh
      rcases left_read hhandled c.id with ⟨hsame, hiff⟩ | ⟨hother, hiff⟩
      · rcases mem_post hc with ⟨-, hleave | hseen⟩ | ⟨hne, -⟩
        · exact absurd (hiff.mpr hleave) hleft
        · rw [hseen]
          rcases List.mem_cons.mp hh with rfl | hh
          · exact le_rfl
          · exact hw.order c.id h hh hid r hmem hsame
        · exact absurd hsame hne
      · rcases mem_post hc with ⟨hsame, -⟩ | ⟨-, hold⟩
        · exact absurd hsame hother
        · rcases List.mem_cons.mp hh with rfl | hh
          · exact absurd hid hother
          · exact hw.current c hold (fun h => hleft (hiff.mpr h)) h hh hid
  · refine ⟨orderly_force hw.orderly fun hadmin hlocked => hok hadmin hlocked r hr id hid, hw.order, hw.clock, hw.arrived, ?_⟩
    dsimp only
    rw [force_clients]
    exact hw.current

/-- The server is sound in every run in order. -/
theorem sound_of_steps {now : ℕ} {es : List (Event Id)} {w : World Id}
    (h : Steps World.step World.InOrder (World.start now) es w) : Sound w :=
  Steps.invariant sound_step (sound_start now) h

/-! ## Who stays -/

/-- A client that is found away, and has not left, has been silent: it has no request that is still to be read, and was last
seen at the last one that was. -/
theorem silent_of_away {w : World Id} (hw : Sound w) {i : ℕ} {r : Handler Id} (hreads : w.ReadInOrder i r) {c : Client Id}
    (hc : c ∈ w.state.clients) (hleft : ¬ w.Left c.id) (haway : away (some c) r.now = true) : w.Silent i r c.id := by
  intro h hh hid
  rcases List.mem_append.mp hh with hunread | hhandled
  · exact absurd hid (hreads.2.1 c hc haway h hunread)
  · have hseen := hw.current c hc hleft h hhandled hid
    have hlong : ttlMs < r.now - c.lastSeen := of_decide_eq_true haway
    omega

/-- A client leaves, or a request of another one is read that arrived more than `TTL_MS` after the client's last. -/
def World.Lapses (w : World Id) (e : Event Id) (id : Id) : Prop :=
  match e with
  | .read i => ∃ h ∈ w.unread[i]?,
      (h.body.clientId = some id ∧ h.body.leave = true) ∨ (h.body.clientId ≠ some id ∧ w.Silent i h id)
  | _ => False

/-- **A registered client** stays registered over a step at which it does not lapse. -/
theorem has_step {w w' : World Id} {e : Event Id} {id : Id} (hw : Sound w) (hok : w.InOrder e) (hstep : w.step e = some w')
    (hstays : ¬ w.Lapses e id) (hhas : w.state.has id = true) (hleft : ¬ w.Left id) :
    w'.state.has id = true ∧ ¬ w'.Left id := by
  rcases step_cases hstep with ⟨now, body, rfl, -, rfl⟩ | ⟨i, r, rfl, hr, hstate, -, -, hhandled⟩ |
    ⟨i, isAdmin, r, client, rfl, -, -, rfl⟩
  · exact ⟨hhas, hleft⟩
  · constructor
    · rw [hstate]
      refine has_post hw.orderly hhas (fun hsame => ?_) fun hother c hc hcid => ?_
      · rw [← Bool.not_eq_true]
        exact fun hleave => hstays ⟨r, hr, Or.inl ⟨hsame, hleave⟩⟩
      · refine keeps_iff.mpr (Or.inl ?_)
        rw [← Bool.not_eq_true]
        intro haway
        rw [← hcid] at hleft
        exact hstays ⟨r, hr, Or.inr ⟨hother, hcid ▸ silent_of_away hw (hok r hr) hc hleft haway⟩⟩
    · rcases left_read hhandled id with ⟨hsame, hiff⟩ | ⟨-, hiff⟩
      · exact fun h => hstays ⟨r, hr, Or.inl ⟨hsame, hiff.mp h⟩⟩
      · exact fun h => hleft (hiff.mp h)
  · refine ⟨?_, hleft⟩
    unfold PresenceState.has
    dsimp only
    rw [force_clients]
    exact hhas

/-- How a step ends a client's lead: it leaves; it has been silent and is not locked; it grants another registered client;
another one takes the lead or claims it while it is locked and has been silent, or claims it while it is not locked; or an
admin forces it. -/
def World.Released (w : World Id) (e : Event Id) (L : Id) : Prop :=
  match e with
  | .arrive _ _ => False
  | .read i => ∃ h ∈ w.unread[i]?,
      (h.body.clientId = some L ∧ h.body.leave = true) ∨
      (w.state.locked = false ∧ w.Silent i h L) ∨
      (h.body.clientId = some L ∧ h.body.action = some .grant ∧
        ∃ target ∈ h.body.target, target ≠ L ∧ (prune w.state h.now).has target = true) ∨
      (h.body.clientId ≠ some L ∧ (h.body.action = some .take ∨ h.body.action = some .claimStarter) ∧
        w.state.locked = true ∧ w.Silent i h L) ∨
      (h.body.clientId ≠ some L ∧ h.body.action = some .claimStarter ∧ w.state.locked = false)
  | .token i isAdmin => isAdmin = true ∧ ∃ h ∈ w.waiting[i]?, h.body.clientId ≠ some L

/-- **The leader** stays the same over a step that does not end its lead. -/
theorem leaderId_step {w w' : World Id} {e : Event Id} {L : Id} (hw : Sound w) (hok : w.InOrder e)
    (hstep : w.step e = some w') (hstays : ¬ w.Released e L) (hL : leaderId w.state = some L) (hleft : ¬ w.Left L) :
    leaderId w'.state = some L ∧ ¬ w'.Left L := by
  rcases step_cases hstep with ⟨now, body, rfl, -, rfl⟩ | ⟨i, r, rfl, hr, hstate, -, -, hhandled⟩ |
    ⟨i, isAdmin, r, client, rfl, hr, hclient, rfl⟩
  · exact ⟨hL, hleft⟩
  · constructor
    · rw [hstate]
      refine leaderId_post hw.orderly hL (fun hreleases => hstays ⟨r, hr, ?_⟩) fun id hid hleave => (hok r hr).2.2 id hid hleave
      have hsilent : (∃ c ∈ w.state.clients, c.id = L ∧ away (some c) r.now = true) → w.Silent i r L := by
        rintro ⟨c, hc, rfl, haway⟩
        exact silent_of_away hw (hok r hr) hc hleft haway
      rcases hreleases with hleave | ⟨hlock, haway⟩ | hgrant | ⟨hother, haction, hlock, haway⟩ | hclaim
      · exact Or.inl hleave
      · exact Or.inr (Or.inl ⟨hlock, hsilent haway⟩)
      · exact Or.inr (Or.inr (Or.inl hgrant))
      · exact Or.inr (Or.inr (Or.inr (Or.inl ⟨hother, haction, hlock, hsilent haway⟩)))
      · exact Or.inr (Or.inr (Or.inr (Or.inr hclaim)))
    · rcases left_read hhandled L with ⟨hsame, hiff⟩ | ⟨-, hiff⟩
      · exact fun h => hstays ⟨r, hr, Or.inl ⟨hsame, hiff.mp h⟩⟩
      · exact fun h => hleft (hiff.mp h)
  · refine ⟨?_, hleft⟩
    dsimp only
    unfold force
    split
    · rename_i hadmin
      by_cases hsame : client = L
      · rw [hsame]
        exact leaderId_designate (has_leader hw.orderly.nodup hL)
      · refine absurd ⟨hadmin, r, hr, fun heq => hsame ?_⟩ hstays
        exact Option.some.inj (hclient.symm.trans heq)
    · exact hL

instance (w : World Id) (e : Event Id) (id : Id) : Decidable (w.Lapses e id) := by
  cases e <;> unfold World.Lapses <;> infer_instance

instance (w : World Id) (e : Event Id) (L : Id) : Decidable (w.Released e L) := by
  cases e <;> unfold World.Released <;> infer_instance

/-! ## Answers -/

/-- The client that a step answers. -/
def World.asker (w : World Id) : Event Id → Option Id
  | .arrive _ _ => none
  | .read i => w.unread[i]?.bind (·.body.clientId)
  | .token i _ => w.waiting[i]?.bind (·.body.clientId)

/-- A step answers a client that it leads. -/
def World.AnswersLeader (w : World Id) (e : Event Id) (id : Id) : Prop :=
  w.asker e = some id ∧ ∃ snapshot, w.answer e = some (.state snapshot) ∧ snapshot.role = .leader

theorem post_answer {s : PresenceState Id} {now : ℕ} {body : Body Id} {snap : Snapshot Id}
    (h : (post s now body).2 = some (.state snap)) :
    ∃ id, body.clientId = some id ∧ body.leave = false ∧ snap = snapshot (post s now body).1 id now := by
  unfold post at h ⊢
  cases hclient : body.clientId with
  | none =>
      rw [hclient] at h
      exact nomatch h
  | some id =>
      rw [hclient] at h
      dsimp only at h ⊢
      refine ⟨id, rfl, ?_⟩
      cases hleave : body.leave with
      | true =>
          rw [hleave, if_pos rfl] at h
          exact nomatch h
      | false =>
          rw [hleave, if_neg (by decide)] at h
          rw [if_neg (by decide)]
          refine ⟨rfl, ?_⟩
          cases htouch : touch (prune s now) id (String.ofList (body.name.toList.take 40)) now with
          | none =>
              rw [htouch] at h
              exact nomatch h
          | some s' =>
              rw [htouch] at h
              dsimp only at h ⊢
              split at h
              · exact nomatch h
              · rename_i hforce
                rw [if_neg hforce]
                exact (Reply.state.inj (Option.some.inj h)).symm

theorem leader_of_role {s : PresenceState Id} {id : Id} {now : ℕ} (h : (snapshot s id now).role = .leader) :
    leaderId s = some id := by
  unfold snapshot at h
  dsimp only at h
  split at h
  · assumption
  · exact nomatch h

/-- **A client that is answered** that it leads does, and has not left unless the answer waited for a token. -/
theorem leads_of_answer {w w' : World Id} {e : Event Id} {id : Id} (hstep : w.step e = some w') (h : w.AnswersLeader e id) :
    leaderId w'.state = some id ∧ ((∃ i, e = .read i) → ¬ w'.Left id) := by
  obtain ⟨hasker, snap, hanswer, hrole⟩ := h
  rcases step_cases hstep with ⟨now, body, rfl, -, -⟩ | ⟨i, r, rfl, hr, hstate, -, -, hhandled⟩ |
    ⟨i, isAdmin, r, client, rfl, hr, hclient, rfl⟩
  · cases hasker
  · rw [World.asker, hr, Option.bind_some] at hasker
    rw [World.answer, hr, Option.bind_some] at hanswer
    obtain ⟨id', hid', hstayed, rfl⟩ := post_answer hanswer
    obtain rfl : id' = id := Option.some.inj (hid'.symm.trans hasker)
    rw [hstate]
    refine ⟨leader_of_role hrole, fun _ hleft => ?_⟩
    rcases left_read hhandled id' with ⟨-, hiff⟩ | ⟨hother, -⟩
    · cases hstayed.symm.trans (hiff.mp hleft)
    · exact hother hid'
  · rw [World.asker, hr, Option.bind_some] at hasker
    rw [World.answer, hr, Option.bind_some, hclient, Option.map_some] at hanswer
    obtain rfl : client = id := Option.some.inj (hclient.symm.trans hasker)
    obtain rfl := Reply.state.inj (Option.some.inj hanswer)
    refine ⟨leader_of_role hrole, ?_⟩
    rintro ⟨_, h⟩
    cases h

/-! ## The claim on runs -/

/-- **Leadership is stable** in every run in order. There are never too many clients, and a lock has a registered leader; a
registered client stays so unless it lapses; a client that is answered that it leads does, and from then on it leads whatever
the others do, unless a step ends its lead. -/
theorem leadership_stable {now : ℕ} {es : List (Event Id)} {w : World Id}
    (hrun : Steps World.step World.InOrder (World.start now) es w) :
    w.state.clients.length ≤ maxClients ∧
      (w.state.locked = true → ∃ id, w.state.designated = some id ∧ w.state.has id = true) ∧
      (∀ id es' w', w.state.has id = true → ¬ w.Left id →
        Steps World.step (fun w e => w.InOrder e ∧ ¬ w.Lapses e id) w es' w' → w'.state.has id = true) ∧
      (∀ e w' id, w.step e = some w' → w.AnswersLeader e id →
        leaderId w'.state = some id ∧ ((∃ i, e = .read i) → ¬ w'.Left id)) ∧
      (∀ id es' w', leaderId w.state = some id → ¬ w.Left id →
        Steps World.step (fun w e => w.InOrder e ∧ ¬ w.Released e id) w es' w' → leaderId w'.state = some id) := by
  have hw := sound_of_steps hrun
  refine ⟨hw.orderly.size, hw.orderly.seat, fun id es' w' hhas hleft hrun' => ?_, fun e w' id hstep => leads_of_answer hstep,
    fun id es' w' hL hleft hrun' => ?_⟩
  · have hkeep (s : World Id) (e : Event Id) (t : World Id) (hs : Sound s ∧ s.state.has id = true ∧ ¬ s.Left id)
        (hok : s.InOrder e ∧ ¬ s.Lapses e id) (hstep : s.step e = some t) :
        Sound t ∧ t.state.has id = true ∧ ¬ t.Left id :=
      ⟨sound_step s e t hs.1 hok.1 hstep, has_step hs.1 hok.1 hstep hok.2 hs.2.1 hs.2.2⟩
    exact (Steps.invariant hkeep ⟨hw, hhas, hleft⟩ hrun').2.1
  · have hkeep (s : World Id) (e : Event Id) (t : World Id) (hs : Sound s ∧ leaderId s.state = some id ∧ ¬ s.Left id)
        (hok : s.InOrder e ∧ ¬ s.Released e id) (hstep : s.step e = some t) :
        Sound t ∧ leaderId t.state = some id ∧ ¬ t.Left id :=
      ⟨sound_step s e t hs.1 hok.1 hstep, leaderId_step hs.1 hok.1 hstep hok.2 hs.2.1 hs.2.2⟩
    exact (Steps.invariant hkeep ⟨hw, hL, hleft⟩ hrun').2.1

/-- Ana and Bo arrive; Ana locks the lead while Bo's request for it is under way. -/
def pitWall : List (Event String) :=
  [.arrive 100000 { clientId := some "ana", name := "Ana" }, .read 0,
    .arrive 101000 { clientId := some "bo", name := "Bo" },
    .arrive 102000 { clientId := some "ana", action := some .lock }, .read 1, .read 0]

/-- Ana is silent while Bo asks for the lead and tries to take it too early. -/
def pitWallLater : List (Event String) :=
  [.arrive 110000 { clientId := some "bo", action := some .request }, .read 0,
    .arrive 112000 { clientId := some "bo", action := some .take }, .read 0]

/-- The server after the first of them. -/
def pitWallWorld : World String := (play World.step World.InOrder (World.start 100000) pitWall).getD (World.start 0)

/-- The server after both. -/
def pitWallLaterWorld : World String :=
  (play World.step (fun w e => w.InOrder e ∧ ¬ w.Released e "ana") pitWallWorld pitWallLater).getD (World.start 0)

theorem leadership_stable_pit_wall :
    Steps World.step World.InOrder (World.start 100000) pitWall pitWallWorld ∧ pitWallWorld.state.locked = true ∧
      Steps World.step (fun w e => w.InOrder e ∧ ¬ w.Released e "ana") pitWallWorld pitWallLater pitWallLaterWorld ∧
      pitWallLaterWorld.state.requests ≠ [] ∧ leaderId pitWallLaterWorld.state = some "ana" := by
  have hrun : Steps World.step World.InOrder (World.start 100000) pitWall pitWallWorld :=
    steps_of_play (by decide)
  have hrun' : Steps World.step (fun w e => w.InOrder e ∧ ¬ w.Released e "ana") pitWallWorld pitWallLater
      pitWallLaterWorld := steps_of_play (by decide)
  refine ⟨hrun, by decide, hrun', by decide, ?_⟩
  exact (leadership_stable hrun).2.2.2.2 "ana" _ _ (by decide) (by decide) hrun'

/-- Bo and Ana arrive in one millisecond: Bo is told that he leads, and then Ana's first request makes her the leader. -/
def tie : List (Event String) :=
  [.arrive 100000 { clientId := some "bo" }, .arrive 100000 { clientId := some "ana" }, .read 0]

/-- Ana's first request is read behind her second, and Bo's finds her away one second after the second arrived. -/
def overtaken : List (Event String) :=
  [.arrive 100000 { clientId := some "ana" }, .arrive 119000 { clientId := some "ana" }, .read 1, .read 0,
    .arrive 120000 { clientId := some "bo" }, .read 0]

/-- Bo forces Ana's locked lead and leaves before his token is there. -/
def forcedAndLeft : List (Event String) :=
  [.arrive 100000 { clientId := some "ana" }, .read 0, .arrive 100001 { clientId := some "ana", action := some .lock }, .read 0,
    .arrive 100002 { clientId := some "bo", action := some .force }, .read 0,
    .arrive 100003 { clientId := some "bo", leave := true }, .read 0, .token 0 true]

/-- A first request changes the leader; a client is dropped whose last request arrived a second ago; a lock has no leader. -/
theorem not_leadership_stable_always :
    ((play World.step always (World.start 100000) tie).map fun w =>
        (leaderId w.state, decide (w.Released (.read 0) "bo"), (w.step (.read 0)).map fun w' => leaderId w'.state)) =
      some (some "bo", false, some (some "ana")) ∧
    ((play World.step always (World.start 100000) overtaken).map fun w =>
        (w.clock, w.handled.map (·.now), w.state.has "ana")) = some (120000, [120000, 100000, 119000], false) ∧
    ((play World.step always (World.start 100000) forcedAndLeft).map fun w =>
        (w.state.locked, w.state.designated, w.state.has "bo")) = some (true, some "bo", false) := by
  refine ⟨?_, ?_, ?_⟩
  · decide
  · decide
  · decide

end Lhre.Presence
