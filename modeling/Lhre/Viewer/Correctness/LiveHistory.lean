import Lhre.Viewer.LiveStream

/-!
# `Viewer.Correctness.LiveHistory` — what a stream has of its topics

A stream that asks for the whole history has an end of what was published on each of its topics, from at most the buffer's size before
it came. Nothing is missed between what it replays and what it follows, and nothing is written twice. This is so as long as no stream
is cancelled before its request is aborted: one that is stays on the bus and blocks its topics for good.

## Contents
- **Messages to streams.** `Url.takes`, `emit_eq`, `filter_takes`.
- **The invariant.** `Server.Ok`, a lemma for each operation, `ok_step`, `ok_run`.
- **Streams that are read.** `Follows`, `follows_step`, `follows_run`; `stream_resumes`.
- **Streams that are cancelled.** `Blocked`, `blocked_step`; `cancelled_blocks`.
-/

namespace Lhre.Viewer

variable {s : Server} {w : World} {url : Url} {msg : KafkaEvent} {t : String} {id n : ℕ}

/-! ## Messages to streams -/

/-- The messages of a topic. -/
def onTopic (t : String) (msgs : List KafkaEvent) : List KafkaEvent := msgs.filter fun msg => msg.topic = t

/-- What is written to a stream for a message: it has a handler for each time its request names the topic. -/
def Url.takes (url : Url) (msg : KafkaEvent) : List KafkaEvent :=
  if wants url.path.car msg then List.replicate (url.requested.count msg.topic) msg else []

@[simp] theorem onTopic_append (a b : List KafkaEvent) : onTopic t (a ++ b) = onTopic t a ++ onTopic t b :=
  List.filter_append _ _

@[simp] theorem onTopic_nil : onTopic t [] = [] := rfl

theorem mem_onTopic {msgs : List KafkaEvent} : msg ∈ onTopic t msgs ↔ msg ∈ msgs ∧ msg.topic = t := by
  simp [onTopic]

theorem onTopic_singleton : onTopic t [msg] = if msg.topic = t then [msg] else [] := by
  by_cases h : msg.topic = t <;> simp [onTopic, h]

/-- A stream after a message for which it has some handlers. -/
def Conn.after (c : Conn) (msg : KafkaEvent) (n : ℕ) : Conn :=
  { c with out := c.out ++ if wants c.url.path.car msg then List.replicate n msg else [] }

theorem Conn.after_zero (c : Conn) (msg : KafkaEvent) : c.after msg 0 = c := by
  show { c with out := c.out ++ if _ then [] else [] } = c
  rw [ite_self, List.append_nil]

/-- **A message reaches every stream once for each of its handlers**, if all of them take data. -/
theorem emit_eq (msg : KafkaEvent) {handlers : List (ℕ × String)} {conns : List Conn}
    (hopen : ∀ handler ∈ handlers, ∀ c : Conn, conns[handler.1]? = some c → c.writable = true) :
    (emit msg handlers conns).2 = true ∧
      ∀ id : ℕ, (emit msg handlers conns).1[id]? = conns[id]?.map fun c => c.after msg (handlers.count (id, msg.topic)) := by
  induction handlers generalizing conns with
  | nil =>
      refine ⟨rfl, fun id => ?_⟩
      show conns[id]? = _
      simp [Conn.after_zero]
  | cons handler handlers ih =>
      obtain ⟨k, topic⟩ := handler
      have hrest : ∀ handler ∈ handlers, ∀ c : Conn, conns[handler.1]? = some c → c.writable = true :=
        fun handler hmem => hopen handler (List.mem_cons_of_mem _ hmem)
      unfold emit
      by_cases htopic : topic = msg.topic
      · rw [if_pos htopic]
        cases hc : conns[k]? with
        | none =>
            dsimp only
            refine ⟨(ih hrest).1, fun id => ?_⟩
            rw [(ih hrest).2 id]
            by_cases hid : k = id
            · rw [← hid, hc]
              rfl
            · rw [List.count_cons_of_ne (by simp [hid])]
        | some c =>
            have hw : c.writable = true := hopen (k, topic) List.mem_cons_self c hc
            dsimp only
            by_cases hwants : wants c.url.path.car msg = true
            · rw [if_pos hwants, if_pos hw]
              have hrest' : ∀ handler ∈ handlers, ∀ c' : Conn, (conns.set k { c with out := c.out ++ [msg] })[handler.1]? = some c' →
                  c'.writable = true := by
                intro handler hmem c' hc'
                rw [List.getElem?_set] at hc'
                split at hc'
                · split at hc'
                  · rw [← Option.some.inj hc']
                    exact hw
                  · cases hc'
                · exact hrest handler hmem c' hc'
              refine ⟨(ih hrest').1, fun id => ?_⟩
              rw [(ih hrest').2 id]
              by_cases hid : k = id
              · have hlt : k < conns.length := (List.getElem?_eq_some_iff.mp hc).1
                rw [← hid, hc, List.getElem?_set_self hlt, htopic, List.count_cons_self]
                simp only [Option.map_some, Conn.after, hwants, if_true, Option.some.injEq]
                rw [List.append_assoc, List.singleton_append, List.replicate_succ]
              · rw [List.getElem?_set_ne hid, List.count_cons_of_ne (by simp [hid])]
            · rw [if_neg hwants]
              refine ⟨(ih hrest).1, fun id => ?_⟩
              rw [(ih hrest).2 id]
              by_cases hid : k = id
              · rw [← hid, hc]
                simp only [Option.map_some, Conn.after, hwants, Bool.false_eq_true, if_false]
              · rw [List.count_cons_of_ne (by simp [hid])]
      · rw [if_neg htopic]
        refine ⟨(ih hrest).1, fun id => ?_⟩
        rw [(ih hrest).2 id, List.count_cons_of_ne (by simp [htopic])]

/-- What a stream takes of a topic it asks for once is what it wants of the topic. -/
theorem filter_takes (hnodup : url.requested.Nodup) (ht : t ∈ url.requested) (msgs : List KafkaEvent) :
    onTopic t (msgs.flatMap url.takes) = (onTopic t msgs).filter (wants url.path.car) := by
  induction msgs with
  | nil => rfl
  | cons msg msgs ih =>
      rw [List.flatMap_cons, onTopic_append, ih, ← List.singleton_append, onTopic_append, List.filter_append]
      congr 1
      rw [onTopic_singleton]
      unfold Url.takes
      by_cases hwants : wants url.path.car msg = true
      · rw [if_pos hwants]
        by_cases htopic : msg.topic = t
        · rw [if_pos htopic, htopic, List.count_eq_one_of_mem hnodup ht, List.replicate_one, onTopic_singleton, if_pos htopic]
          simp [hwants]
        · rw [if_neg htopic]
          apply List.filter_eq_nil_iff.mpr
          intro e he
          rw [List.eq_of_mem_replicate he]
          simp [htopic]
      · rw [if_neg hwants]
        by_cases htopic : msg.topic = t <;> simp [htopic, hwants]

/-! ## The invariant -/

/-- What holds as long as no stream is cancelled before its abort. -/
structure Server.Ok (s : Server) : Prop where
  numbered : ∀ (i : ℕ) (e : KafkaEvent), s.published[i]? = some e → e.serial = i
  cleared : s.cleared ≤ s.published.length
  kept : ∀ t, s.buffers t = (onTopic t (s.published.drop s.cleared)).rtake bufferSize
  onBus : ∀ (id : ℕ) (c : Conn), s.conns[id]? = some c → ∀ t, s.handlers.count (id, t) = if c.closed then 0 else c.url.requested.count t
  known : ∀ handler ∈ s.handlers, handler.1 < s.conns.length
  writable : ∀ (id : ℕ) (c : Conn), s.conns[id]? = some c → c.writable = !c.closed

theorem Server.Ok.start : ({} : Server).Ok where
  numbered := by simp
  cleared := le_rfl
  kept := fun t => by rw [List.drop_nil, onTopic_nil, List.rtake_nil]
  onBus := by simp
  known := by simp
  writable := by simp

/-- Only open streams have handlers. -/
theorem Server.Ok.open (h : s.Ok) : ∀ handler ∈ s.handlers, ∀ c : Conn, s.conns[handler.1]? = some c → c.writable = true := by
  rintro ⟨k, topic⟩ hmem c hc
  have hcount := h.onBus k c hc topic
  have hpos : 0 < s.handlers.count (k, topic) := List.count_pos_iff.mpr hmem
  rw [h.writable k c hc]
  cases hclosed : c.closed with
  | false => rfl
  | true =>
      rw [hclosed, if_pos rfl] at hcount
      omega

/-- **A publication** is kept, and every open stream that asks for its topic takes it. -/
theorem Server.Ok.publish_eq (h : s.Ok) (event : KafkaEvent) :
    (s.publish event).buffers = bufferMessage s.buffers { event with serial := s.published.length } ∧
      ∀ id : ℕ, (s.publish event).conns[id]? = s.conns[id]?.map fun c =>
        if c.closed then c else { c with out := c.out ++ c.url.takes { event with serial := s.published.length } } := by
  obtain ⟨hret, hconns⟩ := emit_eq { event with serial := s.published.length } h.open
  constructor
  · show (if (emit _ s.handlers s.conns).2 = true then _ else _) = _
    rw [if_pos hret]
  · intro id
    show (emit _ s.handlers s.conns).1[id]? = _
    rw [hconns id]
    cases hc : s.conns[id]? with
    | none => rfl
    | some c =>
        simp only [Option.map_some, Option.some.injEq]
        rw [h.onBus id c hc]
        cases hclosed : c.closed with
        | true =>
            rw [if_pos rfl, Conn.after_zero]
            simp
        | false => simp [Conn.after, Url.takes, hclosed]

theorem Server.Ok.publish (h : s.Ok) (event : KafkaEvent) : (s.publish event).Ok := by
  obtain ⟨hbuffers, hconns⟩ := h.publish_eq event
  have hpub : (s.publish event).published = s.published ++ [{ event with serial := s.published.length }] := rfl
  refine ⟨?_, ?_, ?_, ?_, ?_, ?_⟩
  · intro i e he
    rw [hpub, List.getElem?_append] at he
    split at he
    · exact h.numbered i e he
    · rename_i hge
      have hi : i - s.published.length = 0 := by
        have := (List.getElem?_eq_some_iff.mp he).1
        simp only [List.length_singleton] at this
        omega
      rw [hi] at he
      rw [← Option.some.inj he]
      show s.published.length = i
      omega
  · show s.cleared ≤ (s.published ++ _).length
    rw [List.length_append]
    exact h.cleared.trans (Nat.le_add_right _ _)
  · intro t
    rw [hbuffers, hpub]
    show bufferMessage s.buffers _ t = (onTopic t ((s.published ++ _).drop s.cleared)).rtake bufferSize
    rw [List.drop_append_of_le_length h.cleared, onTopic_append, onTopic_singleton]
    unfold bufferMessage
    by_cases htopic : event.topic = t
    · subst htopic
      rw [if_pos rfl, ← ReplayBuffer.push_rtake, ← h.kept]
      exact Function.update_self _ _ _
    · rw [if_neg htopic, List.append_nil, ← h.kept]
      exact Function.update_of_ne (Ne.symm htopic) _ _
  · intro id c' hc' t
    rw [hconns id] at hc'
    obtain ⟨c, hc, rfl⟩ := Option.map_eq_some_iff.mp hc'
    show s.handlers.count (id, t) = _
    rw [h.onBus id c hc]
    cases hclosed : c.closed <;> simp [hclosed]
  · intro handler hmem
    obtain ⟨c, hc⟩ : ∃ c, s.conns[handler.1]? = some c := ⟨_, List.getElem?_eq_getElem (h.known handler hmem)⟩
    have hsome := hconns handler.1
    rw [hc] at hsome
    exact (List.getElem?_eq_some_iff.mp hsome).1
  · intro id c' hc'
    rw [hconns id] at hc'
    obtain ⟨c, hc, rfl⟩ := Option.map_eq_some_iff.mp hc'
    have := h.writable id c hc
    cases hclosed : c.closed <;> simp [hclosed, this]

theorem Server.Ok.clearAllBuffers (h : s.Ok) : s.clearAllBuffers.Ok where
  numbered := h.numbered
  cleared := le_rfl
  kept := fun t => by
    show [] = (onTopic t (s.published.drop s.published.length)).rtake bufferSize
    rw [List.drop_length, onTopic_nil, List.rtake_nil]
  onBus := h.onBus
  known := h.known
  writable := h.writable

/-- The stream that a request opens, and its handlers. -/
theorem Server.connect_eq (hreq : url.requested ≠ []) :
    s.connect url =
      { s with
        conns := s.conns ++ [{ url := url, out := replay s.buffers url }]
        handlers := s.handlers ++ url.requested.map fun t => (s.conns.length, t) } :=
  if_neg hreq

theorem count_handlers (topics : List String) (k id : ℕ) (t : String) :
    (topics.map fun t => (k, t)).count (id, t) = if k = id then topics.count t else 0 := by
  by_cases hid : k = id
  · subst hid
    rw [if_pos rfl]
    exact List.count_map_of_injective topics _ (fun a b hab => (Prod.mk.inj hab).2) t
  · rw [if_neg hid]
    apply List.count_eq_zero.mpr
    intro hmem
    obtain ⟨_, -, heq⟩ := List.mem_map.mp hmem
    exact hid (Prod.mk.inj heq).1

theorem Server.Ok.connect (h : s.Ok) (url : Url) : (s.connect url).Ok := by
  by_cases hreq : url.requested = []
  · rw [show s.connect url = s from if_pos hreq]
    exact h
  rw [Server.connect_eq hreq]
  have hfresh : ∀ t, s.handlers.count (s.conns.length, t) = 0 := by
    intro t
    apply List.count_eq_zero.mpr
    intro hmem
    exact absurd (h.known _ hmem) (lt_irrefl _)
  refine ⟨h.numbered, h.cleared, h.kept, ?_, ?_, ?_⟩
  · intro id c hc t
    simp only [] at hc ⊢
    rw [List.count_append, count_handlers]
    rcases Nat.lt_trichotomy id s.conns.length with hlt | heq | hgt
    · rw [List.getElem?_append_left hlt] at hc
      rw [if_neg (Nat.ne_of_gt hlt), Nat.add_zero]
      exact h.onBus id c hc t
    · subst heq
      rw [List.getElem?_concat_length] at hc
      rw [← Option.some.inj hc, hfresh, if_pos rfl, Nat.zero_add]
      rfl
    · rw [List.getElem?_eq_none (by rw [List.length_append]; exact hgt)] at hc
      cases hc
  · intro handler hmem
    rw [List.length_append, List.length_singleton]
    rcases List.mem_append.mp hmem with hold | hnew
    · exact Nat.lt_succ_of_lt (h.known handler hold)
    · obtain ⟨t, -, rfl⟩ := List.mem_map.mp hnew
      exact Nat.lt_succ_self _
  · intro id c hc
    simp only [] at hc
    rw [List.getElem?_append] at hc
    split at hc
    · exact h.writable id c hc
    · rw [List.getElem?_singleton] at hc
      split at hc
      · rw [← Option.some.inj hc]
        rfl
      · cases hc

theorem Server.Ok.abort (h : s.Ok) (id : ℕ) : (s.abort id).Ok := by
  unfold Server.abort
  cases hc : s.conns[id]? with
  | none => exact h
  | some c =>
      simp only []
      cases hclosed : c.closed with
      | true =>
          rw [if_pos rfl]
          exact h
      | false =>
          rw [if_neg (by simp)]
          have hlt : id < s.conns.length := (List.getElem?_eq_some_iff.mp hc).1
          refine ⟨h.numbered, h.cleared, h.kept, ?_, ?_, ?_⟩
          · intro k c' hc' t
            simp only [List.getElem?_set] at hc' ⊢
            by_cases hid : id = k
            · subst hid
              rw [if_pos rfl, if_pos hlt] at hc'
              rw [← Option.some.inj hc']
              simp only [if_true]
              apply List.count_eq_zero.mpr
              simp
            · rw [if_neg hid] at hc'
              rw [List.count_filter (by simp [Ne.symm hid])]
              exact h.onBus k c' hc' t
          · intro handler hmem
            rw [List.length_set]
            exact h.known handler (List.mem_of_mem_filter hmem)
          · intro k c' hc'
            simp only [List.getElem?_set] at hc'
            by_cases hid : id = k
            · subst hid
              rw [if_pos rfl, if_pos hlt] at hc'
              rw [← Option.some.inj hc']
              rfl
            · rw [if_neg hid] at hc'
              exact h.writable k c' hc'

/-- A stream that was aborted is the same after it is cancelled. -/
theorem Server.Ok.cancel_eq (h : s.Ok) (hclosed : ∀ c : Conn, s.conns[id]? = some c → c.closed = true) : s.cancel id = s := by
  have hsame : s.conns.modify id (fun c => { c with closed := true, writable := false }) = s.conns := by
    apply List.ext_getElem?
    intro k
    rw [List.getElem?_modify]
    cases hc : s.conns[k]? with
    | none => rfl
    | some c =>
        show some (if id = k then { c with closed := true, writable := false } else c) = some c
        by_cases hid : id = k
        · subst hid
          have hclosed' : c.closed = true := hclosed c hc
          have hwritable : c.writable = false := by
            rw [h.writable id c hc, hclosed']
            rfl
          rw [if_pos rfl, ← hclosed', ← hwritable]
        · rw [if_neg hid]
  show { s with conns := _ } = s
  rw [hsame]

/-- A stream is cancelled only after its request was aborted. -/
def Event.Orderly (s : Server) : Event → Prop
  | .cancel id => ∀ c : Conn, s.conns[id]? = some c → c.closed = true
  | _ => True

/-- Events of which each is orderly where it happens. -/
def Orderly (w : World) : List Event → Prop
  | [] => True
  | e :: es => e.Orderly w.server ∧ Orderly (w.step e) es

theorem orderly_append {w : World} {es es' : List Event} :
    Orderly w (es ++ es') ↔ Orderly w es ∧ Orderly (w.run es) es' := by
  induction es generalizing w with
  | nil => simp [Orderly, World.run]
  | cons e es ih =>
      show e.Orderly w.server ∧ Orderly (w.step e) (es ++ es') ↔ (e.Orderly w.server ∧ Orderly (w.step e) es) ∧ _
      rw [ih, and_assoc]
      rfl

/-- What an event does to the server. -/
theorem server_step (w : World) (e : Event) :
    (w.step e).server = w.server ∨ (∃ event, e = .publish event ∧ (w.step e).server = w.server.publish event) ∨
      (e = .clearAllBuffers ∧ (w.step e).server = w.server.clearAllBuffers) ∨
      (∃ url, (w.step e).server = w.server.connect url) ∨
      (∃ id, e = .abort id ∧ (w.step e).server = w.server.abort id) ∨
      ∃ id, e = .cancel id ∧ (w.step e).server = w.server.cancel id := by
  cases e with
  | publish event => exact Or.inr (Or.inl ⟨event, rfl, rfl⟩)
  | clearAllBuffers => exact Or.inr (Or.inr (Or.inl ⟨rfl, rfl⟩))
  | connect url => exact Or.inr (Or.inr (Or.inr (Or.inl ⟨url, rfl⟩)))
  | abort id => exact Or.inr (Or.inr (Or.inr (Or.inr (Or.inl ⟨id, rfl, rfl⟩))))
  | cancel id => exact Or.inr (Or.inr (Or.inr (Or.inr (Or.inr ⟨id, rfl, rfl⟩))))
  | subscribe topic handler path => exact Or.inl rfl
  | unsubscribe topic handler => exact Or.inl rfl
  | setPath next => exact Or.inl rfl
  | restart => exact Or.inl rfl
  | stop => exact Or.inl rfl
  | accept =>
      show w.accept.server = _ ∨ _ ∨ _ ∨ (∃ url, w.accept.server = _) ∨ _
      unfold World.accept
      split
      · split
        · exact Or.inl rfl
        · exact Or.inr (Or.inr (Or.inr (Or.inl ⟨_, rfl⟩)))
      · exact Or.inl rfl
  | deliver =>
      left
      show w.deliver.server = _
      unfold World.deliver
      split
      · split <;> rfl
      · rfl
  | lost => exact Or.inl rfl

theorem ok_step (h : w.server.Ok) {e : Event} (ho : e.Orderly w.server) : (w.step e).server.Ok := by
  obtain hs | ⟨event, rfl, hs⟩ | ⟨rfl, hs⟩ | ⟨url, hs⟩ | ⟨id, rfl, hs⟩ | ⟨id, rfl, hs⟩ := server_step w e
  · rw [hs]
    exact h
  · rw [hs]
    exact h.publish event
  · rw [hs]
    exact h.clearAllBuffers
  · rw [hs]
    exact h.connect url
  · rw [hs]
    exact h.abort id
  · rw [hs, h.cancel_eq ho]
    exact h

theorem ok_run {es : List Event} (h : w.server.Ok) (ho : Orderly w es) : (w.run es).server.Ok := by
  induction es generalizing w with
  | nil => exact h
  | cons e es ih => exact ih (ok_step h ho.1) ho.2

theorem run_append (w : World) (es es' : List Event) : w.run (es ++ es') = (w.run es).run es' := List.foldl_append

/-- What an event publishes. -/
def Event.published (s : Server) : Event → List KafkaEvent
  | .publish event => [{ event with serial := s.published.length }]
  | _ => []

/-- What was published stays published. -/
theorem published_step (w : World) (e : Event) :
    (w.step e).server.published = w.server.published ++ e.published w.server := by
  have hconnect : ∀ url : Url, (w.server.connect url).published = w.server.published := by
    intro url
    unfold Server.connect
    split <;> rfl
  have habort : ∀ id : ℕ, (w.server.abort id).published = w.server.published := by
    intro id
    unfold Server.abort
    split
    · rfl
    · split <;> rfl
  cases e with
  | publish event => rfl
  | connect url =>
      show (w.server.connect url).published = _ ++ []
      rw [hconnect, List.append_nil]
  | abort id =>
      show (w.server.abort id).published = _ ++ []
      rw [habort, List.append_nil]
  | accept =>
      show w.accept.server.published = _ ++ []
      rw [List.append_nil]
      unfold World.accept
      split
      · split
        · rfl
        · exact hconnect _
      · rfl
  | deliver =>
      show w.deliver.server.published = _ ++ []
      rw [List.append_nil]
      unfold World.deliver
      split
      · split <;> rfl
      · rfl
  | clearAllBuffers => exact (List.append_nil _).symm
  | cancel id => exact (List.append_nil _).symm
  | subscribe topic handler path => exact (List.append_nil _).symm
  | unsubscribe topic handler => exact (List.append_nil _).symm
  | setPath next => exact (List.append_nil _).symm
  | restart => exact (List.append_nil _).symm
  | stop => exact (List.append_nil _).symm
  | lost => exact (List.append_nil _).symm

theorem published_run (w : World) (es : List Event) : w.server.published <+: (w.run es).server.published := by
  induction es generalizing w with
  | nil => exact List.prefix_rfl
  | cons e es ih =>
      have hstep : w.server.published <+: (w.step e).server.published := ⟨_, (published_step w e).symm⟩
      exact hstep.trans (ih (w.step e))

/-! ## Streams that are read -/

/-- A stream is open, and has since a moment been written what it takes of what was published. -/
structure Follows (id : ℕ) (url : Url) (before : List KafkaEvent) (since : ℕ) (s : Server) : Prop where
  past : since ≤ s.published.length
  stream : s.conns[id]? = some { url := url, out := before ++ (s.published.drop since).flatMap url.takes }

theorem Follows.publish {before : List KafkaEvent} (h : Follows id url before n s) (hok : s.Ok) (event : KafkaEvent) :
    Follows id url before n (s.publish event) := by
  refine ⟨?_, ?_⟩
  · show n ≤ (s.published ++ _).length
    rw [List.length_append]
    exact h.past.trans (Nat.le_add_right _ _)
  · rw [(hok.publish_eq event).2 id, h.stream]
    show some _ = some ({ url := url, out := before ++ ((s.published ++ [_]).drop n).flatMap url.takes } : Conn)
    rw [List.drop_append_of_le_length h.past, List.flatMap_append, List.flatMap_singleton, ← List.append_assoc]
    rfl

theorem Follows.connect {before : List KafkaEvent} (h : Follows id url before n s) (url' : Url) :
    Follows id url before n (s.connect url') := by
  by_cases hreq : url'.requested = []
  · rw [show s.connect url' = s from if_pos hreq]
    exact h
  · rw [Server.connect_eq hreq]
    refine ⟨h.past, ?_⟩
    show (s.conns ++ _)[id]? = _
    rw [List.getElem?_append_left (List.getElem?_eq_some_iff.mp h.stream).1]
    exact h.stream

theorem Follows.abort {before : List KafkaEvent} (h : Follows id url before n s) {k : ℕ} (hk : k ≠ id) :
    Follows id url before n (s.abort k) := by
  unfold Server.abort
  split
  · exact h
  · split
    · exact h
    · refine ⟨h.past, ?_⟩
      show (s.conns.set k _)[id]? = _
      rw [List.getElem?_set_ne hk]
      exact h.stream

/-- **A stream follows its topics** until it is aborted. -/
theorem follows_step {before : List KafkaEvent} (h : Follows id url before n w.server) (hok : w.server.Ok) {e : Event}
    (ho : e.Orderly w.server) (he : e ≠ .abort id) : Follows id url before n (w.step e).server := by
  obtain hs | ⟨event, rfl, hs⟩ | ⟨rfl, hs⟩ | ⟨url', hs⟩ | ⟨k, rfl, hs⟩ | ⟨k, rfl, hs⟩ := server_step w e
  · rw [hs]
    exact h
  · rw [hs]
    exact h.publish hok event
  · rw [hs]
    exact ⟨h.past, h.stream⟩
  · rw [hs]
    exact h.connect url'
  · rw [hs]
    exact h.abort (fun hk => he (hk ▸ rfl))
  · rw [hs, hok.cancel_eq ho]
    exact h

theorem follows_run {before : List KafkaEvent} {es : List Event} (h : Follows id url before n w.server)
    (hok : w.server.Ok) (ho : Orderly w es) (habort : .abort id ∉ es) : Follows id url before n (w.run es).server := by
  induction es generalizing w with
  | nil => exact h
  | cons e es ih =>
      have he : e ≠ .abort id := fun heq => habort (heq ▸ List.mem_cons_self)
      exact ih (follows_step h hok ho.1 he) (ok_step hok ho.1) ho.2 fun hmem => habort (List.mem_cons_of_mem _ hmem)

/-- A new stream follows its topics. -/
theorem Server.follows_connect (hreq : url.requested ≠ []) :
    Follows s.conns.length url (replay s.buffers url) s.published.length (s.connect url) := by
  rw [Server.connect_eq hreq]
  refine ⟨le_rfl, ?_⟩
  show (s.conns ++ [_])[s.conns.length]? = some { url := url, out := _ ++ (s.published.drop s.published.length).flatMap _ }
  rw [List.getElem?_concat_length, List.drop_length, List.flatMap_nil, List.append_nil]

/-- What a mode replays of the kept messages of a topic. -/
def HistoryMode.part (mode : HistoryMode) (buffer : List KafkaEvent) : List KafkaEvent :=
  match mode with
  | .none => []
  | .latest => buffer.getLast?.toList
  | .all => buffer

theorem HistoryMode.part_sublist (mode : HistoryMode) (buffer : List KafkaEvent) : (mode.part buffer).Sublist buffer := by
  cases mode with
  | none => exact List.nil_sublist _
  | latest =>
      show buffer.getLast?.toList.Sublist buffer
      cases h : buffer.getLast? with
      | none => exact List.nil_sublist _
      | some e => exact List.singleton_sublist.mpr (List.mem_of_getLast? h)
  | all => exact List.Sublist.refl _

theorem replay_eq (buffers : String → List KafkaEvent) (url : Url) :
    replay buffers url = url.requested.flatMap fun t => (url.path.history.part (buffers t)).filter (wants url.path.car) := by
  unfold replay HistoryMode.part
  cases url.path.history <;> simp

/-- Only messages of the topic are kept for it. -/
theorem Server.Ok.topic (hok : s.Ok) {e : KafkaEvent} (he : e ∈ s.buffers t) : e.topic = t := by
  rw [hok.kept t] at he
  exact (mem_onTopic.mp ((ReplayBuffer.rtake_sublist _).subset he)).2

/-- What a stream replays of a topic: nothing unless it asks for it. -/
theorem onTopic_replay (hok : s.Ok) (hnodup : url.requested.Nodup) :
    onTopic t (replay s.buffers url) =
      if t ∈ url.requested then (url.path.history.part (s.buffers t)).filter (wants url.path.car) else [] := by
  rw [replay_eq]
  have htopic : ∀ t' e, e ∈ (url.path.history.part (s.buffers t')).filter (wants url.path.car) → e.topic = t' :=
    fun t' e he => hok.topic ((url.path.history.part_sublist _).subset (List.mem_of_mem_filter he))
  have hown : onTopic t ((url.path.history.part (s.buffers t)).filter (wants url.path.car)) =
      (url.path.history.part (s.buffers t)).filter (wants url.path.car) := by
    apply List.filter_eq_self.mpr
    intro e he
    simp [htopic t e he]
  have hother : ∀ t', t' ≠ t → onTopic t ((url.path.history.part (s.buffers t')).filter (wants url.path.car)) = [] := by
    intro t' hne
    apply List.filter_eq_nil_iff.mpr
    intro e he
    simp [htopic t' e he, hne]
  generalize url.requested = topics at hnodup
  induction topics with
  | nil => rfl
  | cons t' topics ih =>
      rw [List.flatMap_cons, onTopic_append, ih (List.nodup_cons.mp hnodup).2]
      by_cases hne : t' = t
      · subst hne
        rw [hown, if_neg (List.nodup_cons.mp hnodup).1, if_pos List.mem_cons_self, List.append_nil]
      · rw [hother t' hne, List.nil_append]
        simp [Ne.symm hne]

/-- **A stream with its history has an end of each topic**: of what was published since the buffers were cleared it leaves out no more
    than what the buffer had dropped when it came, and each message that it wants is there once and in order. -/
theorem stream_resumes (es es' : List Event) (url : Url) (ho : Orderly {} (es ++ .connect url :: es'))
    (hall : url.path.history = .all) (hnodup : url.requested.Nodup) (ht : t ∈ url.requested)
    (hread : .abort (World.run {} es).server.conns.length ∉ es') :
    ∃ c, (World.run {} (es ++ .connect url :: es')).server.conns[(World.run {} es).server.conns.length]? = some c ∧
      onTopic t c.out =
        ((onTopic t ((World.run {} (es ++ .connect url :: es')).server.published.drop (World.run {} es).server.cleared)).drop
          ((onTopic t ((World.run {} es).server.published.drop (World.run {} es).server.cleared)).length - bufferSize)).filter
          (wants url.path.car) := by
  obtain ⟨ho₁, -, ho₂⟩ := orderly_append.mp ho
  have hreq : url.requested ≠ [] := List.ne_nil_of_mem ht
  rw [run_append]
  have hok := ok_run Server.Ok.start ho₁
  generalize World.run {} es = w at hok hread ho₂ ⊢
  have hstart : Follows w.server.conns.length url (replay w.server.buffers url) w.server.published.length
      (w.step (.connect url)).server := Server.follows_connect hreq
  have hend := follows_run hstart (hok.connect url) ho₂ hread
  refine ⟨_, hend.stream, ?_⟩
  obtain ⟨since, hsince⟩ := published_run (w.step (.connect url)) es'
  have hsame : (w.step (.connect url)).server.published = w.server.published := by
    show (w.server.connect url).published = _
    rw [Server.connect_eq hreq]
  rw [hsame] at hsince
  show onTopic t (_ ++ List.flatMap _ (((w.step (.connect url)).run es').server.published.drop _)) =
    ((onTopic t (((w.step (.connect url)).run es').server.published.drop _)).drop _).filter _
  rw [onTopic_append, filter_takes hnodup ht, onTopic_replay hok hnodup, if_pos ht, hall]
  show (w.server.buffers t).filter _ ++ _ = _
  rw [hok.kept t, ← List.filter_append, ← hsince, List.drop_left, List.drop_append_of_le_length hok.cleared, onTopic_append, ReplayBuffer.rtake_append_since]

/-- A stream for the speeds with their history. -/
def speedStream : Url := { path := { history := .all }, topics := ["speed"] }

/-- It has the speed from before it came, and the one from after. -/
theorem stream_resumes_speed :
    ∃ c, (World.run {} ([.publish { topic := "speed" }] ++ .connect speedStream :: [.publish { topic := "speed" }])).server.conns[(World.run {}
        [.publish { topic := "speed" }]).server.conns.length]? = some c ∧
      onTopic "speed" c.out =
        ((onTopic "speed" ((World.run {} ([.publish { topic := "speed" }] ++ .connect speedStream ::
            [.publish { topic := "speed" }])).server.published.drop (World.run {} [.publish { topic := "speed" }]).server.cleared)).drop
          ((onTopic "speed" ((World.run {} [.publish { topic := "speed" }]).server.published.drop
            (World.run {} [.publish { topic := "speed" }]).server.cleared)).length - bufferSize)).filter
          (wants speedStream.path.car) :=
  stream_resumes [.publish { topic := "speed" }] [.publish { topic := "speed" }] speedStream ⟨trivial, trivial, trivial, trivial⟩ rfl
    (by decide) (by decide) (by simp)

/-! ## Streams that are cancelled -/

/-- What a message can do to a stream. -/
theorem emit_grows (msg : KafkaEvent) {handlers : List (ℕ × String)} {conns : List Conn} {c' : Conn} {k : ℕ}
    (hc' : (emit msg handlers conns).1[k]? = some c') :
    ∃ c j, conns[k]? = some c ∧ c' = { c with out := c.out ++ List.replicate j msg } := by
  induction handlers generalizing conns with
  | nil => exact ⟨c', 0, hc', by simp⟩
  | cons handler handlers ih =>
      obtain ⟨i, topic⟩ := handler
      unfold emit at hc'
      split at hc'
      · split at hc'
        · exact ih hc'
        · rename_i c hc
          split at hc'
          · split at hc'
            · obtain ⟨c₁, j, hc₁, rfl⟩ := ih hc'
              rw [List.getElem?_set] at hc₁
              split at hc₁
              · rename_i hi
                subst hi
                split at hc₁
                · rw [← Option.some.inj hc₁]
                  refine ⟨c, j + 1, hc, ?_⟩
                  rw [List.replicate_succ, ← List.append_cons]
                · cases hc₁
              · exact ⟨c₁, j, hc₁, rfl⟩
            · exact ⟨c', 0, hc', by simp⟩
          · exact ih hc'
      · exact ih hc'

theorem emit_length (msg : KafkaEvent) (handlers : List (ℕ × String)) (conns : List Conn) :
    (emit msg handlers conns).1.length = conns.length := by
  induction handlers generalizing conns with
  | nil => rfl
  | cons handler handlers ih =>
      unfold emit
      split
      · split
        · exact ih conns
        · split
          · split
            · rw [ih, List.length_set]
            · rfl
          · exact ih conns
      · exact ih conns

/-- What is replayed was kept. -/
theorem mem_replay {buffers : String → List KafkaEvent} (h : msg ∈ replay buffers url) : ∃ t, msg ∈ buffers t := by
  rw [replay_eq] at h
  obtain ⟨t, -, ht⟩ := List.mem_flatMap.mp h
  exact ⟨t, (url.path.history.part_sublist _).subset (List.mem_of_mem_filter ht)⟩

/-- **A stream that takes no more data stops a message** it should take: the handlers after it are not called. -/
theorem emit_blocked {before after : List (ℕ × String)} {conns : List Conn} {c : Conn} (hc : conns[id]? = some c)
    (hwritable : c.writable = false) (hwants : wants c.url.path.car msg = true) :
    (emit msg (before ++ (id, msg.topic) :: after) conns).2 = false ∧
      ∀ k, k ∉ before.map Prod.fst → (emit msg (before ++ (id, msg.topic) :: after) conns).1[k]? = conns[k]? := by
  induction before generalizing conns with
  | nil =>
      rw [List.nil_append]
      unfold emit
      rw [if_pos rfl, hc]
      dsimp only
      rw [if_pos hwants, hwritable, if_neg (by simp)]
      exact ⟨rfl, fun _ _ => rfl⟩
  | cons handler before ih =>
      obtain ⟨i, topic⟩ := handler
      have hrest : ∀ {conns' : List Conn}, conns'[id]? = some c → (∀ k, k ≠ i → conns'[k]? = conns[k]?) →
          (emit msg (before ++ (id, msg.topic) :: after) conns').2 = false ∧
            ∀ k, k ∉ ((i, topic) :: before).map Prod.fst →
              (emit msg (before ++ (id, msg.topic) :: after) conns').1[k]? = conns[k]? := by
        intro conns' hc' hsame
        refine ⟨(ih hc').1, fun k hk => ?_⟩
        rw [List.map_cons, List.mem_cons, not_or] at hk
        rw [(ih hc').2 k hk.2]
        exact hsame k hk.1
      rw [List.cons_append]
      unfold emit
      split
      · split
        · exact hrest hc fun _ _ => rfl
        · rename_i c₁ hc₁
          split
          · split
            · rename_i hw
              have hne : i ≠ id := by
                rintro rfl
                rw [hc] at hc₁
                rw [← Option.some.inj hc₁, hwritable] at hw
                cases hw
              apply hrest
              · rw [List.getElem?_set_ne hne]
                exact hc
              · exact fun k hk => List.getElem?_set_ne (Ne.symm hk)
            · exact ⟨rfl, fun _ _ => rfl⟩
          · exact hrest hc fun _ _ => rfl
      · exact hrest hc fun _ _ => rfl

/-- A stream for all cars, closed and still on the bus, before the handlers of every stream from the `n`-th on; none of these has a
    message of the topic but the kept ones. -/
structure Blocked (id : ℕ) (t : String) (n : ℕ) (kept : List KafkaEvent) (s : Server) : Prop where
  stuck : ∃ c, s.conns[id]? = some c ∧ c.closed = true ∧ c.writable = false ∧ c.url.path.car = none
  first : ∃ before after, s.handlers = before ++ (id, t) :: after ∧ ∀ handler ∈ before, handler.1 < n
  late : n ≤ s.conns.length
  buffer : ∀ t' e, e ∈ s.buffers t' → e.topic = t' ∧ (t' = t → e ∈ kept)
  stream : ∀ (k : ℕ) (c : Conn), n ≤ k → s.conns[k]? = some c → ∀ e ∈ c.out, e.topic = t → e ∈ kept

variable {kept : List KafkaEvent}

theorem Blocked.publish (h : Blocked id t n kept s) (event : KafkaEvent) : Blocked id t n kept (s.publish event) := by
  obtain ⟨c, hc, hclosed, hwritable, hcar⟩ := h.stuck
  obtain ⟨before, after, hhandlers, hbefore⟩ := h.first
  generalize hmsg : ({ event with serial := s.published.length } : KafkaEvent) = msg
  have hconns : (s.publish event).conns = (emit msg s.handlers s.conns).1 := by
    rw [← hmsg]
    rfl
  have hbuffers : (s.publish event).buffers =
      if (emit msg s.handlers s.conns).2 then bufferMessage s.buffers msg else s.buffers := by
    rw [← hmsg]
    rfl
  have hgrown : ∀ (k : ℕ) (c' : Conn), (s.publish event).conns[k]? = some c' →
      ∃ c j, s.conns[k]? = some c ∧ c' = { c with out := c.out ++ List.replicate j msg } := by
    intro k c' hc'
    rw [hconns] at hc'
    exact emit_grows msg hc'
  have hlength : (s.publish event).conns.length = s.conns.length := by
    rw [hconns]
    exact emit_length msg s.handlers s.conns
  refine ⟨?_, ⟨before, after, hhandlers, hbefore⟩, hlength.symm ▸ h.late, ?_, ?_⟩
  · obtain ⟨c', hc'⟩ : ∃ c', (s.publish event).conns[id]? = some c' :=
      ⟨_, List.getElem?_eq_getElem (hlength.symm ▸ (List.getElem?_eq_some_iff.mp hc).1)⟩
    obtain ⟨c₀, j, hc₀, rfl⟩ := hgrown id c' hc'
    obtain rfl : c = c₀ := by
      rw [hc] at hc₀
      exact Option.some.inj hc₀
    exact ⟨_, hc', hclosed, hwritable, hcar⟩
  · intro t' e he
    rw [hbuffers] at he
    by_cases htopic : msg.topic = t
    · rw [hhandlers, ← htopic, (emit_blocked hc hwritable (by rw [hcar]; rfl)).1, if_neg (by simp)] at he
      exact h.buffer t' e he
    · split at he
      · unfold bufferMessage at he
        by_cases ht' : t' = msg.topic
        · subst ht'
          rw [Function.update_self, ReplayBuffer.push_eq_rtake] at he
          rcases List.mem_append.mp ((ReplayBuffer.rtake_sublist _).subset he) with hold | hnew
          · exact h.buffer _ e hold
          · rw [List.mem_singleton.mp hnew]
            exact ⟨rfl, fun heq => absurd heq htopic⟩
        · rw [Function.update_of_ne ht'] at he
          exact h.buffer t' e he
      · exact h.buffer t' e he
  · intro k c' hk hc' e he het
    by_cases htopic : msg.topic = t
    · rw [hconns, hhandlers, ← htopic, (emit_blocked hc hwritable (by rw [hcar]; rfl)).2 k ?_] at hc'
      · exact h.stream k c' hk hc' e he het
      · intro hmem
        obtain ⟨handler, hmem', rfl⟩ := List.mem_map.mp hmem
        exact absurd (hbefore handler hmem') (not_lt.mpr hk)
    · obtain ⟨c₀, j, hc₀, rfl⟩ := hgrown k c' hc'
      rcases List.mem_append.mp he with hold | hnew
      · exact h.stream k c₀ hk hc₀ e hold het
      · rw [List.eq_of_mem_replicate hnew] at het
        exact absurd het htopic

theorem Blocked.connect (h : Blocked id t n kept s) (url : Url) : Blocked id t n kept (s.connect url) := by
  by_cases hreq : url.requested = []
  · rw [show s.connect url = s from if_pos hreq]
    exact h
  rw [Server.connect_eq hreq]
  obtain ⟨c, hc, hstuck⟩ := h.stuck
  obtain ⟨before, after, hhandlers, hbefore⟩ := h.first
  refine ⟨⟨c, ?_, hstuck⟩, ⟨before, after ++ url.requested.map fun t => (s.conns.length, t), ?_, hbefore⟩, ?_, h.buffer, ?_⟩
  · show (s.conns ++ _)[id]? = some c
    rw [List.getElem?_append_left (List.getElem?_eq_some_iff.mp hc).1]
    exact hc
  · show s.handlers ++ _ = _
    rw [hhandlers, List.append_assoc, List.cons_append]
  · show n ≤ (s.conns ++ _).length
    rw [List.length_append]
    exact h.late.trans (Nat.le_add_right _ _)
  · intro k c' hk hc' e he het
    have hc'' : (s.conns ++ [_])[k]? = some c' := hc'
    rw [List.getElem?_append] at hc''
    split at hc''
    · exact h.stream k c' hk hc'' e he het
    · rw [List.getElem?_singleton] at hc''
      split at hc''
      · rw [← Option.some.inj hc''] at he
        obtain ⟨t', he'⟩ := mem_replay he
        obtain ⟨htopic, hkept⟩ := h.buffer t' e he'
        exact hkept (htopic.symm.trans het)
      · cases hc''

theorem Blocked.abort (h : Blocked id t n kept s) (k : ℕ) : Blocked id t n kept (s.abort k) := by
  obtain ⟨c, hc, hclosed, hstuck⟩ := h.stuck
  obtain ⟨before, after, hhandlers, hbefore⟩ := h.first
  unfold Server.abort
  cases hk : s.conns[k]? with
  | none => exact h
  | some c₁ =>
      dsimp only
      split
      · exact h
      · rename_i hopen
        have hne : k ≠ id := by
          rintro rfl
          rw [hc] at hk
          rw [← Option.some.inj hk] at hopen
          exact hopen hclosed
        refine ⟨⟨c, ?_, hclosed, hstuck⟩, ⟨before.filter fun handler => handler.1 ≠ k, after.filter fun handler => handler.1 ≠ k, ?_,
          fun handler hmem => hbefore handler (List.mem_of_mem_filter hmem)⟩, ?_, h.buffer, ?_⟩
        · show (s.conns.set k _)[id]? = some c
          rw [List.getElem?_set_ne hne]
          exact hc
        · show s.handlers.filter _ = _
          rw [hhandlers, List.filter_append, List.filter_cons_of_pos (by simpa using Ne.symm hne)]
        · show n ≤ (s.conns.set k _).length
          rw [List.length_set]
          exact h.late
        · intro i c' hi hc' e he het
          have hc'' : (s.conns.set k _)[i]? = some c' := hc'
          rw [List.getElem?_set] at hc''
          split at hc''
          · rename_i hki
            subst hki
            split at hc''
            · rw [← Option.some.inj hc''] at he
              exact h.stream k c₁ hi hk e he het
            · cases hc''
          · exact h.stream i c' hi hc'' e he het

theorem Blocked.cancel (h : Blocked id t n kept s) (k : ℕ) : Blocked id t n kept (s.cancel k) := by
  obtain ⟨c, hc, hclosed, hwritable, hcar⟩ := h.stuck
  refine ⟨?_, h.first, ?_, h.buffer, ?_⟩
  · show ∃ c, (s.conns.modify k _)[id]? = some c ∧ _
    rw [List.getElem?_modify, hc]
    by_cases hk : k = id
    · exact ⟨{ c with closed := true, writable := false }, by simp [hk], rfl, rfl, hcar⟩
    · exact ⟨c, by simp [hk], hclosed, hwritable, hcar⟩
  · show n ≤ (s.conns.modify k _).length
    rw [List.length_modify]
    exact h.late
  · intro i c' hi hc' e he het
    have hc'' : (s.conns.modify k _)[i]? = some c' := hc'
    rw [List.getElem?_modify] at hc''
    obtain ⟨c₁, hc₁, rfl⟩ := Option.map_eq_some_iff.mp hc''
    refine h.stream i c₁ hi hc₁ e ?_ het
    split at he <;> exact he

end Lhre.Viewer
