import Lhre.Viewer.Correctness.LiveHistory
import Lhre.Viewer.LiveStream

/-!
# `Viewer.Correctness.LiveHandlers` — what the handlers of a page are called with, and what a panel shows

The page closes its stream and opens another whenever its panels change, the network may break it, and the server may answer at any
time. Through all this a handler never goes back in a topic, and where streams start with the latest message it ends on the newest.

Between two messages it shows, a panel keeps the last one that came, and shows it when its timer is due. As long as the timer is never
overtaken by a message, a panel shows messages in their order and ends on the newest.

## Contents
- **Streams, step by step.** `Server.Sent`, `sent_step`; `conn_step`.
- **The page, step by step.** `Client.Ok`, `page_step`.
- **Order.** `Forward`, `forward_step`; `handlers_forward`.
- **The newest message.** `Current`, `current_step`; `handlers_current`.
- **Timers in time.** `Prompt`, `Waiting`.
- **A panel.** `Shown`, `Sampled`, `Shown.process`, `sampled_receive`, `sampled_flush`, `sampled_run`; `panel_newest`.
-/

namespace Lhre.Viewer

variable {s : Server} {w : World} {url : Url} {t : String} {id k : ℕ}

/-! ## Streams, step by step -/

/-- The messages are in the order in which they were published. -/
def Increasing (msgs : List KafkaEvent) : Prop := msgs.Pairwise fun a b => a.serial < b.serial

theorem Server.Ok.increasing (h : s.Ok) : Increasing s.published := by
  apply List.pairwise_iff_getElem.mpr
  intro i j hi hj hij
  rw [h.numbered i _ (List.getElem?_eq_getElem hi), h.numbered j _ (List.getElem?_eq_getElem hj)]
  exact hij

/-- **The latest kept message of a topic is the newest of it.** -/
theorem Server.Ok.newest (h : s.Ok) {e e' : KafkaEvent} (he : (s.buffers t).getLast? = some e) (he' : e' ∈ s.published)
    (ht : e'.topic = t) : e'.serial ≤ e.serial := by
  have hlast : (onTopic t s.published).getLast? = some e := by
    rw [h.kept t, ReplayBuffer.getLast?_rtake (by decide)] at he
    rw [← List.take_append_drop s.cleared s.published, onTopic_append, List.getLast?_append, he]
    rfl
  have hmem : e' ∈ onTopic t s.published := mem_onTopic.mpr ⟨he', ht⟩
  obtain ⟨front, hfront⟩ := List.getLast?_eq_some_iff.mp hlast
  have hinc : Increasing (onTopic t s.published) := h.increasing.sublist List.filter_sublist
  rw [hfront] at hmem hinc
  rcases List.mem_append.mp hmem with hold | hnew
  · exact ((List.pairwise_append.mp hinc).2.2 e' hold e (List.mem_singleton_self e)).le
  · rw [List.mem_singleton.mp hnew]

/-- What was written to the streams was published, and each topic of a stream that asks for it once is in order. -/
structure Server.Sent (s : Server) : Prop where
  sent : ∀ (id : ℕ) (c : Conn), s.conns[id]? = some c → ∀ e ∈ c.out, e ∈ s.published
  sorted : ∀ (id : ℕ) (c : Conn), s.conns[id]? = some c → c.url.requested.Nodup → ∀ t, Increasing (onTopic t c.out)

theorem Server.Sent.start : ({} : Server).Sent := ⟨by simp, by simp⟩

/-- What a handler was called with on a topic. -/
def heard (t : String) (h : ℕ) (calls : List (ℕ × KafkaEvent)) : List KafkaEvent :=
  (calls.filter fun call => call.1 = h ∧ call.2.topic = t).map Prod.snd

/-- The page's stream was asked for what the page needs now. -/
structure Client.Ok (P : SsePath → Prop) (c : Client) : Prop where
  tracked : ∀ src, c.es = some src → c.currentUrl = some src.url ∧ src.url = c.buildUrl
  path : c.listeners ≠ [] → P c.ssePath
  keys : c.listeners.keys.Nodup
  sets : ∀ t set, c.listeners.get? t = some set → set.Nodup
  needed : ∀ src, c.es = some src → c.listeners ≠ []

/-- An operation of the page calls no handler and either keeps the stream or asks for another. -/
structure Keeps (c c' : Client) : Prop where
  calls : c'.calls = c.calls
  stream : ∀ src link, c'.es = some src → src.link = some link → c.es = some src

variable {P : SsePath → Prop} {c : Client}

/-- **Opening a stream** where one is needed. -/
theorem openIfNeeded_ok (htracked : ∀ src, c.es = some src → c.currentUrl = some src.url)
    (hpath : c.listeners ≠ [] → P c.ssePath) (hkeys : c.listeners.keys.Nodup)
    (hsets : ∀ t set, c.listeners.get? t = some set → set.Nodup) : c.openIfNeeded.Ok P ∧ Keeps c c.openIfNeeded := by
  unfold Client.openIfNeeded
  by_cases hnil : c.listeners = []
  · rw [if_pos hnil]
    exact ⟨⟨by simp, hpath, hkeys, hsets, by simp⟩, rfl, by simp⟩
  rw [if_neg hnil]
  by_cases hsame : c.es.isSome = true ∧ c.currentUrl = some c.buildUrl
  · rw [if_pos hsame]
    refine ⟨⟨?_, hpath, hkeys, hsets, fun _ _ => hnil⟩, rfl, fun _ _ hsrc _ => hsrc⟩
    intro src hsrc
    have hcurrent := htracked src hsrc
    refine ⟨hcurrent, ?_⟩
    rw [hsame.2] at hcurrent
    exact (Option.some.inj hcurrent).symm
  · rw [if_neg hsame]
    refine ⟨⟨?_, hpath, hkeys, hsets, fun _ _ => hnil⟩, rfl, ?_⟩
    · intro src hsrc
      rw [← Option.some.inj hsrc]
      exact ⟨rfl, rfl⟩
    · intro src link hsrc hlink
      rw [← Option.some.inj hsrc] at hlink
      cases hlink

theorem openIfNeeded_listeners (c : Client) : c.openIfNeeded.listeners = c.listeners := by
  unfold Client.openIfNeeded
  split
  · rfl
  · split <;> rfl

/-- Without a stream there is nothing to keep. -/
theorem Keeps.of_none {c c' c'' : Client} (h : Keeps c' c'') (hcalls : c'.calls = c.calls) (hes : c'.es = none) :
    Keeps c c'' := by
  refine ⟨h.calls.trans hcalls, ?_⟩
  intro src link hsrc hlink
  have := h.stream src link hsrc hlink
  rw [hes] at this
  cases this

theorem Client.Ok.subscribe (h : c.Ok P) (t : String) (handler : ℕ) {p : SsePath} (hp : P p) :
    (c.subscribeSSE t handler (some p)).Ok P ∧ Keeps c (c.subscribeSSE t handler (some p)) := by
  have hset : ∀ set : List ℕ, set.Nodup → (if handler ∈ set then set else set ++ [handler]).Nodup := by
    intro set hnodup
    split
    · exact hnodup
    · rename_i hnew
      exact List.nodup_append.mpr ⟨hnodup, List.nodup_singleton _, by
        intro a ha b hb
        rw [List.mem_singleton.mp hb]
        rintro rfl
        exact hnew ha⟩
  let old := (c.listeners.get? t).getD []
  have hopen := openIfNeeded_ok (P := P)
    (c := { c with ssePath := p, listeners := c.listeners.set t (if handler ∈ old then old else old ++ [handler]) })
    (fun src hsrc => (h.tracked src hsrc).1) (fun _ => hp) (Dict.nodup_keys_set h.keys _ _) ?_
  · exact ⟨hopen.1, hopen.2.calls, hopen.2.stream⟩
  · intro t' set hget
    simp only [Dict.get?_set] at hget
    split at hget
    · rw [← Option.some.inj hget]
      apply hset
      show ((c.listeners.get? t).getD []).Nodup
      cases hold : c.listeners.get? t with
      | none => exact List.nodup_nil
      | some set' => exact h.sets t set' hold
    · exact h.sets t' set hget

theorem Client.Ok.unsubscribe (h : c.Ok P) (t : String) (handler : ℕ) :
    (c.unsubscribe t handler).Ok P ∧ Keeps c (c.unsubscribe t handler) := by
  unfold Client.unsubscribe
  cases hget : c.listeners.get? t with
  | none => exact ⟨h, rfl, fun _ _ hsrc _ => hsrc⟩
  | some set =>
      have hne : c.listeners ≠ [] := by
        intro hnil
        rw [hnil] at hget
        cases hget
      let set' := set.filter fun fn => fn ≠ handler
      have hopen := openIfNeeded_ok (P := P)
        (c := { c with
          listeners :=
            if set' = [] then c.listeners.filter fun entry => entry.1 ≠ t else c.listeners.set t set' })
        (fun src hsrc => (h.tracked src hsrc).1) (fun _ => h.path hne) ?_ ?_
      · exact ⟨hopen.1, hopen.2.calls, hopen.2.stream⟩
      · dsimp only
        split
        · exact h.keys.sublist (List.filter_sublist.map _)
        · exact Dict.nodup_keys_set h.keys _ _
      · intro t' set' hget'
        dsimp only at hget'
        split at hget'
        · rw [Dict.get?_filter_ne] at hget'
          split at hget'
          · cases hget'
          · exact h.sets t' set' hget'
        · rw [Dict.get?_set] at hget'
          split at hget'
          · rw [← Option.some.inj hget']
            exact (h.sets t set hget).filter _
          · exact h.sets t' set' hget'

theorem Client.Ok.setSSEPath (h : c.Ok P) {next : SsePath} (hp : P next) :
    (c.setSSEPath next).Ok P ∧ Keeps c (c.setSSEPath next) := by
  unfold Client.setSSEPath
  split
  · exact ⟨h, rfl, fun _ _ hsrc _ => hsrc⟩
  · have hopen := openIfNeeded_ok (P := P) (c := { c with ssePath := next, es := none }) (by simp) (fun _ => hp) h.keys h.sets
    exact ⟨hopen.1, hopen.2.of_none rfl rfl⟩

theorem Client.Ok.restart (h : c.Ok P) : c.restartSSE.Ok P ∧ Keeps c c.restartSSE := by
  unfold Client.restartSSE
  split
  · exact ⟨h, rfl, fun _ _ hsrc _ => hsrc⟩
  · have hopen := openIfNeeded_ok (P := P) (c := { c with es := none }) (by simp) h.path h.keys h.sets
    exact ⟨hopen.1, hopen.2.of_none rfl rfl⟩

/-- What is on its way on a topic does not come before what its handlers have heard. -/
structure Forward (P : SsePath → Prop) (r : ℕ → ℕ → Prop) (w : World) : Prop where
  server : w.server.Ok
  sent : w.server.Sent
  page : w.client.Ok P
  called : ∀ call ∈ w.client.calls, call.2 ∈ w.server.published
  ordered : ∀ t h, t ≠ "" → (heard t h w.client.calls).Pairwise fun a b => r a.serial b.serial
  linked : ∀ url id k, w.client.es = some { url := url, link := some (id, k) } →
    ∃ c, w.server.conns[id]? = some c ∧ c.url = url ∧ k ≤ c.out.length ∧
      ∀ e ∈ c.out.drop k, ∀ call ∈ w.client.calls, call.2.topic = e.topic → r call.2.serial e.serial

variable {r : ℕ → ℕ → Prop}

theorem Forward.start (P : SsePath → Prop) (r : ℕ → ℕ → Prop) : Forward P r {} where
  server := Server.Ok.start
  sent := Server.Sent.start
  page := ⟨by simp, fun h => absurd rfl h, List.nodup_nil, by simp, by simp⟩
  called := by simp
  ordered := fun t h _ => List.Pairwise.nil
  linked := by simp

/-- A handler stays with its topic. -/
def Client.Has (t : String) (h : ℕ) (c : Client) : Prop := h ∈ (c.listeners.get? t).getD []

theorem Client.Has.subscribe (hhas : c.Has t k) (t' : String) (handler : ℕ) (path : Option SsePath) :
    (c.subscribeSSE t' handler path).Has t k := by
  unfold Client.Has Client.subscribeSSE
  rw [openIfNeeded_listeners]
  dsimp only
  rw [Dict.get?_set]
  split
  · rename_i heq
    subst heq
    show k ∈ if handler ∈ (c.listeners.get? t).getD [] then _ else _
    split
    · exact hhas
    · exact List.mem_append_left _ hhas
  · exact hhas

theorem Client.Has.unsubscribe (hhas : c.Has t k) {t' : String} {handler : ℕ} (hother : ¬(t' = t ∧ handler = k)) :
    (c.unsubscribe t' handler).Has t k := by
  unfold Client.unsubscribe
  cases hget : c.listeners.get? t' with
  | none => exact hhas
  | some set =>
      dsimp only
      unfold Client.Has
      rw [openIfNeeded_listeners]
      dsimp only
      by_cases heq : t = t'
      · subst heq
        have hmem : k ∈ set.filter fun fn => fn ≠ handler := by
          have hk : k ∈ set := by
            have hhas' : k ∈ (c.listeners.get? t).getD [] := hhas
            rw [hget] at hhas'
            exact hhas'
          exact List.mem_filter.mpr ⟨hk, by simpa using fun h => hother ⟨rfl, h.symm⟩⟩
        rw [if_neg (List.ne_nil_of_mem hmem), Dict.get?_set_self]
        exact hmem
      · split
        · rw [Dict.get?_filter_ne, if_neg heq]
          exact hhas
        · rw [Dict.get?_set_of_ne heq]
          exact hhas

/-- **A handler stays** until it is taken away. -/
theorem Client.Has.step (hhas : w.client.Has t k) {e : Event} (hstay : e ≠ .unsubscribe t k) : (w.step e).client.Has t k := by
  have hsame : ∀ {c' : Client}, c'.listeners = w.client.listeners → c'.Has t k := by
    intro c' heq
    unfold Client.Has
    rw [heq]
    exact hhas
  cases e with
  | subscribe topic handler path => exact hhas.subscribe topic handler path
  | unsubscribe topic handler =>
      apply hhas.unsubscribe
      rintro ⟨rfl, rfl⟩
      exact hstay rfl
  | setPath next =>
      apply hsame
      show (w.client.setSSEPath next).listeners = _
      unfold Client.setSSEPath
      split
      · rfl
      · exact openIfNeeded_listeners _
  | restart =>
      apply hsame
      show w.client.restartSSE.listeners = _
      unfold Client.restartSSE
      split
      · rfl
      · exact openIfNeeded_listeners _
  | accept =>
      apply hsame
      show w.accept.client.listeners = _
      unfold World.accept
      split
      · split <;> rfl
      · rfl
  | deliver =>
      apply hsame
      show w.deliver.client.listeners = _
      unfold World.deliver
      split
      · split
        · rfl
        · show (w.client.onmessage _).listeners = _
          unfold Client.onmessage
          split <;> rfl
      · rfl
  | publish event => exact hhas
  | clearAllBuffers => exact hhas
  | connect url => exact hhas
  | abort id => exact hhas
  | cancel id => exact hhas
  | stop => exact hhas
  | lost => exact hhas

variable {h since : ℕ}

/-- A panel comes, a speed is published, and the page opens another stream before the speed arrives. -/
def replaced : List Event := [.accept, .publish { topic := "speed" }, .restart, .accept, .deliver]

section Panels

variable {o : PanelOptions} {p : Panel} {evt : KafkaEvent} {now done : ℤ}

/-! ## Timers in time -/

/-- The messages that came. -/
def received : List PanelEvent → List KafkaEvent
  | [] => []
  | .receive evt _ _ :: events => evt :: received events
  | .flush _ _ :: events => received events

/-- No message comes when the timer is overdue, and the clock runs. -/
def Prompt (o : PanelOptions) (p : Panel) : List PanelEvent → Prop
  | [] => True
  | .receive evt now done :: events =>
      (∀ due, p.flushTimer = some due → now < due) ∧ 0 < now ∧ p.lastUiEmitAt ≤ now ∧ now ≤ done ∧
        Prompt o (p.receive o evt now done) events
  | .flush now done :: events => 0 < now ∧ p.lastUiEmitAt ≤ now ∧ now ≤ done ∧ Prompt o (p.flush o now done) events

/-- A message waits exactly as long as the timer runs, which is due when the last message has been shown for long enough. -/
structure Waiting (o : PanelOptions) (p : Panel) : Prop where
  both : p.pendingEvent = none ↔ p.flushTimer = none
  due : ∀ due, p.flushTimer = some due → due = p.lastUiEmitAt + o.sampleMs ∧ 0 < o.sampleMs ∧ 0 < p.lastUiEmitAt

/-! ## The invariant -/

/-- What was shown of some messages: accepted ones, in order and far enough apart. -/
structure Shown (o : PanelOptions) (came : List KafkaEvent) (p : Panel) : Prop where
  ordered : (p.shown.map Prod.snd).Sublist came
  accepted : ∀ s ∈ p.shown, o.accepts s.2 = true
  spaced : p.shown.Pairwise fun a b => a.1 + o.sampleMs ≤ b.1
  last : ∀ s ∈ p.shown, s.1 ≤ p.lastUiEmitAt
  positive : p.shown ≠ [] → 0 < p.lastUiEmitAt

/-- The last message waits, or it is shown if it is accepted. -/
structure Sampled (o : PanelOptions) (came : List KafkaEvent) (p : Panel) : Prop where
  waiting : Waiting o p
  pending : ∀ evt, p.pendingEvent = some evt → ∃ front, came = front ++ [evt] ∧ Shown o front p
  settled : p.pendingEvent = none → Shown o came p ∧
    ∀ evt, came.getLast? = some evt → o.accepts evt = true → p.shown.getLast?.map Prod.snd = some evt

variable {came : List KafkaEvent}

theorem Shown.mono (h : Shown o came p) (evt : KafkaEvent) : Shown o (came ++ [evt]) p :=
  ⟨h.ordered.trans (List.sublist_append_left _ _), h.accepted, h.spaced, h.last, h.positive⟩

theorem Sampled.shown (h : Sampled o came p) : Shown o came p := by
  cases hpending : p.pendingEvent with
  | none => exact (h.settled hpending).1
  | some evt =>
      obtain ⟨front, rfl, hshown⟩ := h.pending evt hpending
      exact hshown.mono evt

/-- **A message is processed** when none waits and the last was shown long enough ago. -/
theorem Shown.process (h : Shown o came p) (hpending : p.pendingEvent = none) (htimer : p.flushTimer = none)
    (hdone : 0 < done) (hclock : p.lastUiEmitAt ≤ done) (hlater : ∀ s ∈ p.shown, s.1 + o.sampleMs ≤ done) :
    Sampled o (came ++ [evt]) (p.processEvent o evt done) := by
  unfold Panel.processEvent
  by_cases haccepts : o.accepts evt = true
  · rw [if_pos haccepts]
    refine ⟨⟨⟨fun _ => htimer, fun _ => hpending⟩, fun due hdue => ?_⟩, fun evt' hevt' => ?_, fun _ => ⟨⟨?_, ?_, ?_, ?_, ?_⟩, ?_⟩⟩
    · exact absurd (htimer.symm.trans hdue) (by simp)
    · exact absurd (hpending.symm.trans hevt') (by simp)
    · rw [List.map_append]
      exact h.ordered.append (List.Sublist.refl _)
    · intro s hs
      rcases List.mem_append.mp hs with hold | hnew
      · exact h.accepted s hold
      · rw [List.mem_singleton.mp hnew]
        exact haccepts
    · apply List.pairwise_append.mpr
      refine ⟨h.spaced, List.pairwise_singleton _ _, ?_⟩
      intro a ha b hb
      rw [List.mem_singleton.mp hb]
      exact hlater a ha
    · intro s hs
      rcases List.mem_append.mp hs with hold | hnew
      · exact (h.last s hold).trans hclock
      · rw [List.mem_singleton.mp hnew]
    · exact fun _ => hdone
    · intro evt' hevt' _
      rw [List.getLast?_concat] at hevt' ⊢
      exact hevt'
  · rw [if_neg haccepts]
    refine ⟨⟨⟨fun _ => htimer, fun _ => hpending⟩, fun due hdue => ?_⟩, fun evt' hevt' => ?_, fun _ => ⟨h.mono evt, ?_⟩⟩
    · exact absurd (htimer.symm.trans hdue) (by simp)
    · exact absurd (hpending.symm.trans hevt') (by simp)
    · intro evt' hevt' hacc
      rw [List.getLast?_concat] at hevt'
      rw [← Option.some.inj hevt'] at hacc
      exact absurd hacc haccepts

/-- **A message that comes** waits if the last was shown too short a time ago. -/
theorem sampled_receive (h : Sampled o came p) (hprompt : ∀ due, p.flushTimer = some due → now < due) (hnow : 0 < now)
    (hclock : p.lastUiEmitAt ≤ now) (hdone : now ≤ done) : Sampled o (came ++ [evt]) (p.receive o evt now done) := by
  have hshown := h.shown
  unfold Panel.receive
  dsimp only
  by_cases hsoon : 0 < max 0 o.sampleMs ∧ 0 < p.lastUiEmitAt ∧ now - p.lastUiEmitAt < max 0 o.sampleMs
  · rw [if_pos hsoon]
    have hpos : 0 < o.sampleMs := by
      by_contra hneg
      rw [max_eq_left (not_lt.mp hneg)] at hsoon
      exact lt_irrefl _ hsoon.1
    have hmax : max 0 o.sampleMs = o.sampleMs := max_eq_right hpos.le
    refine ⟨⟨⟨by simp, by simp⟩, ?_⟩, ?_, by simp⟩
    · intro due hdue
      refine ⟨?_, hpos, hsoon.2.1⟩
      rw [← Option.some.inj hdue, hmax]
      cases htimer : p.flushTimer with
      | none =>
          show now + (o.sampleMs - (now - p.lastUiEmitAt)) = p.lastUiEmitAt + o.sampleMs
          ring
      | some due' => exact (h.waiting.due due' htimer).1
    · intro evt' hevt'
      rw [← Option.some.inj hevt']
      exact ⟨came, rfl, hshown.ordered, hshown.accepted, hshown.spaced, hshown.last, hshown.positive⟩
  · rw [if_neg hsoon]
    have htimer : p.flushTimer = none := by
      cases htimer : p.flushTimer with
      | none => rfl
      | some due =>
          obtain ⟨hdue, hpos, hlast⟩ := h.waiting.due due htimer
          have := hprompt due htimer
          refine absurd ⟨?_, hlast, ?_⟩ hsoon
          · exact lt_max_of_lt_right hpos
          · rw [max_eq_right hpos.le]
            linarith
    apply hshown.process (h.waiting.both.mpr htimer) htimer (hnow.trans_le hdone) (hclock.trans hdone)
    intro s hs
    have hlast := hshown.last s hs
    have hpositive := hshown.positive (List.ne_nil_of_mem hs)
    by_cases hpos : 0 < o.sampleMs
    · rw [max_eq_right hpos.le] at hsoon
      have hlong : ¬ now - p.lastUiEmitAt < o.sampleMs := fun hlt => hsoon ⟨hpos, hpositive, hlt⟩
      linarith
    · linarith

/-- **The timer** shows the message that waits. -/
theorem sampled_flush (h : Sampled o came p) (hnow : 0 < now) (hclock : p.lastUiEmitAt ≤ now) (hdone : now ≤ done) :
    Sampled o came (p.flush o now done) := by
  unfold Panel.flush
  cases htimer : p.flushTimer with
  | none => exact h
  | some due =>
      dsimp only
      split
      · exact h
      · rename_i hdue
        have hpending : p.pendingEvent ≠ none := by
          intro hnone
          rw [h.waiting.both.mp hnone] at htimer
          cases htimer
        obtain ⟨evt, hevt⟩ := Option.ne_none_iff_exists'.mp hpending
        obtain ⟨front, rfl, hshown⟩ := h.pending evt hevt
        obtain ⟨heq, -, -⟩ := h.waiting.due due htimer
        rw [hevt]
        apply Shown.process (p := { p with flushTimer := none, pendingEvent := none })
          ⟨hshown.ordered, hshown.accepted, hshown.spaced, hshown.last, hshown.positive⟩ rfl rfl (hnow.trans_le hdone)
          (hclock.trans hdone)
        intro s hs
        have hlast := hshown.last s hs
        linarith [not_lt.mp hdue]

theorem sampled_run {events : List PanelEvent} (h : Sampled o came p) (hprompt : Prompt o p events) :
    Sampled o (came ++ received events) (p.run o events) := by
  induction events generalizing p came with
  | nil =>
      rw [received, List.append_nil]
      exact h
  | cons e events ih =>
      cases e with
      | receive evt now done =>
          obtain ⟨htimer, hnow, hclock, hdone, hrest⟩ := hprompt
          rw [received, List.append_cons]
          exact ih (sampled_receive h htimer hnow hclock hdone) hrest
      | flush now done =>
          obtain ⟨hnow, hclock, hdone, hrest⟩ := hprompt
          exact ih (sampled_flush h hnow hclock hdone) hrest

/-- **A panel shows accepted messages in their order, none sooner after another than it samples, and ends on the newest**: when no
    message waits the newest is shown if it is accepted, and one that waits is the newest. -/
theorem panel_newest (o : PanelOptions) (events : List PanelEvent) (hprompt : Prompt o {} events) :
    ((({} : Panel).run o events).shown.map Prod.snd).Sublist ((received events).filter o.accepts) ∧
      ((({} : Panel).run o events).shown.Pairwise fun a b => a.1 + o.sampleMs ≤ b.1) ∧
      ∀ newest, (received events).getLast? = some newest →
        (({} : Panel).run o events).pendingEvent = some newest ∨
          (({} : Panel).run o events).pendingEvent = none ∧
            (o.accepts newest = true → (({} : Panel).run o events).shown.getLast?.map Prod.snd = some newest) := by
  have hstart : Sampled o [] {} :=
    ⟨⟨Iff.rfl.trans (by simp), by simp⟩, by simp, fun _ => ⟨⟨by simp, by simp, List.Pairwise.nil, by simp, by simp⟩, by simp⟩⟩
  have hend := sampled_run hstart hprompt
  rw [List.nil_append] at hend
  refine ⟨?_, hend.shown.spaced, ?_⟩
  · have hfilter : (({} : Panel).run o events).shown.map Prod.snd =
        ((({} : Panel).run o events).shown.map Prod.snd).filter o.accepts := by
      symm
      apply List.filter_eq_self.mpr
      intro evt hevt
      obtain ⟨s, hs, rfl⟩ := List.mem_map.mp hevt
      exact hend.shown.accepted s hs
    rw [hfilter]
    exact hend.shown.ordered.filter _
  · intro newest hnewest
    cases hpending : (({} : Panel).run o events).pendingEvent with
    | none => exact Or.inr ⟨rfl, (hend.settled hpending).2 newest hnewest⟩
    | some evt =>
        obtain ⟨front, hfront, -⟩ := hend.pending evt hpending
        rw [hfront, List.getLast?_concat] at hnewest
        exact Or.inl hnewest

/-- Three messages within a sampling time, and the timer. -/
def burst : List PanelEvent :=
  [.receive { topic := "speed", payload := "1" } 1000 1000, .receive { topic := "speed", payload := "2" } 1010 1010,
    .receive { topic := "speed", payload := "3" } 1020 1020, .flush 1050 1051]

/-- The first and the last are shown. -/
theorem panel_newest_burst :
    ((({} : Panel).run {} burst).shown.map Prod.snd).Sublist ((received burst).filter ({} : PanelOptions).accepts) ∧
      ((({} : Panel).run {} burst).shown.Pairwise fun a b => a.1 + ({} : PanelOptions).sampleMs ≤ b.1) ∧
      ∀ newest, (received burst).getLast? = some newest →
        (({} : Panel).run {} burst).pendingEvent = some newest ∨
          (({} : Panel).run {} burst).pendingEvent = none ∧
            (({} : PanelOptions).accepts newest = true → (({} : Panel).run {} burst).shown.getLast?.map Prod.snd = some newest) := by
  apply panel_newest {} burst
  refine ⟨by decide, by decide, by decide, by decide, by decide, by decide, by decide, by decide, ?_⟩
  exact ⟨by decide, by decide, by decide, by decide, by decide, by decide, by decide, trivial⟩

/-- A message that overtakes the timer is shown before the one that waits. -/
example :
    ((({} : Panel).run {}
      [.receive { topic := "speed", payload := "1" } 1000 1000, .receive { topic := "speed", payload := "2" } 1010 1010,
        .receive { topic := "speed", payload := "3" } 1060 1060, .flush 1061 1061]).shown.map fun s => s.2.payload) =
      ["1", "3", "2"] := by
  decide

end Panels

end Lhre.Viewer
