import Lhre.Theory.Trace

/-!
# `Theory.Mailbox` — handing the latest value from a writer to a slower reader

Two parties share a value and a flag. The writer stores the value and then raises the flag; the reader takes the flag
down, loads the value and delivers it to a sink. Each load and each store is a step of its own, and the steps of the
two parties interleave in any order. Values may be overwritten before they are read; what must get through is the last.

## Contents
- **The parties.** `Writer`, `Reader`, `State`, and one step of each.
- **Sinks.** `Sink`: what a delivery does, when it works, and the invariant that makes it work.
- **A value under way.** `Publishing`, `OnItsWay` and `Settled`, and what a step does to each.
- **Runs.** `delivered`: the last value published is in the sink once the reader has made one full pass after it.
-/

namespace Mailbox

variable {α σ π : Type*}

/-- Where the writer is in a publication. -/
inductive Writer (α : Type*)
  | idle
  | storeValue (a : α)
  | storeFlag

/-- Where the reader is in a pass. -/
inductive Reader (α : Type*)
  | idle
  | loadValue
  | deliver (a : α)

/-- The shared value and flag, both parties, and the sink. -/
structure State (α σ : Type*) where
  value : α
  flag : Bool := false
  writer : Writer α := .idle
  reader : Reader α := .idle
  sink : σ

/-- A step of one of the parties. An idle writer may begin to publish a value; a plan says how a delivery goes. -/
inductive Event (α π : Type*)
  | write (publish : Option α)
  | read (plan : π)

/-- What a delivery does to the sink: it keeps `Inv`, and where the plan works the sink then holds the value. -/
structure Sink (α σ π : Type*) where
  deliver : π → α → σ → σ
  get : σ → α
  Works : π → Prop
  Inv : σ → Prop
  keeps : ∀ p a s, Inv s → Inv (deliver p a s)
  delivers : ∀ p a s, Works p → Inv s → get (deliver p a s) = a

variable (K : Sink α σ π)

/-- One step. -/
def step (s : State α σ) : Event α π → State α σ
  | .write publish =>
      match s.writer with
      | .idle =>
          match publish with
          | none => s
          | some a => { s with writer := .storeValue a }
      | .storeValue a => { s with value := a, writer := .storeFlag }
      | .storeFlag => { s with flag := true, writer := .idle }
  | .read plan =>
      match s.reader with
      | .idle => if s.flag then { s with flag := false, reader := .loadValue } else s
      | .loadValue => { s with reader := .deliver s.value }
      | .deliver a => { s with sink := K.deliver plan a s.sink, reader := .idle }

/-- The event begins a publication. -/
def Publishes (s : State α σ) (e : Event α π) : Prop := s.writer = .idle ∧ ∃ a, e = .write (some a)

/-! ## A value under way -/

/-- The writer has begun to publish `v` and has not yet raised the flag. -/
def Publishing (v : α) (s : State α σ) : Prop :=
  s.writer = .storeValue v ∨ (s.writer = .storeFlag ∧ s.value = v)

/-- The flag is down, and the reader has `v` or has delivered it. -/
def Taken (v : α) (s : State α σ) : Prop :=
  s.flag = false ∧ (s.reader = .loadValue ∨ s.reader = .deliver v ∨ (s.reader = .idle ∧ K.get s.sink = v))

/-- `v` is published: the flag is up over it, or the reader has taken it. -/
def OnItsWay (v : α) (s : State α σ) : Prop := s.writer = .idle ∧ s.value = v ∧ (s.flag = true ∨ Taken K v s)

/-- Both parties are at rest and `v` is in the sink. -/
def Settled (v : α) (s : State α σ) : Prop :=
  s.writer = .idle ∧ s.flag = false ∧ s.reader = .idle ∧ K.get s.sink = v

variable {K} {v : α} {s : State α σ} {e : Event α π}

theorem step_inv (h : K.Inv s.sink) : K.Inv (step K s e).sink := by
  cases e with
  | write publish =>
      cases hw : s.writer <;> cases publish <;> simpa [step, hw] using h
  | read plan =>
      cases hr : s.reader with
      | idle => cases hf : s.flag <;> simpa [step, hr, hf] using h
      | loadValue => simpa [step, hr] using h
      | deliver a => simpa [step, hr] using K.keeps plan a s.sink h

/-- A publication runs on to its end: a step leaves it under way, or raises the flag over its value. -/
theorem Publishing.step (h : Publishing v s) :
    Publishing v (step K s e) ∨ ((step K s e).writer = .idle ∧ (step K s e).value = v ∧
      (step K s e).flag = true) := by
  cases e with
  | write publish =>
      rcases h with hw | ⟨hw, hv⟩
      · exact Or.inl (Or.inr (by simp [Mailbox.step, hw]))
      · exact Or.inr (by simp [Mailbox.step, hw, hv])
  | read plan =>
      refine Or.inl ?_
      have hsame : (Mailbox.step K s (.read plan)).writer = s.writer ∧
          (Mailbox.step K s (.read plan)).value = s.value := by
        cases hr : s.reader <;> cases hf : s.flag <;> simp [Mailbox.step, hr, hf]
      unfold Publishing
      rw [hsame.1, hsame.2]
      exact h

/-- A write that begins no publication does nothing while the writer is idle. -/
theorem step_write_idle {publish : Option α} (hw : s.writer = .idle)
    (hq : ¬ Publishes s (.write publish : Event α π)) : step K s (.write publish) = s := by
  cases publish with
  | none => simp [step, hw]
  | some a => exact absurd ⟨hw, a, rfl⟩ hq

/-- **Nothing published is lost.** With no new publication and a delivery that works, a published value stays on its
    way; once it is taken it stays taken. -/
theorem Taken.step (hw : s.writer = .idle) (hv : s.value = v) (h : Taken K v s) (hinv : K.Inv s.sink)
    (hq : ¬ Publishes s e) (hworks : ∀ p, e = .read p → K.Works p) : Taken K v (step K s e) := by
  cases e with
  | write publish =>
      rw [step_write_idle hw hq]
      exact h
  | read plan =>
      obtain ⟨hf, hr | hr | ⟨hr, hsink⟩⟩ := h
      · refine ⟨by simp [Mailbox.step, hr, hf], Or.inr (Or.inl ?_)⟩
        simp [Mailbox.step, hr, hv]
      · refine ⟨by simp [Mailbox.step, hr, hf], Or.inr (Or.inr ⟨by simp [Mailbox.step, hr], ?_⟩)⟩
        have hdel := K.delivers plan v s.sink (hworks plan rfl) hinv
        simpa [Mailbox.step, hr] using hdel
      · have hstay : Mailbox.step K s (.read plan) = s := by simp [Mailbox.step, hr, hf]
        rw [hstay]
        exact ⟨hf, Or.inr (Or.inr ⟨hr, hsink⟩)⟩

theorem step_idle_frame (hw : s.writer = .idle) (hq : ¬ Publishes s e) :
    (step K s e).writer = .idle ∧ (step K s e).value = s.value := by
  cases e with
  | write publish => rw [step_write_idle hw hq]; exact ⟨hw, rfl⟩
  | read plan => cases hr : s.reader <;> cases hf : s.flag <;> simp [step, hr, hf, hw]

theorem OnItsWay.step (h : OnItsWay K v s) (hinv : K.Inv s.sink) (hq : ¬ Publishes s e)
    (hworks : ∀ p, e = .read p → K.Works p) : OnItsWay K v (step K s e) := by
  obtain ⟨hw, hv, hway⟩ := h
  obtain ⟨hw', hv'⟩ := step_idle_frame (K := K) hw hq
  refine ⟨hw', hv'.trans hv, ?_⟩
  rcases hway with hf | htaken
  · cases e with
    | write publish =>
        rw [step_write_idle hw hq]
        exact Or.inl hf
    | read plan =>
        cases hr : s.reader with
        | idle => exact Or.inr ⟨by simp [Mailbox.step, hr, hf], Or.inl (by simp [Mailbox.step, hr, hf])⟩
        | loadValue => exact Or.inl (by simp [Mailbox.step, hr, hf])
        | deliver a => exact Or.inl (by simp [Mailbox.step, hr, hf])
  · exact Or.inr (htaken.step hw hv hinv hq hworks)

/-- A reader that begins a pass over a published value takes it. -/
theorem OnItsWay.take {p : π} (h : OnItsWay K v s) (hr : s.reader = .idle) :
    Taken K v (Mailbox.step K s (.read p)) := by
  obtain ⟨hw, hv, hf | htaken⟩ := h
  · exact ⟨by simp [Mailbox.step, hr, hf], Or.inl (by simp [Mailbox.step, hr, hf])⟩
  · have hstay : Mailbox.step K s (.read p) = s := by simp [Mailbox.step, hr, htaken.1]
    rw [hstay]
    exact htaken

/-- Nothing moves once the value has settled, until the next publication. -/
theorem Settled.step (h : Settled K v s) (hq : ¬ Publishes s e) : Settled K v (step K s e) := by
  obtain ⟨hw, hf, hr, hsink⟩ := h
  cases e with
  | write publish => rw [step_write_idle hw hq]; exact ⟨hw, hf, hr, hsink⟩
  | read plan =>
      have hstay : Mailbox.step K s (.read plan) = s := by simp [Mailbox.step, hr, hf]
      rw [hstay]
      exact ⟨hw, hf, hr, hsink⟩

/-! ## Runs -/

section Runs

variable {s₀ : State α σ} {ρ : ℕ → Event α π}

theorem stateAt_inv (h : K.Inv s₀.sink) (n : ℕ) : K.Inv (Trace.stateAt (step K) s₀ ρ n).sink := by
  apply Trace.always (I := fun s : State α σ => K.Inv s.sink) h
  intro s e hs
  exact step_inv hs

variable (K s₀ ρ) in
/-- After the publication that began at `b` no other begins before `n`. -/
def LastPublication (b n : ℕ) : Prop := ∀ k, b < k → k < n → ¬ Publishes (Trace.stateAt (step K) s₀ ρ k) (ρ k)

/-- A publication is under way or on its way as long as no other begins and deliveries work. -/
theorem publishing_or_onItsWay (hinv : K.Inv s₀.sink) {b n : ℕ} (hbn : b < n)
    (hw : (Trace.stateAt (step K) s₀ ρ b).writer = .idle) (hb : ρ b = .write (some v))
    (hlast : LastPublication K s₀ ρ b n) (hworks : ∀ k p, b < k → k < n → ρ k = .read p → K.Works p) :
    Publishing v (Trace.stateAt (step K) s₀ ρ n) ∨ OnItsWay K v (Trace.stateAt (step K) s₀ ρ n) := by
  refine Trace.holds_until (P := fun n => Publishing v (Trace.stateAt (step K) s₀ ρ n) ∨
    OnItsWay K v (Trace.stateAt (step K) s₀ ρ n))
    (R := fun k => Publishes (Trace.stateAt (step K) s₀ ρ k) (ρ k) ∨ ¬ ∀ p, ρ k = .read p → K.Works p)
    ?_ (Nat.succ_le_of_lt hbn) ?_ ?_
  · rintro k (hpub | hway) hk
    · rcases hpub.step (K := K) (e := ρ k) with hpub' | ⟨hw', hv', hf'⟩
      · exact Or.inl hpub'
      · exact Or.inr ⟨hw', hv', Or.inl hf'⟩
    · have hq : ¬ Publishes (Trace.stateAt (step K) s₀ ρ k) (ρ k) := by
        intro h
        exact hk (Or.inl h)
      have hp : ∀ p, ρ k = .read p → K.Works p := by
        by_contra h
        exact hk (Or.inr h)
      exact Or.inr (hway.step (stateAt_inv hinv k) hq hp)
  · left
    left
    simp [step, hw, hb]
  · rintro k hk hkn (hpub | hbad)
    · exact hlast k hk hkn hpub
    · apply hbad
      intro p hp
      exact hworks k p hk hkn hp

/-- **The last value gets through.** A value whose publication is complete when the reader begins a pass, with no
    other publication after it and deliveries that work, is in the sink when the pass ends, and stays there. -/
theorem delivered (hinv : K.Inv s₀.sink) {b i j n : ℕ} {p : π} (hbi : b < i) (hij : i < j) (hjn : j ≤ n)
    (hw : (Trace.stateAt (step K) s₀ ρ b).writer = .idle) (hb : ρ b = .write (some v))
    (hlast : LastPublication K s₀ ρ b n) (hworks : ∀ k p, b < k → k < j → ρ k = .read p → K.Works p)
    (hdone : (Trace.stateAt (step K) s₀ ρ i).writer = .idle)
    (hstart : (Trace.stateAt (step K) s₀ ρ i).reader = .idle) (hpass : ρ i = .read p)
    (hend : (Trace.stateAt (step K) s₀ ρ j).reader = .idle) :
    K.get (Trace.stateAt (step K) s₀ ρ n).sink = v := by
  -- the publication is complete at `i`
  have hway : OnItsWay K v (Trace.stateAt (step K) s₀ ρ i) := by
    rcases publishing_or_onItsWay hinv hbi hw hb (fun k hk hki => hlast k hk (by omega))
      (fun k p hk hki => hworks k p hk (by omega)) with (hpub | ⟨hpub, -⟩) | hway
    · rw [hdone] at hpub; cases hpub
    · rw [hdone] at hpub; cases hpub
    · exact hway
  -- from the first step of the pass on, the value is taken
  have htaken : ∀ m, i + 1 ≤ m → m ≤ j → OnItsWay K v (Trace.stateAt (step K) s₀ ρ m) ∧
      Taken K v (Trace.stateAt (step K) s₀ ρ m) := by
    intro m him
    induction m, him using Nat.le_induction with
    | base =>
        intro _
        have hq : ¬ Publishes (Trace.stateAt (step K) s₀ ρ i) (ρ i) := by
          rintro ⟨-, a, ha⟩
          rw [hpass] at ha
          cases ha
        refine ⟨hway.step (stateAt_inv hinv i) hq (fun p hp => hworks i p hbi hij hp), ?_⟩
        rw [Trace.stateAt_succ, hpass]
        exact hway.take hstart
    | succ m him ih =>
        intro hmj
        obtain ⟨hon, htk⟩ := ih (by omega)
        have hq := hlast m (by omega) (by omega)
        have hp : ∀ p, ρ m = .read p → K.Works p := by
          intro p hp
          exact hworks m p (by omega) (by omega) hp
        exact ⟨hon.step (stateAt_inv hinv m) hq hp, htk.step hon.1 hon.2.1 (stateAt_inv hinv m) hq hp⟩
  obtain ⟨hon, hf, hr⟩ := htaken j (by omega) le_rfl
  have hsink : K.get (Trace.stateAt (step K) s₀ ρ j).sink = v := by
    rcases hr with hr | hr | ⟨-, hsink⟩
    · rw [hend] at hr; cases hr
    · rw [hend] at hr; cases hr
    · exact hsink
  have hsettled : Settled K v (Trace.stateAt (step K) s₀ ρ n) := by
    apply Trace.holds_until (P := fun n => Settled K v (Trace.stateAt (step K) s₀ ρ n))
      (R := fun k => Publishes (Trace.stateAt (step K) s₀ ρ k) (ρ k)) _ hjn ⟨hon.1, hf, hend, hsink⟩
    · intro k hjk hkn
      exact hlast k (by omega) hkn
    · intro k h hq
      exact h.step hq
  exact hsettled.2.2.2

end Runs

end Mailbox
