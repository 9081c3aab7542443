import Lhre.Drivers.System
import Lhre.Theory.Trace

/-!
# `Drivers.Debounce` — level debouncing, press edges and persistence

The three input filters of `drivers/longhorn/include/longhorn/debounce.hpp`, as the code computes them, and
what each says about the history of its input:

- `Debouncer` reports a level only after the raw input has held it: `Debouncer.Sampled` ties the filter's
  state to the raw samples, and `Sampled.value_of_held` / `Sampled.held_of_value` are the two directions.
- `EdgeButton` reports a press edge only right after a sample at which it was debounced as released
  (`EdgeButton.edge_last`).
- `PersistenceTimer` is true as soon as its condition has held for the hold time
  (`PersistenceTimer.Sampled.fires`).

A filter is sampled at positions `0, 1, 2, …` of a stream; `now k` is the wrapped clock of sample `k` and
`t k` its true time.
-/

namespace Lhre.Longhorn

open Lhal

/-! ## Debouncer -/

/-- Reports a new level only after the raw input has held it for the debounce time. -/
structure Debouncer where
  value : Bool := false
  candidate : Bool := false
  started : Bool := false
  sinceMs : U32 := 0
deriving DecidableEq, Repr

/-- A debouncer that reports `initial` until the first stable reading. -/
def Debouncer.new (initial : Bool) : Debouncer := { value := initial, candidate := initial }

/-- `Debouncer::Update`; the reported level is the `value` of the result. -/
def Debouncer.update (d : Debouncer) (raw : Bool) (now debounceMs : U32) : Debouncer :=
  let restart := !d.started || raw != d.candidate
  let since := if restart then now else d.sinceMs
  { value := if raw != d.value && elapsedMs now since debounceMs then raw else d.value
    candidate := raw
    started := true
    sinceMs := since }

@[simp] theorem Debouncer.update_candidate (d : Debouncer) (raw : Bool) (now ms : U32) :
    (d.update raw now ms).candidate = raw := rfl

@[simp] theorem Debouncer.update_started (d : Debouncer) (raw : Bool) (now ms : U32) :
    (d.update raw now ms).started = true := rfl

/-- The stamp of the current raw level: kept while the level is the old candidate. -/
theorem Debouncer.update_sinceMs_same {d : Debouncer} {raw : Bool} {now ms : U32}
    (hs : d.started = true) (hc : d.candidate = raw) : (d.update raw now ms).sinceMs = d.sinceMs := by
  simp [Debouncer.update, hs, hc]

/-- The stamp of the current raw level: taken afresh when the level changes. -/
theorem Debouncer.update_sinceMs_new {d : Debouncer} {raw : Bool} {now ms : U32}
    (h : d.started = false ∨ d.candidate ≠ raw) : (d.update raw now ms).sinceMs = now := by
  rcases h with h | h
  · simp [Debouncer.update, h]
  · simp [Debouncer.update, Ne.symm h]

/-- The reported level, in terms of the stamp the update leaves. -/
theorem Debouncer.update_value (d : Debouncer) (raw : Bool) (now ms : U32) :
    (d.update raw now ms).value =
      if raw != d.value && elapsedMs now (d.update raw now ms).sinceMs ms then raw else d.value := rfl

/-- A reading of the reported level keeps it. -/
@[simp] theorem Debouncer.update_value_self (d : Debouncer) (now ms : U32) :
    (d.update d.value now ms).value = d.value := by
  rw [Debouncer.update_value]
  split <;> rfl

/-- A debouncer fed one sample at every position of a stream. -/
structure Debouncer.Sampled (D : ℕ → Debouncer) (raw : ℕ → Bool) (t : ℕ → ℕ) (hold : ℕ → U32) : Prop where
  fresh : (D 0).started = false
  step : ∀ n, D (n + 1) = (D n).update (raw n) (BitVec.ofNat 32 (t n)) (hold n)
  mono : Monotone t

namespace Debouncer.Sampled

variable {D : ℕ → Debouncer} {raw : ℕ → Bool} {t : ℕ → ℕ} {hold : ℕ → U32}

/-- **The stamp marks the start of the current level.** After sample `n` the stamp is the time of some
    sample `s ≤ n` from which on the raw input has had the level it has now, and `s` is the first such. -/
theorem stamp (h : Sampled D raw t hold) (n : ℕ) :
    ∃ s, s ≤ n ∧ (D (n + 1)).sinceMs = BitVec.ofNat 32 (t s) ∧ (∀ k, s ≤ k → k ≤ n → raw k = raw n) ∧
      (s = 0 ∨ raw (s - 1) ≠ raw n) := by
  induction n with
  | zero =>
      refine ⟨0, Nat.le_refl 0, ?_, ?_, Or.inl rfl⟩
      · rw [h.step, Debouncer.update_sinceMs_new (Or.inl h.fresh)]
      · intro k _ hk
        rw [Nat.le_zero.mp hk]
  | succ m ih =>
      have hstarted : (D (m + 1)).started = true := by rw [h.step]; rfl
      have hcand : (D (m + 1)).candidate = raw m := by rw [h.step]; rfl
      by_cases hsame : raw m = raw (m + 1)
      · obtain ⟨s, hs, hstamp, hrun, hfirst⟩ := ih
        refine ⟨s, Nat.le_succ_of_le hs, ?_, ?_, ?_⟩
        · rw [h.step, Debouncer.update_sinceMs_same hstarted (hcand.trans hsame), hstamp]
        · intro k hsk hk
          rcases Nat.lt_or_eq_of_le hk with hlt | rfl
          · rw [hrun k hsk (Nat.le_of_lt_succ hlt), hsame]
          · rfl
        · rw [← hsame]
          exact hfirst
      · refine ⟨m + 1, Nat.le_refl _, ?_, ?_, Or.inr ?_⟩
        · rw [h.step, Debouncer.update_sinceMs_new (Or.inr (hcand.trans_ne hsame))]
        · intro k hmk hk
          rw [Nat.le_antisymm hk hmk]
        · simpa using hsame

/-- **A held level is reported.** If the raw input has had level `b` at every sample of `[m, n]` and those
    samples span the hold time, the debouncer reports `b` after sample `n`. -/
theorem value_of_held (h : Sampled D raw t hold) {b : Bool} {m n : ℕ} (hmn : m ≤ n)
    (hspan : t n - t 0 < 2 ^ 32) (hheld : ∀ k, m ≤ k → k ≤ n → raw k = b)
    (hlong : t m + (hold n).toNat ≤ t n) : (D (n + 1)).value = b := by
  obtain ⟨s, hsn, hstamp, hrun, hfirst⟩ := h.stamp n
  have hn : raw n = b := hheld n hmn (Nat.le_refl n)
  have hsm : s ≤ m := by
    rcases hfirst with rfl | hne
    · exact Nat.zero_le m
    · by_contra hlt
      exact hne ((hheld (s - 1) (by omega) (by omega)).trans hn.symm)
  have ht : t s ≤ t m := h.mono hsm
  have h0 : t 0 ≤ t s := h.mono (Nat.zero_le s)
  have hel : elapsedMs (BitVec.ofNat 32 (t n)) (D (n + 1)).sinceMs (hold n) = true := by
    rw [hstamp, elapsedMs_ofNat (h.mono hsn) (by omega), decide_eq_true_eq]
    omega
  rw [h.step] at hel ⊢
  rw [Debouncer.update_value, hel, hn]
  by_cases hv : (D n).value = b <;> simp [hv, Ne.symm]

/-- A change of the reported level at sample `n` is to the current raw level, which has been held for
    the hold time. -/
theorem held_of_change (h : Sampled D raw t hold) {n : ℕ} (hspan : t n - t 0 < 2 ^ 32)
    (hch : (D (n + 1)).value ≠ (D n).value) :
    (D (n + 1)).value = raw n ∧
      ∃ m, m ≤ n ∧ (∀ k, m ≤ k → k ≤ n → raw k = raw n) ∧ t m + (hold n).toNat ≤ t n := by
  obtain ⟨s, hsn, hstamp, hrun, -⟩ := h.stamp n
  have h0 : t 0 ≤ t s := h.mono (Nat.zero_le s)
  rw [h.step, Debouncer.update_value] at hch ⊢
  by_cases hc : (raw n != (D n).value && elapsedMs (BitVec.ofNat 32 (t n))
      ((D n).update (raw n) (BitVec.ofNat 32 (t n)) (hold n)).sinceMs (hold n)) = true
  · rw [if_pos hc]
    refine ⟨rfl, s, hsn, hrun, ?_⟩
    have hel := (Bool.and_eq_true _ _ ▸ hc).2
    rw [← h.step, hstamp, elapsedMs_ofNat (h.mono hsn) (by omega), decide_eq_true_eq] at hel
    exact hel
  · rw [if_neg hc] at hch
    exact absurd rfl hch

/-- **A reported level was held, and has not been contradicted since.** If the debouncer reports a level
    it did not start with, some window of samples ending at or before `n` held that level for the hold
    time, and no later window of the opposite level has. -/
theorem held_of_value (h : Sampled D raw t hold) {b : Bool} {n : ℕ} (hspan : t n - t 0 < 2 ^ 32)
    (hinit : (D 0).value ≠ b) (hv : (D (n + 1)).value = b) :
    ∃ m l, m ≤ l ∧ l ≤ n ∧ (∀ k, m ≤ k → k ≤ l → raw k = b) ∧ t m + (hold l).toNat ≤ t l ∧
      ∀ c d, l < c → c ≤ d → d ≤ n → (∀ k, c ≤ k → k ≤ d → raw k = !b) →
        t d < t c + (hold d).toNat := by
  obtain ⟨l, hl, hbefore, hsince⟩ :=
    Trace.exists_last_rise (P := fun k => (D k).value = b) hinit hv
  have hmono : t l ≤ t n := h.mono (by omega)
  have hafter : (D (l + 1)).value = b := hsince (l + 1) (by omega) (by omega)
  obtain ⟨hraw, m, hml, hrun, hlong⟩ :=
    h.held_of_change (n := l) (by omega) (hafter.trans_ne (Ne.symm hbefore))
  refine ⟨m, l, hml, Nat.le_of_lt_succ hl, ?_, hlong, ?_⟩
  · intro k hmk hkl
    rw [hrun k hmk hkl, ← hraw, hafter]
  · intro c d hlc hcd hdn hopen
    by_contra hge
    have hd : t d ≤ t n := h.mono hdn
    have hflip : (D (d + 1)).value = !b := h.value_of_held hcd (by omega) hopen (by omega)
    rw [hsince (d + 1) (by omega) (by omega)] at hflip
    cases b <;> simp at hflip

end Debouncer.Sampled

/-! ## EdgeButton -/

/-- A debounced push input that reports press edges only after it has been seen released. It starts
    pressed, so an input already held at boot needs a release first. -/
structure EdgeButton where
  debouncer : Debouncer := .new true
  last : Bool := true
  armed : Bool := false
deriving DecidableEq, Repr

/-- `EdgeButton::pressed`. -/
def EdgeButton.pressed (e : EdgeButton) : Bool := e.last

/-- `EdgeButton::Update`: the new button and whether a debounced press began. -/
def EdgeButton.update (e : EdgeButton) (pressedRaw : Bool) (now debounceMs : U32) : EdgeButton × Bool :=
  let d := e.debouncer.update pressedRaw now debounceMs
  let pressed := d.value
  ({ debouncer := d, last := pressed, armed := !pressed || e.armed },
   pressed && (!e.last && e.armed))

/-- **A press edge follows a release.** On an edge the button is pressed now and was released at the
    sample before. -/
theorem EdgeButton.edge_last {e : EdgeButton} {raw : Bool} {now ms : U32}
    (h : (e.update raw now ms).2 = true) : e.last = false ∧ (e.update raw now ms).1.last = true := by
  simp only [EdgeButton.update, Bool.and_eq_true, Bool.not_eq_true'] at h ⊢
  exact ⟨h.2.1, h.1⟩

/-- The button's level is its debouncer's. -/
@[simp] theorem EdgeButton.update_last (e : EdgeButton) (raw : Bool) (now ms : U32) :
    (e.update raw now ms).1.last = (e.debouncer.update raw now ms).value := rfl

@[simp] theorem EdgeButton.update_debouncer (e : EdgeButton) (raw : Bool) (now ms : U32) :
    (e.update raw now ms).1.debouncer = e.debouncer.update raw now ms := rfl

/-! ## PersistenceTimer -/

/-- Holds a condition true only once it has persisted; drops immediately when it clears. -/
structure PersistenceTimer where
  active : Bool := false
  sinceMs : U32 := 0
deriving DecidableEq, Repr

/-- `PersistenceTimer::Update`: the new timer and the held condition. -/
def PersistenceTimer.update (p : PersistenceTimer) (condition : Bool) (now holdMs : U32) :
    PersistenceTimer × Bool :=
  if condition then
    let since := if p.active then p.sinceMs else now
    ({ active := true, sinceMs := since }, elapsedMs now since holdMs)
  else
    ({ p with active := false }, false)

@[simp] theorem PersistenceTimer.update_active (p : PersistenceTimer) (c : Bool) (now ms : U32) :
    (p.update c now ms).1.active = c := by
  cases c <;> rfl

theorem PersistenceTimer.update_true (p : PersistenceTimer) (now ms : U32) :
    p.update true now ms = ({ active := true, sinceMs := if p.active then p.sinceMs else now },
      elapsedMs now (if p.active then p.sinceMs else now) ms) := rfl

/-- A persistence timer fed one sample at every position of a stream. -/
structure PersistenceTimer.Sampled (T : ℕ → PersistenceTimer) (cond : ℕ → Bool) (t : ℕ → ℕ)
    (hold : ℕ → U32) : Prop where
  fresh : (T 0).active = false
  step : ∀ n, T (n + 1) = ((T n).update (cond n) (BitVec.ofNat 32 (t n)) (hold n)).1
  mono : Monotone t

namespace PersistenceTimer.Sampled

variable {T : ℕ → PersistenceTimer} {cond : ℕ → Bool} {t : ℕ → ℕ} {hold : ℕ → U32}

/-- **The stamp marks the start of the current episode.** While the condition holds, the stamp is the
    time of the sample it has held from. -/
theorem stamp (h : Sampled T cond t hold) {n : ℕ} (hn : cond n = true) :
    ∃ s, s ≤ n ∧ (T (n + 1)).sinceMs = BitVec.ofNat 32 (t s) ∧ (∀ k, s ≤ k → k ≤ n → cond k = true) ∧
      (s = 0 ∨ cond (s - 1) = false) := by
  induction n with
  | zero =>
      refine ⟨0, Nat.le_refl 0, ?_, ?_, Or.inl rfl⟩
      · rw [h.step, hn, PersistenceTimer.update_true, h.fresh]
        rfl
      · intro k _ hk
        rw [Nat.le_zero.mp hk, hn]
  | succ m ih =>
      have hactive : (T (m + 1)).active = cond m := by rw [h.step, PersistenceTimer.update_active]
      by_cases hm : cond m = true
      · obtain ⟨s, hs, hstamp, hrun, hfirst⟩ := ih hm
        refine ⟨s, Nat.le_succ_of_le hs, ?_, ?_, hfirst⟩
        · rw [h.step, hn, PersistenceTimer.update_true, hactive, hm, ← hstamp]
          rfl
        · intro k hsk hk
          rcases Nat.lt_or_eq_of_le hk with hlt | rfl
          · exact hrun k hsk (Nat.le_of_lt_succ hlt)
          · exact hn
      · have hf : cond m = false := Bool.eq_false_iff.mpr hm
        refine ⟨m + 1, Nat.le_refl _, ?_, ?_, Or.inr hf⟩
        · rw [h.step, hn, PersistenceTimer.update_true, hactive, hf]
          rfl
        · intro k hmk hk
          rw [Nat.le_antisymm hk hmk, hn]

/-- **The timer fires.** A condition that held at every sample of `[m, n]`, over at least the hold time
    and in an episode shorter than one turn of the clock, is reported at sample `n`. -/
theorem fires (h : Sampled T cond t hold) {m n : ℕ} (hmn : m ≤ n)
    (hheld : ∀ k, m ≤ k → k ≤ n → cond k = true) (hlong : t m + (hold n).toNat ≤ t n)
    (hepisode : ∀ s, (∀ k, s ≤ k → k ≤ n → cond k = true) → t n - t s < 2 ^ 32) :
    ((T n).update (cond n) (BitVec.ofNat 32 (t n)) (hold n)).2 = true := by
  have hn : cond n = true := hheld n hmn (Nat.le_refl n)
  obtain ⟨s, hsn, hstamp, hrun, hfirst⟩ := h.stamp hn
  have hsm : s ≤ m := by
    rcases hfirst with rfl | hf
    · exact Nat.zero_le m
    · by_contra hlt
      rw [hheld (s - 1) (by omega) (by omega)] at hf
      cases hf
  have ht : t s ≤ t m := h.mono hsm
  rw [h.step, hn, PersistenceTimer.update_true] at hstamp
  rw [hn, PersistenceTimer.update_true]
  simp only at hstamp ⊢
  rw [hstamp, elapsedMs_ofNat (h.mono hsn) (hepisode s hrun), decide_eq_true_eq]
  omega

end PersistenceTimer.Sampled
end Lhre.Longhorn
